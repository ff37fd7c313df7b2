import CS162.Filesys.Entries

/-!
# Directories in low memory

`dir_add` when the bounce buffers of `inode_read_at` and `inode_write_at` cannot
always be allocated.  Every read of an entry needs one, and one that fails looks
like the end of the directory.
-/

namespace CS162.Filesys

open CS162.Foundation
open CS162.Devices (blockSectorSize)

section Add

variable {fs : Fs} {handle : Dir} {start entries : Nat} {name : List UInt8}
variable {inodeSector : Nat} {malloc : Mallocs}

/-- Every slot in use is as it was, and no name is in use twice. -/
structure AddKeeps (disk disk' : Memory) (start entries : Nat) : Prop where
  unchanged : ∀ i, i < entries → entryInUse (slot disk start i) = true →
    (slot disk' start i).AgreeOn (slot disk start i) 0 direntSize
  once : ∀ i j name sector other, i < entries → j < entries →
    entryOf (slot disk' start i) = some (name, sector) →
      entryOf (slot disk' start j) = some (name, other) → i = j

/-- The slot at which the search for a free one ends. -/
structure StopsAt (disk : Memory) (start entries : Nat) (bounce : Nat → Bool)
    (t : Nat) : Prop where
  inside : t ≤ entries
  before : ∀ k, k < t → bounce k = true ∧ entryInUse (slot disk start k) = true
  here : t = entries ∨ bounce t = false ∨ entryInUse (slot disk start t) = false

theorem StopsAt.le {disk : Memory} {bounce : Nat → Bool} {t other : Nat}
    (first : StopsAt disk start entries bounce t)
    (second : StopsAt disk start entries bounce other) : t ≤ other := by
  by_contra less
  have going := first.before other (Nat.lt_of_not_le less)
  have inside := first.inside
  rcases second.here with last | failed | free
  · omega
  · rw [going.1] at failed
    cases failed
  · rw [going.2] at free
    cases free

theorem StopsAt.unique {disk : Memory} {bounce : Nat → Bool} {t other : Nat}
    (first : StopsAt disk start entries bounce t)
    (second : StopsAt disk start entries bounce other) : t = other :=
  Nat.le_antisymm (first.le second) (second.le first)

/-- No failed allocation does harm: the name is not valid or `lookup` comes to
it, the entry cannot be written, or the slot that is written is free and the name
new; or it was the same entry. -/
def MemorySuffices (fs : Fs) (start entries : Nat) (name : List UInt8)
    (inodeSector : Nat) (malloc : Mallocs) : Prop :=
  name = [] ∨ nameMax < name.length ∨ malloc.write = false ∨
    LookupFinds fs.disk start entries name malloc.lookup ∨
    ∀ t, StopsAt fs.disk start entries malloc.slot t →
      t = entries ∨
        (entryInUse (slot fs.disk start t) = false ∧
          ∀ i sector, i < entries → entryOf (slot fs.disk start i) ≠ some (name, sector)) ∨
        (entryInUse (slot fs.disk start t) = true ∧
          (slot fs.disk start t).AgreeOn
            (newEntry (DirReady.previousRead fs.disk start 0 t fs.stack) name
              inodeSector) 0 direntSize)

theorem AddKeeps.refl {disk : Memory} (sound : SlotsSound disk start entries) :
    AddKeeps disk disk start entries where
  unchanged := fun _ _ _ _ _ _ => rfl
  once := sound.once

theorem entryOf_isSome (e : Memory) : (entryOf e).isSome = entryInUse e := by
  rw [entryOf]
  cases entryInUse e with
  | true => rfl
  | false => rfl

/-- The first bytes of the buffer decide the first bytes of the new entry. -/
theorem newEntry_agreeOn {e other : Memory}
    (agree : e.AgreeOn other 0 direntSize) (name : List UInt8) (inodeSector : Nat) :
    (newEntry e name inodeSector).AgreeOn (newEntry other name inodeSector) 0
      direntSize := by
  intro place lower upper
  have same := agree place lower upper
  simp only [newEntry, Memory.store32, Memory.fill, Memory.splice]
  split
  · rfl
  · split
    · rfl
    · split
      · rfl
      · split
        · rfl
        · exact same

/-- A free slot may be written when the name is new, and only then. -/
theorem addKeeps_free_iff {disk : Memory} (sound : SlotsSound disk start entries)
    {t : Nat} {e : Memory} (inside : t < entries) (free : entryInUse (slot disk start t) = false)
    (entry : entryOf e = some (name, inodeSector)) (terminated : Terminated e) :
    AddKeeps disk (writeSlot disk start t e) start entries ↔
      ∀ i sector, i < entries →
        entryOf (slot disk start i) ≠ some (name, sector) := by
  constructor
  · intro keeps i sector listed here
    have used : entryInUse (slot disk start i) = true := by
      rw [← entryOf_isSome, here]
      rfl
    have different : i ≠ t := by
      intro same
      rw [same, free] at used
      cases used
    apply different
    apply keeps.once i t name sector inodeSector listed inside
    · rw [entryOf_writeSlot, if_neg different]
      exact here
    · rw [entryOf_writeSlot, if_pos rfl]
      exact entry
  · intro fresh
    have written := sound.write (e := e) t (fun _ => terminated) (by
      intro other sector same j otherSector listed _
      rw [entry] at same
      cases same
      exact fresh j otherSector listed)
    constructor
    · intro i listed used
      have different : i ≠ t := by
        intro same
        rw [same, free] at used
        cases used
      have agree := slot_writeSlot disk e start t i
      rw [if_neg different] at agree
      exact agree
    · exact written.once

/-- A slot in use may be written with what it contains, and only with that. -/
theorem addKeeps_used_iff {disk : Memory} (sound : SlotsSound disk start entries)
    {t : Nat} {e : Memory} (inside : t < entries) (used : entryInUse (slot disk start t) = true) :
    AddKeeps disk (writeSlot disk start t e) start entries ↔
      (slot disk start t).AgreeOn e 0 direntSize := by
  have here := slot_writeSlot disk e start t t
  rw [if_pos rfl] at here
  constructor
  · intro keeps place lower upper
    have same := keeps.unchanged t inside used place lower upper
    rw [← same]
    exact here place lower upper
  · intro agree
    have all : ∀ i, i < entries → (slot (writeSlot disk start t e) start i).AgreeOn
        (slot disk start i) 0 direntSize := by
      intro i listed
      have written := slot_writeSlot disk e start t i
      by_cases same : i = t
      · subst same
        intro place lower upper
        exact (here place lower upper).trans (agree place lower upper).symm
      · rw [if_neg same] at written
        exact written
    constructor
    · intro i listed _
      exact all i listed
    · exact (sound.congr all).once

variable (ready : DirReady fs handle.inode start entries)
include ready

/-- The search for a free slot ends at the first one that is free or cannot be
read. -/
theorem freeSlot_any (bounce : Nat → Bool) :
    ∃ t read found, StopsAt fs.disk start entries bounce t ∧
      fs.searchLoop handle.inode bounce (fun e => !entryInUse e)
          (fs.searchRounds handle.inode) 0 fs.stack =
        some (read, direntSize * t, found) ∧
      (t < entries → entryInUse (slot fs.disk start t) = true →
        read.AgreeOn (DirReady.previousRead fs.disk start 0 t fs.stack) 0
          direntSize) := by
  have decides : ∀ k, k < entries → ∀ e,
        e.AgreeOn (slot fs.disk start k) 0 direntSize →
          (!entryInUse e) = !entryInUse (slot fs.disk start k) := by
    intro k inside e agree
    rw [entryInUse_congr agree]
  have enough : entries < 0 + fs.searchRounds handle.inode := by
    rw [ready.searchRounds]
    omega
  rcases
    @DirReady.searchLoop_any _ _ _ _ _ fs.stack bounce _ _ ready decides _
      (Nat.zero_le entries) enough with
    ⟨t, read, -, inside, earlier, outcome⟩
  have before :
      ∀ k, k < t →
        bounce k = true ∧ entryInUse (slot fs.disk start k) = true := by
    intro k less
    have going := earlier k (Nat.zero_le k) less
    exact ⟨going.1, by simpa using going.2⟩
  rcases outcome with ⟨listed, -, free, -, search⟩ | ⟨stopped, agree, search⟩
  · have clear : entryInUse (slot fs.disk start t) = false := by
      simpa using free
    refine ⟨t, read, true, ⟨inside, before, Or.inr (Or.inr clear)⟩, search, ?_⟩
    intro _ used
    rw [clear] at used
    cases used
  · refine ⟨t, read, false, ⟨inside, before, ?_⟩, search, fun _ _ => agree⟩
    rcases stopped with last | failed
    · exact Or.inl last
    · exact Or.inr (Or.inl failed)

/-- What `dir_add` does once `lookup` has given up. -/
theorem dirAdd_writes (valid : ¬(name = [] ∨ name.length > nameMax))
    (absent : fs.lookup handle name malloc.lookup = some none) :
    ∃ t read, StopsAt fs.disk start entries malloc.slot t ∧
      (t < entries → entryInUse (slot fs.disk start t) = true →
        read.AgreeOn (DirReady.previousRead fs.disk start 0 t fs.stack) 0 direntSize) ∧
        fs.dirAdd handle name inodeSector malloc =
          if malloc.write = true ∧ t < entries then
            some
              (fs.setDisk
                (writeSlot fs.disk start t (newEntry read name inodeSector)),
                true)
          else some (fs, false) := by
  rcases freeSlot_any ready malloc.slot with ⟨t, read, found, stops, search, agree⟩
  refine ⟨t, read, stops, agree, ?_⟩
  have written :=
    @DirReady.writeSlot_any _ _ _ _ t malloc.write ready (newEntry read name inodeSector)
  rw [Fs.dirAdd, if_neg valid, absent, Option.bind_some]
  simp only [search, Option.bind_some]
  rw [written]
  by_cases there : malloc.write = true ∧ t < entries
  · rw [if_pos there, if_pos there, Option.map_some]
    simp
  · rw [if_neg there, if_neg there, Option.map_some]
    rfl

/-- `dir_add` leaves the entries of a directory in order exactly when no failed
allocation does harm. -/
theorem dir_add_keeps_iff (sound : SlotsSound fs.disk start entries)
    (text : 0 ∉ name) (small : inodeSector < unsignedModulus) :
    (∃ after ok, fs.dirAdd handle name inodeSector malloc = some (after, ok) ∧
        AddKeeps fs.disk after.disk start entries) ↔
      MemorySuffices fs start entries name inodeSector malloc := by
  by_cases invalid : name = [] ∨ name.length > nameMax
  · constructor
    · intro _
      rcases invalid with empty | long
      · exact Or.inl empty
      · exact Or.inr (Or.inl long)
    · intro _
      refine ⟨fs, false, ?_, AddKeeps.refl sound⟩
      rw [Fs.dirAdd, if_pos invalid]
  rcases ready.lookup_any sound text malloc.lookup with
    ⟨i, sector, read, listed, here, memory, -, found⟩ | ⟨missing, absent⟩
  · constructor
    · intro _
      exact Or.inr (Or.inr (Or.inr (Or.inl ⟨i, sector, listed, here, memory⟩)))
    · intro _
      refine ⟨fs, false, ?_, AddKeeps.refl sound⟩
      rw [Fs.dirAdd, if_neg invalid, found]
      rfl
  rcases dirAdd_writes ready invalid absent with ⟨t, read, stops, agree, added⟩
  rw [added]
  by_cases there : malloc.write = true ∧ t < entries
  · rw [if_pos there]
    have outcome :
        MemorySuffices fs start entries name inodeSector malloc ↔
          (entryInUse (slot fs.disk start t) = false ∧
              ∀ i sector, i < entries → entryOf (slot fs.disk start i) ≠ some (name, sector)) ∨
            (entryInUse (slot fs.disk start t) = true ∧
              (slot fs.disk start t).AgreeOn
                (newEntry (DirReady.previousRead fs.disk start 0 t fs.stack)
                  name inodeSector) 0 direntSize) := by
      constructor
      · intro enough
        rcases enough with empty | long | failed | finds | harmless
        · exact absurd (Or.inl empty) invalid
        · exact absurd (Or.inr long) invalid
        · rw [there.1] at failed
          cases failed
        · exact absurd finds missing
        · rcases harmless t stops with last | harmless
          · exact absurd last (Nat.ne_of_lt there.2)
          · exact harmless
      · intro harmless
        right; right; right; right
        intro other otherStops
        rw [otherStops.unique stops]
        exact Or.inr harmless
    have stepped : (∃ after ok,
            some
                (fs.setDisk
                  (writeSlot fs.disk start t (newEntry read name inodeSector)),
                  true) =
              some (after, ok) ∧
            AddKeeps fs.disk after.disk start entries) ↔
          AddKeeps fs.disk
            (writeSlot fs.disk start t (newEntry read name inodeSector)) start
            entries := by
      constructor
      · intro kept
        rcases kept with ⟨after, ok, same, keeps⟩
        cases same
        exact keeps
      · intro keeps
        exact ⟨_, true, rfl, keeps⟩
    rw [stepped, outcome]
    cases used : entryInUse (slot fs.disk start t) with
    | false =>
        have fits : name.length ≤ nameMax := by
          rw [not_or, Nat.not_lt] at invalid
          exact invalid.2
        have entry := entryOf_newEntry read text fits small
        rw [addKeeps_free_iff sound there.2 used entry.1 entry.2]
        simp
    | true =>
        rw [addKeeps_used_iff sound there.2 used]
        have same := newEntry_agreeOn (agree there.2 used) name inodeSector
        simp only [Bool.true_eq_false, false_and, false_or, true_and]
        constructor
        · intro kept
          exact kept.trans same
        · intro kept
          exact kept.trans fun place lower upper => (same place lower upper).symm
  · rw [if_neg there]
    constructor
    · intro _
      by_cases writes : malloc.write = true
      · right; right; right; right
        intro other otherStops
        left
        rw [otherStops.unique stops]
        have inside := stops.inside
        rw [not_and] at there
        have past := there writes
        omega
      · right; right; left
        simpa using writes
    · intro _
      exact ⟨fs, false, rfl, AddKeeps.refl sound⟩

end Add

/-! ## A directory that loses an entry -/

/-- A device with an open directory of two entries, both in use. -/
def twoEntries : Fs where
  deviceSize := 8
  disk := writeSlot (writeSlot zeros 3 0 (newEntry zeros [97] 5)) 3 1 (newEntry zeros [98] 6)
  freeMap := Fs.twoSectorFile.freeMap
  freeMapFile := none
  openInodes := [⟨2, 1, false, 0, ⟨3, 40, inodeMagic⟩⟩]
  stack := zeros

/-- Memory runs out for the second scan and is there again for the write. -/
def scanFails : Mallocs := { Mallocs.plenty with slot := fun _ => false }

theorem twoEntries_ready : DirReady twoEntries 2 3 2 where
  inode := by
    refine ⟨_, rfl, rfl, rfl, rfl, ?_⟩
    exact ⟨by decide, by decide, by decide⟩

theorem twoEntries_sound : SlotsSound twoEntries.disk 3 2 := by
  have first : entryOf (slot twoEntries.disk 3 0) = some ([97], 5) := by
    decide +kernel
  have second : entryOf (slot twoEntries.disk 3 1) = some ([98], 6) := by
    decide +kernel
  have cases : ∀ i, i < 2 → i = 0 ∨ i = 1 := by
    intro i inside
    omega
  constructor
  · intro i inside _
    refine ⟨1, by decide, ?_⟩
    rcases cases i inside with zero | one
    · rw [zero]
      decide +kernel
    · rw [one]
      decide +kernel
  · intro i j name sector other insideI insideJ here there
    rcases cases i insideI with zeroI | oneI
    · rcases cases j insideJ with zeroJ | oneJ
      · rw [zeroI, zeroJ]
      · rw [zeroI, first] at here
        rw [oneJ, second] at there
        cases here
        cases there
    · rcases cases j insideJ with zeroJ | oneJ
      · rw [oneI, second] at here
        rw [zeroJ, first] at there
        cases here
        cases there
      · rw [oneI, oneJ]

/-- The entry cannot be written, so the directory is kept. -/
theorem dir_add_keeps_iff_two : ∃ after ok,
      twoEntries.dirAdd ⟨2, 0⟩ [99] 7 { scanFails with write := false } = some (after, ok) ∧
        AddKeeps twoEntries.disk after.disk 3 2 :=
  (dir_add_keeps_iff twoEntries_ready twoEntries_sound (by decide) (by decide)).mpr
    (Or.inr (Or.inr (Or.inl rfl)))

/-- The second scan takes the failed read of the first slot for the end of the
directory, and the new entry replaces the one that is there. -/
theorem dir_add_replaces_entry :
    DirReady twoEntries 2 3 2 ∧ SlotsSound twoEntries.disk 3 2 ∧
      ¬∃ after ok,
        twoEntries.dirAdd ⟨2, 0⟩ [99] 7 scanFails = some (after, ok) ∧
          AddKeeps twoEntries.disk after.disk 3 2 := by
  refine ⟨twoEntries_ready, twoEntries_sound, ?_⟩
  intro kept
  rcases kept with ⟨after, ok, added, keeps⟩
  have written :
      (twoEntries.dirAdd ⟨2, 0⟩ [99] 7 scanFails).map (fun r => slot r.1.disk 3 0 4) = some 99 := by
    decide +kernel
  rw [added, Option.map_some, Option.some.injEq] at written
  have used : entryInUse (slot twoEntries.disk 3 0) = true := by
    decide +kernel
  have same := keeps.unchanged 0 (by decide) used 4 (by decide) (by decide)
  rw [written] at same
  revert same
  decide +kernel

end CS162.Filesys

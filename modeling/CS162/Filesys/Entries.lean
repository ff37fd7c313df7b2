import CS162.Filesys.Directory
import CS162.Filesys.InodeIo

/-!
# Directory entries

What the 20 bytes of a slot say, and what a search through the slots of a
directory finds.
-/

namespace CS162.Filesys

open CS162.Foundation
open CS162.Kernel
open CS162.Devices (blockSectorSize)

section Bytes

variable {e other : Memory}

/-- The characters of a string up to its terminator. -/
def stringAt (e : Memory) (offset room : Nat) : List UInt8 :=
  ((List.range room).map fun i => e (offset + i)).takeWhile (· != 0)

theorem stringAt_succ (e : Memory) (offset room : Nat) :
    stringAt e offset (room + 1) = if e offset = 0 then []
      else e offset :: stringAt e (offset + 1) room := by
  have rest :
      (List.range (room + 1)).map (fun i => e (offset + i)) =
        e offset :: (List.range room).map fun i => e (offset + 1 + i) := by
    rw [List.range_succ_eq_map, List.map_cons, List.map_map, Nat.add_zero]
    congr 1
    apply List.map_congr_left
    intro i member
    simp only [Function.comp_apply, Nat.succ_eq_add_one]
    congr 1
    omega
  rw [stringAt, rest, List.takeWhile_cons]
  by_cases finished : e offset = 0
  · simp [finished]
  · simp [finished, stringAt]

/-- A string has no terminator in it and is no longer than its room. -/
theorem stringAt_text (e : Memory) (offset room : Nat) :
    0 ∉ stringAt e offset room ∧ (stringAt e offset room).length ≤ room := by
  induction room generalizing offset with
  | zero => exact ⟨List.not_mem_nil, Nat.le_refl 0⟩
  | succ room inductionHypothesis =>
      rw [stringAt_succ]
      by_cases finished : e offset = 0
      · rw [if_pos finished]
        exact ⟨List.not_mem_nil, Nat.zero_le _⟩
      · rcases inductionHypothesis (offset + 1) with ⟨text, short⟩
        rw [if_neg finished, List.length_cons, List.mem_cons]
        constructor
        · intro null
          rcases null with first | later
          · exact finished first.symm
          · exact text later
        · exact Nat.succ_le_succ short

/-- `strcmp` compares the characters up to the terminator. -/
theorem sameName_iff {name : List UInt8} {offset room : Nat}
    (terminated : ∃ length, length ≤ room ∧ e (offset + length) = 0) (text : 0 ∉ name) :
    sameName name e offset = true ↔ stringAt e offset room = name := by
  induction name generalizing offset room with
  | nil =>
      rw [sameName, beq_iff_eq]
      cases room with
      | zero =>
          rcases terminated with ⟨length, none, zero⟩
          rw [Nat.le_zero.mp none, Nat.add_zero] at zero
          simp [zero, stringAt]
      | succ room =>
          rw [stringAt_succ]
          by_cases finished : e offset = 0 <;> simp [finished]
  | cons c rest inductionHypothesis =>
      have visible : c ≠ 0 := by
        intro zero
        rw [zero] at text
        exact text List.mem_cons_self
      have restText : 0 ∉ rest := fun member =>
        text (List.mem_cons_of_mem c member)
      rw [sameName, Bool.and_eq_true, beq_iff_eq]
      rcases terminated with ⟨length, inside, zero⟩
      by_cases finished : e offset = 0
      · have empty : stringAt e offset room = [] := by
          cases room with
          | zero => rfl
          | succ room => rw [stringAt_succ, if_pos finished]
        rw [empty, finished]
        simp [Ne.symm visible]
      · cases length with
        | zero => exact absurd zero finished
        | succ length =>
            cases room with
            | zero => omega
            | succ room =>
                have later :
                    ∃ length, length ≤ room ∧
                      e (offset + 1 + length) = 0 := by
                  refine ⟨length, by omega, ?_⟩
                  rw [Nat.add_assoc, Nat.add_comm 1]
                  exact zero
                rw [stringAt_succ, if_neg finished, List.cons.injEq,
                  inductionHypothesis later restText]

/-- Characters without a terminator among them, and then a terminator. -/
theorem stringAt_eq {name : List UInt8} {offset room : Nat}
    (text : 0 ∉ name) (fits : name.length ≤ room)
    (chars : ∀ i, i < name.length → e (offset + i) = name.getD i 0)
    (ended : e (offset + name.length) = 0) : stringAt e offset room = name := by
  induction name generalizing offset room with
  | nil =>
      rw [List.length_nil, Nat.add_zero] at ended
      cases room with
      | zero => rfl
      | succ room => rw [stringAt_succ, if_pos ended]
  | cons c rest inductionHypothesis =>
      cases room with
      | zero => cases fits
      | succ room =>
          have first : e offset = c := chars 0 (Nat.succ_pos _)
          have visible : e offset ≠ 0 := by
            intro zero
            rw [first] at zero
            rw [zero] at text
            exact text List.mem_cons_self
          rw [stringAt_succ, if_neg visible, first]
          congr 1
          apply inductionHypothesis
          · exact fun member => text (List.mem_cons_of_mem c member)
          · exact Nat.le_of_succ_le_succ fits
          · intro i inside
            have char := chars (i + 1) (Nat.succ_lt_succ inside)
            rw [← Nat.add_assoc, Nat.add_right_comm] at char
            exact char
          · rw [List.length_cons, ← Nat.add_assoc, Nat.add_right_comm]
              at ended
            exact ended

/-- A name that fits is followed by a terminator. -/
def Terminated (e : Memory) : Prop := ∃ length, length ≤ nameMax ∧ e (4 + length) = 0

/-- The name and the sector of an entry in use. -/
def entryOf (e : Memory) : Option (List UInt8 × Nat) :=
  if entryInUse e then some (entryName e, entrySector e) else none

theorem entryName_eq (e : Memory) : entryName e = stringAt e 4 nameMax := rfl

section Agreement

variable (agree : e.AgreeOn other 0 direntSize)
include agree

theorem entryInUse_congr : entryInUse e = entryInUse other := by
  have flag := agree 19 (by decide) (by decide)
  rw [entryInUse, entryInUse, flag]

theorem entrySector_congr : entrySector e = entrySector other :=
  (agree.mono (by decide) (by decide)).load32_eq

theorem entryName_congr : entryName e = entryName other := by
  unfold entryName
  congr 1
  apply List.map_congr_left
  intro i member
  rw [List.mem_range] at member
  unfold nameMax at member
  apply agree
  · omega
  · unfold direntSize
    omega

theorem entryOf_congr : entryOf e = entryOf other := by
  rw [entryOf, entryOf, entryInUse_congr agree, entryName_congr agree, entrySector_congr agree]

theorem entrySector_of_entryOf {name : List UInt8} {sector : Nat}
    (here : entryOf other = some (name, sector)) : entrySector e = sector := by
  rw [entrySector_congr agree]
  rw [entryOf] at here
  split at here
  · cases here
    rfl
  · cases here

theorem terminated_congr : Terminated e ↔ Terminated other := by
  have same : ∀ length, length ≤ nameMax → e (4 + length) = other (4 + length) := by
    intro length inside
    unfold nameMax at inside
    apply agree
    · omega
    · unfold direntSize
      omega
  constructor
  · intro terminated
    rcases terminated with ⟨length, inside, zero⟩
    exact ⟨length, inside, (same length inside).symm.trans zero⟩
  · intro terminated
    rcases terminated with ⟨length, inside, zero⟩
    exact ⟨length, inside, (same length inside).trans zero⟩

end Agreement

/-- The test of `lookup` finds an entry in use with the name. -/
theorem lookupTest_iff {name : List UInt8} (text : 0 ∉ name)
    (terminated : entryInUse e = true → Terminated e) :
    (entryInUse e && sameName name e 4) = true ↔ ∃ sector, entryOf e = some (name, sector) := by
  rw [Bool.and_eq_true, entryOf]
  by_cases inUse : entryInUse e = true
  · rw [if_pos inUse, entryName_eq, sameName_iff (terminated inUse) text]
    simp [inUse]
  · rw [if_neg inUse]
    simp [inUse]

/-- The bytes that `dir_add` writes. -/
theorem newEntry_bytes (e : Memory) {name : List UInt8} (inodeSector : Nat)
    (fits : name.length ≤ nameMax) :
    newEntry e name inodeSector 19 = 1 ∧
      newEntry e name inodeSector (4 + name.length) = 0 ∧
        ∀ i, i < name.length →
          newEntry e name inodeSector (4 + i) = name.getD i 0 := by
  have length : min name.length nameMax = name.length := Nat.min_eq_left fits
  unfold nameMax at fits
  unfold newEntry
  simp only [length]
  refine ⟨?_, ?_, ?_⟩
  · rw [Memory.store32, if_neg (by omega), Memory.fill, if_neg (by omega),
      Memory.splice, if_neg (by omega)]
    rfl
  · rw [Memory.store32, if_neg (by omega), Memory.fill, if_pos (by omega)]
  · intro i inside
    rw [Memory.store32, if_neg (by omega), Memory.fill, if_neg (by omega),
      Memory.splice_apply_add inside, nameBytes]

/-- The entry that `dir_add` writes says what it should. -/
theorem entryOf_newEntry (e : Memory) {name : List UInt8} {inodeSector : Nat}
    (text : 0 ∉ name) (fits : name.length ≤ nameMax) (small : inodeSector < unsignedModulus) :
    entryOf (newEntry e name inodeSector) = some (name, inodeSector) ∧
      Terminated (newEntry e name inodeSector) := by
  rcases newEntry_bytes e inodeSector fits with ⟨flag, ended, chars⟩
  have inUse : entryInUse (newEntry e name inodeSector) = true := by
    rw [entryInUse, flag]
    rfl
  have sector : entrySector (newEntry e name inodeSector) = inodeSector :=
    Memory.load32_store32 small
  constructor
  · rw [entryOf, if_pos inUse, sector, entryName_eq, stringAt_eq text fits chars ended]
  · exact ⟨name.length, fits, ended⟩

/-- Clearing the flag of an entry removes it. -/
theorem entryOf_fill (e : Memory) : entryOf (e.fill 19 1 0) = none := by
  have flag : (e.fill 19 1 0) 19 = 0 := by
    rw [Memory.fill, if_pos (by omega)]
  rw [entryOf, entryInUse, flag]
  rfl

end Bytes

/-- A slot of a directory whose data start at a sector. -/
def slot (disk : Memory) (start i : Nat) : Memory :=
  disk.drop (start * blockSectorSize + direntSize * i)

/-- The slots of a directory that has just been created are clear. -/
theorem slot_newFileDisk (disk : Memory) {sector start i : Nat} {length : Int}
    (inside : direntSize * (i + 1) ≤ sectorsFor length.toNat * blockSectorSize) :
    (slot (newFileDisk disk sector start length) start i).AgreeOn zeros 0
      direntSize := by
  intro place lower upper
  have offset : direntSize * i + place < sectorsFor length.toNat * blockSectorSize := by
    rw [Nat.mul_succ] at inside
    omega
  rw [slot, Memory.drop, newFileDisk, Nat.add_assoc, Memory.splice_apply_add offset]
  rfl

theorem entryOf_zeros : entryOf zeros = none := rfl

/-- An open directory with room for a number of entries. -/
structure DirReady (fs : Fs) (dir start entries : Nat) : Prop where
  inode :
    ∃ found, fs.findInode dir = some found ∧ found.denyWriteCnt = 0 ∧
      found.data.start = start ∧
        found.data.length = (direntSize * entries : Nat) ∧ found.data.Within fs.deviceSize

section Search

variable {fs : Fs} {dir : Nat} {start entries i : Nat} {e : Memory} {memory : Bool}
variable {bounce : Nat → Bool}

/-- Less than a sector is moved with a bounce buffer or not at all. -/
theorem movedCount_entry {data : InodeDisk} (length : data.length = (direntSize * entries : Nat)) :
    Fs.movedCount data memory direntSize (direntSize * i) =
      if memory = true ∧ i < entries then direntSize else 0 := by
  have count : Fs.moveCount data direntSize (direntSize * i) =
      if i < entries then direntSize else 0 := by
    unfold Fs.moveCount
    rw [length]
    unfold direntSize
    split <;> omega
  rw [Fs.movedCount, count]
  cases memory with
  | true => simp only [if_true, true_and]
  | false =>
      have part : (if i < entries then direntSize else 0) / blockSectorSize =
          0 := by
        apply Nat.div_eq_of_lt
        unfold direntSize blockSectorSize
        split <;> omega
      rw [part, Nat.zero_mul]
      simp only [Bool.false_eq_true, if_false, ite_self, false_and]

namespace DirReady

theorem searchRounds (ready : DirReady fs dir start entries) :
    fs.searchRounds dir = entries + 1 := by
  rcases ready.inode with ⟨found, here, -, -, length, -⟩
  rw [Fs.searchRounds, here, Option.elim_some, length]
  unfold direntSize
  omega

/-- Reading a slot, with memory or without. -/
theorem readSlot (ready : DirReady fs dir start entries) (e : Memory) :
    fs.inodeReadAt dir memory e direntSize (direntSize * i) =
      if memory = true ∧ i < entries then
        some (e.splice 0 direntSize (slot fs.disk start i), direntSize)
      else some (e, 0) := by
  rcases ready.inode with ⟨found, here, -, place, length, within⟩
  rw [Fs.inodeReadAt_moved here within, movedCount_entry length, place]
  by_cases there : memory = true ∧ i < entries
  · rw [if_pos there, if_pos there, slot]
  · rw [if_neg there, if_neg there, Memory.splice_zero]

/-- What the buffer holds when the read of a slot fails: what it held before, or
the slot before. -/
def previousRead (disk : Memory) (start first i : Nat) (e : Memory) : Memory :=
  if i = first then e else slot disk start (i - 1)

/-- A search ends at the first slot that passes the test, at the end of the
directory, or at the first slot that cannot be read. -/
theorem searchLoop_any {test : Memory → Bool} {verdict : Nat → Bool}
    (ready : DirReady fs dir start entries)
    (decides : ∀ k, k < entries → ∀ e,
        e.AgreeOn (slot fs.disk start k) 0 direntSize → test e = verdict k)
    {rounds : Nat} (inside : i ≤ entries) (enough : entries < i + rounds) :
    ∃ j read, i ≤ j ∧ j ≤ entries ∧
      (∀ k, i ≤ k → k < j → bounce k = true ∧ verdict k = false) ∧
      ((j < entries ∧ bounce j = true ∧ verdict j = true ∧
          read.AgreeOn (slot fs.disk start j) 0 direntSize ∧
          fs.searchLoop dir bounce test rounds i e = some (read, direntSize * j, true)) ∨
        ((j = entries ∨ bounce j = false) ∧
          read.AgreeOn (previousRead fs.disk start i j e) 0 direntSize ∧
          fs.searchLoop dir bounce test rounds i e = some (read, direntSize * j, false))) := by
  induction rounds generalizing i e with
  | zero => omega
  | succ rounds inductionHypothesis =>
      rw [Fs.searchLoop, ready.readSlot]
      by_cases there : bounce i = true ∧ i < entries
      · have agree :=
          Memory.splice_zero_agreeOn e (slot fs.disk start i) direntSize
        rw [if_pos there, Option.bind_some]
        simp only [if_true, decides i there.2 _ agree]
        cases passes : verdict i with
        | true =>
            refine ⟨i, _, le_refl i, inside, ?_, Or.inl ⟨there.2, there.1, passes, agree, rfl⟩⟩
            intro k first last
            omega
        | false =>
            simp only [Bool.false_eq_true, if_false]
            rcases
              @inductionHypothesis (i + 1)
                (e.splice 0 direntSize (slot fs.disk start i))
                (by omega) (by omega) with
              ⟨j, read, first, last, earlier, outcome⟩
            refine ⟨j, read, by omega, last, ?_, ?_⟩
            · intro k lower upper
              by_cases this : k = i
              · rw [this]
                exact ⟨there.1, passes⟩
              · exact earlier k (by omega) upper
            · rcases outcome with hit | ⟨stopped, same, found⟩
              · exact Or.inl hit
              · refine Or.inr ⟨stopped, ?_, found⟩
                rw [previousRead] at same ⊢
                rw [if_neg (by omega : ¬j = i)]
                split at same
                · rename_i next
                  have before : j - 1 = i := by omega
                  rw [before]
                  exact same.trans agree
                · exact same
      · have short : ¬0 = direntSize := by decide
        rw [if_neg there, Option.bind_some]
        simp only [if_neg short]
        refine ⟨i, e, le_refl i, inside, ?_, Or.inr ⟨?_, ?_, rfl⟩⟩
        · intro k lower upper
          omega
        · by_cases last : i = entries
          · exact Or.inl last
          · right
            by_contra memory
            apply there
            exact ⟨by simpa using memory, by omega⟩
        · rw [previousRead, if_pos rfl]
          exact fun _ _ _ => rfl

/-- A search ends at the first slot that passes, if there is one. -/
theorem searchLoop {test : Memory → Bool} {verdict : Nat → Bool}
    (ready : DirReady fs dir start entries)
    (decides : ∀ k, k < entries → ∀ e,
        e.AgreeOn (slot fs.disk start k) 0 direntSize → test e = verdict k)
    {rounds : Nat} (inside : i ≤ entries) (enough : entries < i + rounds) :
    (∃ j read, i ≤ j ∧ j < entries ∧ verdict j = true ∧
        (∀ k, i ≤ k → k < j → verdict k = false) ∧
          read.AgreeOn (slot fs.disk start j) 0 direntSize ∧
            fs.searchLoop dir always test rounds i e = some (read, direntSize * j, true)) ∨
      (∀ k, i ≤ k → k < entries → verdict k = false) ∧
        ∃ read,
          fs.searchLoop dir always test rounds i e = some (read, direntSize * entries, false) := by
  rcases @DirReady.searchLoop_any _ _ _ _ _ e always _ _ ready decides _ inside
      enough with
    ⟨j, read, first, last, earlier, outcome⟩
  have before : ∀ k, i ≤ k → k < j → verdict k = false :=
    fun k lower upper => (earlier k lower upper).2
  rcases outcome with ⟨listed, -, chosen, agree, found⟩ | ⟨stopped, -, found⟩
  · exact Or.inl ⟨j, read, first, listed, chosen, before, agree, found⟩
  · have atEnd : j = entries := stopped.resolve_right Bool.noConfusion
    rw [atEnd] at before found
    exact Or.inr ⟨before, read, found⟩

end DirReady

/-- `lookup` comes to the slot of the name. -/
def LookupFinds (disk : Memory) (start entries : Nat) (name : List UInt8)
    (bounce : Nat → Bool) : Prop :=
  ∃ i sector, i < entries ∧
    entryOf (slot disk start i) = some (name, sector) ∧ ∀ k, k ≤ i → bounce k = true

/-- The names in use are terminated, and no name is in use twice. -/
structure SlotsSound (disk : Memory) (start entries : Nat) : Prop where
  terminated :
    ∀ i, i < entries → entryInUse (slot disk start i) = true → Terminated (slot disk start i)
  once :
    ∀ i j name sector other, i < entries → j < entries →
      entryOf (slot disk start i) = some (name, sector) →
        entryOf (slot disk start j) = some (name, other) → i = j

/-- A slot after an entry has been written to it. -/
def writeSlot (disk : Memory) (start i : Nat) (e : Memory) : Memory :=
  disk.splice (start * blockSectorSize + direntSize * i) direntSize e

theorem slot_writeSlot (disk e : Memory) (start i j : Nat) :
    (slot (writeSlot disk start i e) start j).AgreeOn
      (if j = i then e else slot disk start j) 0 direntSize := by
  intro place lower upper
  by_cases this : j = i
  · rw [if_pos this, this, slot, writeSlot, Memory.drop, Memory.splice_apply_add upper]
  · rw [if_neg this, slot, writeSlot, Memory.drop, Memory.splice, if_neg, slot, Memory.drop]
    unfold direntSize at upper ⊢
    omega

theorem entryOf_writeSlot (disk e : Memory) (start i j : Nat) :
    entryOf (slot (writeSlot disk start i e) start j) =
      if j = i then entryOf e else entryOf (slot disk start j) := by
  rw [entryOf_congr (slot_writeSlot disk e start i j)]
  by_cases this : j = i
  · rw [if_pos this, if_pos this]
  · rw [if_neg this, if_neg this]

theorem SlotsSound.congr {disk disk' : Memory} (sound : SlotsSound disk start entries)
    (agree : ∀ j, j < entries → (slot disk' start j).AgreeOn (slot disk start j) 0 direntSize) :
    SlotsSound disk' start entries where
  terminated := by
    intro j inside inUse
    rw [entryInUse_congr (agree j inside)] at inUse
    exact (terminated_congr (agree j inside)).mpr (sound.terminated j inside inUse)
  once := by
    intro j k name sector other first second here there
    rw [entryOf_congr (agree j first)] at here
    rw [entryOf_congr (agree k second)] at there
    exact sound.once j k name sector other first second here there

/-- A slot may get a terminated name that no other slot has. -/
theorem SlotsSound.write {disk : Memory} (sound : SlotsSound disk start entries)
    (i : Nat) (terminated : entryInUse e = true → Terminated e)
    (fresh :
      ∀ name sector, entryOf e = some (name, sector) →
        ∀ j other, j < entries → j ≠ i → entryOf (slot disk start j) ≠ some (name, other)) :
    SlotsSound (writeSlot disk start i e) start entries where
  terminated := by
    intro j inside inUse
    have agree := slot_writeSlot disk e start i j
    rw [terminated_congr agree]
    rw [entryInUse_congr agree] at inUse
    by_cases this : j = i
    · rw [if_pos this] at inUse ⊢
      exact terminated inUse
    · rw [if_neg this] at inUse ⊢
      exact sound.terminated j inside inUse
  once := by
    intro j k name sector other first second here there
    rw [entryOf_writeSlot] at here there
    by_cases thisJ : j = i
    · by_cases thisK : k = i
      · exact thisJ.trans thisK.symm
      · rw [if_pos thisJ] at here
        rw [if_neg thisK] at there
        exact absurd there (fresh name sector here k other second thisK)
    · rw [if_neg thisJ] at here
      by_cases thisK : k = i
      · rw [if_pos thisK] at there
        exact absurd here (fresh name other there j sector first thisJ)
      · rw [if_neg thisK] at there
        exact sound.once j k name sector other first second here there

namespace DirReady

variable {handle : Dir} {name : List UInt8}

/-- Writing a slot, with memory or without. -/
theorem writeSlot_any (ready : DirReady fs dir start entries) (e : Memory) :
    fs.inodeWriteAt dir memory e direntSize (direntSize * i) =
      if memory = true ∧ i < entries then
        some (fs.setDisk (writeSlot fs.disk start i e), direntSize)
      else some (fs, 0) := by
  rcases ready.inode with ⟨found, here, allowed, place, length, within⟩
  rw [Fs.inodeWriteAt_moved here allowed within, movedCount_entry length, place]
  by_cases there : memory = true ∧ i < entries
  · rw [if_pos there, if_pos there, writeSlot]
  · rw [if_neg there, if_neg there, Memory.splice_zero]
    rfl

/-- Writing a slot, or past the last one. -/
theorem write (ready : DirReady fs dir start entries) (e : Memory) :
    fs.inodeWriteAt dir true e direntSize (direntSize * i) =
      if i < entries then
        some (fs.setDisk (writeSlot fs.disk start i e), direntSize)
      else some (fs, 0) := by
  simpa only [true_and] using @writeSlot_any _ _ _ _ i true ready e

/-- `lookup` finds the name, or it gives up and the name is in no slot that it
can come to. -/
theorem lookup_any (ready : DirReady fs handle.inode start entries)
    (sound : SlotsSound fs.disk start entries) (text : 0 ∉ name) (bounce : Nat → Bool) :
    (∃ i sector read, i < entries ∧
        entryOf (slot fs.disk start i) = some (name, sector) ∧
          (∀ k, k ≤ i → bounce k = true) ∧
            read.AgreeOn (slot fs.disk start i) 0 direntSize ∧
              fs.lookup handle name bounce = some (some (read, direntSize * i))) ∨
      (¬LookupFinds fs.disk start entries name bounce ∧
        fs.lookup handle name bounce = some none) := by
  let verdict : Nat → Bool := fun k =>
    (entryOf (slot fs.disk start k)).any (·.1 = name)
  have chosen :
      ∀ k, verdict k = true ↔ ∃ sector, entryOf (slot fs.disk start k) = some (name, sector) := by
    intro k
    rw [Option.any_eq_true]
    constructor
    · intro found
      rcases found with ⟨⟨other, sector⟩, found, same⟩
      have sameName : other = name := of_decide_eq_true same
      rw [found, sameName]
      exact ⟨sector, rfl⟩
    · intro found
      rcases found with ⟨sector, found⟩
      exact ⟨_, found, by simp⟩
  have decides : ∀ k, k < entries → ∀ e,
        e.AgreeOn (slot fs.disk start k) 0 direntSize →
          (entryInUse e && sameName name e 4) = verdict k := by
    intro k inside e agree
    have terminated : entryInUse e = true → Terminated e := by
      rw [entryInUse_congr agree, terminated_congr agree]
      exact sound.terminated k inside
    apply Bool.eq_iff_iff.mpr
    rw [lookupTest_iff text terminated, entryOf_congr agree, chosen]
  have enough : entries < 0 + fs.searchRounds handle.inode := by
    rw [ready.searchRounds]
    omega
  rcases
    @DirReady.searchLoop_any _ _ _ _ _ fs.stack bounce _ _ ready decides _
      (Nat.zero_le entries) enough with
    ⟨j, read, -, -, earlier, outcome⟩
  rcases outcome with ⟨listed, memory, hit, agree, found⟩ | ⟨stopped, -, found⟩
  · left
    rcases (chosen j).mp hit with ⟨sector, here⟩
    refine ⟨j, sector, read, listed, here, ?_, agree, ?_⟩
    · intro k upTo
      by_cases last : k = j
      · rw [last]
        exact memory
      · exact (earlier k (Nat.zero_le k) (by omega)).1
    · rw [Fs.lookup, found, Option.map_some]
  · right
    constructor
    · intro finds
      rcases finds with ⟨i, sector, listed, here, memory⟩
      have hit := (chosen i).mpr ⟨sector, here⟩
      by_cases before : i < j
      · rw [(earlier i (Nat.zero_le i) before).2] at hit
        cases hit
      · rcases stopped with last | failed
        · omega
        · rw [memory j (by omega)] at failed
          cases failed
    · rw [Fs.lookup, found, Option.map_some]

/-- `lookup` finds the slot of a name. -/
theorem lookup (ready : DirReady fs handle.inode start entries)
    (sound : SlotsSound fs.disk start entries) (text : 0 ∉ name) :
    (∃ i sector read, i < entries ∧
        entryOf (slot fs.disk start i) = some (name, sector) ∧
          read.AgreeOn (slot fs.disk start i) 0 direntSize ∧
            fs.lookup handle name always = some (some (read, direntSize * i))) ∨
      (∀ i sector, i < entries →
          entryOf (slot fs.disk start i) ≠ some (name, sector)) ∧
        fs.lookup handle name always = some none := by
  rcases ready.lookup_any sound text always with
    ⟨i, sector, read, inside, here, -, agree, found⟩ | ⟨missing, found⟩
  · exact Or.inl ⟨i, sector, read, inside, here, agree, found⟩
  · refine Or.inr ⟨fun i sector inside here => ?_, found⟩
    exact missing ⟨i, sector, inside, here, fun _ _ => rfl⟩

/-- `dir_add` writes an entry to the first free slot, or changes nothing: when
the name is not valid, when it is in use or when all slots are. -/
theorem dirAdd (ready : DirReady fs handle.inode start entries)
    (sound : SlotsSound fs.disk start entries) (text : 0 ∉ name)
    {inodeSector : Nat} (small : inodeSector < unsignedModulus) :
    ((name = [] ∨ nameMax < name.length ∨
          (∃ i sector, i < entries ∧ entryOf (slot fs.disk start i) = some (name, sector)) ∨
          ∀ i, i < entries → entryOf (slot fs.disk start i) ≠ none) ∧
        fs.dirAdd handle name inodeSector .plenty = some (fs, false)) ∨
      (name ≠ [] ∧ name.length ≤ nameMax ∧
          ∀ i sector, i < entries → entryOf (slot fs.disk start i) ≠ some (name, sector)) ∧
        ∃ i e, i < entries ∧ entryOf (slot fs.disk start i) = none ∧
          (entryOf e = some (name, inodeSector) ∧ Terminated e) ∧
            fs.dirAdd handle name inodeSector .plenty =
              some (fs.setDisk (writeSlot fs.disk start i e), true) := by
  unfold Fs.dirAdd
  by_cases invalid : name = [] ∨ name.length > nameMax
  · left
    refine ⟨?_, if_pos invalid⟩
    rcases invalid with empty | long
    · exact Or.inl empty
    · exact Or.inr (Or.inl long)
  · rw [if_neg invalid]
    have valid : name ≠ [] ∧ name.length ≤ nameMax := by
      rw [not_or, Nat.not_lt] at invalid
      exact invalid
    rcases ready.lookup sound text with ⟨i, sector, read, inside, here, -, found⟩ | ⟨absent, found⟩
    · left
      refine ⟨Or.inr (Or.inr (Or.inl ⟨i, sector, inside, here⟩)), ?_⟩
      show (fs.lookup handle name always).bind _ = _
      rw [found, Option.bind_some]
    · let verdict : Nat → Bool := fun k =>
        (entryOf (slot fs.disk start k)).isNone
      have decides : ∀ k, k < entries → ∀ e,
            e.AgreeOn (slot fs.disk start k) 0 direntSize →
              (!entryInUse e) = verdict k := by
        intro k inside e agree
        rw [entryInUse_congr agree]
        show _ = (entryOf (slot fs.disk start k)).isNone
        rw [entryOf]
        cases entryInUse (slot fs.disk start k) <;> rfl
      have enough : entries < 0 + fs.searchRounds handle.inode := by
        rw [ready.searchRounds]
        omega
      have step : (fs.lookup handle name Mallocs.plenty.lookup) = some none := found
      rw [step, Option.bind_some]
      rcases ready.searchLoop decides (Nat.zero_le entries) enough with
        ⟨j, read, -, inside, free, -, agree, search⟩ | ⟨used, read, search⟩
      · right
        have entry := entryOf_newEntry read text valid.2 small
        refine ⟨⟨valid.1, valid.2, absent⟩, j, _, inside,
            Option.isNone_iff_eq_none.mp free, entry, ?_⟩
        have slotSearch :
            fs.searchLoop handle.inode Mallocs.plenty.slot
                (fun e => !entryInUse e) (fs.searchRounds handle.inode) 0
                fs.stack =
              some (read, direntSize * j, true) :=
          search
        have written := @write _ _ _ _ j ready (newEntry read name inodeSector)
        rw [if_pos inside] at written
        simp only [slotSearch, Option.bind_some]
        show Option.map _ (fs.inodeWriteAt handle.inode true _ _ _) = _
        rw [written, Option.map_some]
        simp
      · left
        constructor
        · right
          right
          right
          intro k inside free
          have taken := used k (Nat.zero_le k) inside
          simp [verdict, free] at taken
        · have slotSearch :
              fs.searchLoop handle.inode Mallocs.plenty.slot
                  (fun e => !entryInUse e) (fs.searchRounds handle.inode) 0
                  fs.stack =
                some (read, direntSize * entries, false) :=
            search
          have written := @write _ _ _ _ entries ready (newEntry read name inodeSector)
          rw [if_neg (Nat.lt_irrefl entries)] at written
          simp only [slotSearch, Option.bind_some]
          show Option.map _ (fs.inodeWriteAt handle.inode true _ _ _) = _
          rw [written, Option.map_some]
          rfl

theorem inodeOpen (ready : DirReady fs handle.inode start entries)
    {sector : Nat} {after : Fs} {pointer : Option Nat}
    (opened : fs.inodeOpen sector true = some (after, pointer)) :
    DirReady after handle.inode start entries := by
  rcases ready.inode with ⟨found, here, allowed, place, length, within⟩
  rcases Fs.inodeOpen_eq opened with ⟨-, size, -, -, -, -, kept⟩
  rcases kept handle.inode found here with ⟨later, there, data, denied⟩
  refine ⟨later, there, denied.trans allowed, ?_, ?_, ?_⟩
  · rw [data, place]
  · rw [data, length]
  · rw [data, size]
    exact within

/-- `dir_lookup` opens the inode that the slot of the name says. -/
theorem dirLookup (ready : DirReady fs handle.inode start entries)
    (sound : SlotsSound fs.disk start entries) (text : 0 ∉ name) :
    (∃ i sector, i < entries ∧
        entryOf (slot fs.disk start i) = some (name, sector) ∧
          fs.dirLookup handle name .plenty = fs.inodeOpen sector true) ∨
      (∀ i sector, i < entries →
          entryOf (slot fs.disk start i) ≠ some (name, sector)) ∧
        fs.dirLookup handle name .plenty = some (fs, none) := by
  rcases ready.lookup sound text with
    ⟨i, sector, read, inside, here, agree, found⟩ | ⟨absent, found⟩
  · left
    refine ⟨i, sector, inside, here, ?_⟩
    have same := entrySector_of_entryOf agree here
    have step : fs.lookup handle name Mallocs.plenty.lookup = _ := found
    rw [Fs.dirLookup, step, Option.bind_some]
    show fs.inodeOpen (entrySector read) true = _
    rw [same]
  · right
    refine ⟨absent, ?_⟩
    have step : fs.lookup handle name Mallocs.plenty.lookup = _ := found
    rw [Fs.dirLookup, step, Option.bind_some]

/-- `dir_remove` clears the slot of the name and removes the inode. -/
theorem dirRemove (ready : DirReady fs handle.inode start entries)
    (sound : SlotsSound fs.disk start entries) (text : 0 ∉ name) :
    (∃ i sector e, i < entries ∧
        entryOf (slot fs.disk start i) = some (name, sector) ∧
          entryOf e = none ∧
            fs.dirRemove handle name .plenty = (fs.inodeOpen sector true).bind fun opened =>
                (((opened.1.setDisk
                        (writeSlot opened.1.disk start i e)).inodeRemove
                      sector).inodeClose (some sector) always).map
                  (·, true)) ∨
      (∀ i sector, i < entries →
          entryOf (slot fs.disk start i) ≠ some (name, sector)) ∧
        fs.dirRemove handle name .plenty = some (fs, false) := by
  rcases ready.lookup sound text with
    ⟨i, sector, read, inside, here, agree, found⟩ | ⟨absent, found⟩
  · left
    refine ⟨i, sector, read.fill 19 1 0, inside, here, entryOf_fill read, ?_⟩
    have same := entrySector_of_entryOf agree here
    have step : fs.lookup handle name Mallocs.plenty.lookup = _ := found
    rw [Fs.dirRemove, step, Option.bind_some]
    show (fs.inodeOpen (entrySector read) true).bind _ = _
    rw [same]
    cases opening : fs.inodeOpen sector true with
    | none => rfl
    | some result =>
        rcases result with ⟨opened, pointer⟩
        rcases Fs.inodeOpen_eq opening with ⟨pointed, -⟩
        have written := @write _ _ _ _ i (ready.inodeOpen opening) (read.fill 19 1 0)
        rw [if_pos inside] at written
        rw [pointed, Option.bind_some, Option.bind_some]
        show (opened.inodeWriteAt handle.inode true _ _ _).bind _ = _
        rw [written, Option.bind_some]
        simp
        rfl
  · right
    refine ⟨absent, ?_⟩
    have step : fs.lookup handle name Mallocs.plenty.lookup = _ := found
    rw [Fs.dirRemove, step, Option.bind_some]

/-- `dir_readdir` goes on to the first entry in use, as a search does. -/
theorem readdirLoop_eq (ready : DirReady fs dir start entries)
    {rounds : Nat} (inside : i ≤ entries) (e : Memory) :
    fs.readdirLoop always rounds ⟨dir, direntSize * i⟩ e =
      (fs.searchLoop dir always entryInUse rounds i e).map fun
        | (e, ofs, true) =>
            (⟨dir, ofs + direntSize⟩, some (entryName e))
        | (_, ofs, false) => (⟨dir, ofs⟩, none) := by
  induction rounds generalizing i e with
  | zero => rfl
  | succ rounds inductionHypothesis =>
      rw [Fs.searchLoop, Fs.readdirLoop]
      simp only [ready.readSlot, always, true_and]
      by_cases there : i < entries
      · simp only [if_pos there, Option.bind_some, if_true]
        cases entryInUse (e.splice 0 direntSize (slot fs.disk start i)) with
        | true => rfl
        | false =>
            have next : direntSize * i + direntSize = direntSize * (i + 1) := by
              rw [Nat.mul_succ]
            simp only [Bool.false_eq_true, if_false, next]
            exact inductionHypothesis (by omega) _
      · have short : ¬0 = direntSize := by decide
        simp only [if_neg there, Option.bind_some, if_neg short, Option.map_some]

/-- `dir_readdir` gives the name in the first slot in use from its position
on. -/
theorem dirReaddir (ready : DirReady fs dir start entries) (inside : i ≤ entries) :
    (∃ j name sector, i ≤ j ∧ j < entries ∧
        entryOf (slot fs.disk start j) = some (name, sector) ∧
          (∀ k, i ≤ k → k < j → entryOf (slot fs.disk start k) = none) ∧
            fs.dirReaddir ⟨dir, direntSize * i⟩ always =
              some (⟨dir, direntSize * (j + 1)⟩, some name)) ∨
      (∀ k, i ≤ k → k < entries → entryOf (slot fs.disk start k) = none) ∧
        fs.dirReaddir ⟨dir, direntSize * i⟩ always = some (⟨dir, direntSize * entries⟩, none) := by
  have decides : ∀ k, k < entries → ∀ e,
        e.AgreeOn (slot fs.disk start k) 0 direntSize →
          entryInUse e = entryInUse (slot fs.disk start k) :=
    fun k _ e agree => entryInUse_congr agree
  have empty :
      ∀ k, entryInUse (slot fs.disk start k) = false →
        entryOf (slot fs.disk start k) = none := by
    intro k free
    rw [entryOf, free]
    rfl
  have enough : entries < i + fs.searchRounds dir := by
    rw [ready.searchRounds]
    omega
  rw [Fs.dirReaddir, ready.readdirLoop_eq inside fs.stack]
  rcases @searchLoop _ _ _ _ _ fs.stack _ _ ready decides _ inside enough with
    ⟨j, read, lower, upper, chosen, earlier, agree, found⟩ | ⟨absent, read, found⟩
  · left
    refine ⟨j, entryName (slot fs.disk start j), entrySector (slot fs.disk start j),
        lower, upper, ?_, ?_, ?_⟩
    · rw [entryOf, if_pos chosen]
    · intro k first last
      exact empty k (earlier k first last)
    · rw [found, Option.map_some]
      simp only
      rw [entryName_congr agree, Nat.mul_succ]
  · right
    refine ⟨fun k first last => empty k (absent k first last), ?_⟩
    rw [found, Option.map_some]

end DirReady

end Search

end CS162.Filesys

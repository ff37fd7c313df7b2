import CS162.Filesys.Filesys
import CS162.Foundation.Registry

/-!
# Counting the references to open inodes

Every open inode has one record, whose counts are those of the pointers to it
and of the file handles that deny writes to it.
-/

namespace CS162.Filesys

open CS162.Foundation
open CS162.Kernel

/-- References to inodes with one more, unless the pointer is null. -/
def hold (refs : Nat → Nat) (pointer : Option Nat) : Nat → Nat := fun sector =>
  refs sector + if pointer = some sector then 1 else 0

theorem hold_none (refs : Nat → Nat) : hold refs none = refs := by
  funext sector
  simp [hold]

theorem hold_comm (refs : Nat → Nat) (first second : Option Nat) :
    hold (hold refs first) second = hold (hold refs second) first := by
  funext sector
  unfold hold
  omega

theorem hold_self (refs : Nat → Nat) (sector : Nat) :
    hold refs (some sector) sector = refs sector + 1 := by
  rw [hold, if_pos rfl]

theorem hold_of_ne (refs : Nat → Nat) {sector other : Nat} (different : other ≠ sector) :
    hold refs (some sector) other = refs other := by
  have apart : some sector ≠ some other := by
    intro same
    exact different (Option.some.inj same).symm
  rw [hold, if_neg apart, Nat.add_zero]

theorem le_hold (refs : Nat → Nat) (pointer : Option Nat) (sector : Nat) :
    refs sector ≤ hold refs pointer sector :=
  Nat.le_add_right _ _

/-- The open inodes are those with references, and their counts are right; the
rest of each is good. -/
def OpenSound (openInodes : List Inode) (refs denies : Nat → Nat)
    (good : Nat → Bool → InodeDisk → Prop) : Prop :=
  Registry Inode.sector openInodes (fun sector => 0 < refs sector)
    fun inode =>
      inode.openCnt = refs inode.sector ∧
        inode.denyWriteCnt = denies inode.sector ∧ good inode.sector inode.removed inode.data

namespace OpenSound

variable {fs : Fs} {refs refs' denies denies' : Nat → Nat} {sector : Nat}
variable {good good' : Nat → Bool → InodeDisk → Prop}

theorem mono (sound : OpenSound fs.openInodes refs denies good)
    (weaker :
      ∀ other removed data, 0 < refs other → good other removed data → good' other removed data) :
    OpenSound fs.openInodes refs denies good' := by
  apply Registry.mono sound
  · intro wanted
    rfl
  · intro inode member fine
    have here := (sound.present_iff inode.sector).mpr ⟨inode, member, rfl⟩
    exact ⟨fine.1, fine.2.1, weaker _ _ _ here fine.2.2⟩

/-- A pointer leads to its inode. -/
theorem find (sound : OpenSound fs.openInodes refs denies good) (here : 0 < refs sector) : ∃ inode,
      fs.findInode sector = some inode ∧ inode.sector = sector ∧
        inode.openCnt = refs sector ∧ inode.denyWriteCnt = denies sector ∧
          good sector inode.removed inode.data := by
  rcases sound.find?_of_present here with ⟨inode, found, rfl, fine⟩
  exact ⟨inode, found, rfl, fine⟩

theorem find_none (sound : OpenSound fs.openInodes refs denies good)
    (closed : refs sector = 0) : fs.findInode sector = none := by
  apply sound.find?_eq_none_iff.mpr
  omega

/-- The counts of one inode change, and its `removed` flag perhaps. -/
theorem update (sound : OpenSound fs.openInodes refs denies good) (change : Inode → Inode)
    (keeps : ∀ inode, (change inode).sector = inode.sector)
    (present : 0 < refs sector ∧ 0 < refs' sector)
    (changed :
      ∀ inode, inode.openCnt = refs sector →
        inode.denyWriteCnt = denies sector →
          good sector inode.removed inode.data →
            (change inode).openCnt = refs' sector ∧
              (change inode).denyWriteCnt = denies' sector ∧
                good' sector (change inode).removed (change inode).data)
    (others :
      ∀ other, other ≠ sector →
        refs' other = refs other ∧ denies' other = denies other ∧
          ∀ removed data, good other removed data → good' other removed data) :
    OpenSound (fs.updateInode sector change).openInodes refs' denies'
      good' := by
  have modified :
      Registry Inode.sector (fs.updateInode sector change).openInodes
        (fun other => 0 < refs other)
        (fun inode =>
          inode.openCnt = refs' inode.sector ∧
            inode.denyWriteCnt = denies' inode.sector ∧
              good' inode.sector inode.removed inode.data) := by
    apply Registry.modify sound change
    · intro inode same
      rw [keeps, same]
    · intro inode fine same
      rw [keeps, same]
      rw [same] at fine
      exact changed inode fine.1 fine.2.1 fine.2.2
    · intro inode fine different
      rcases others inode.sector different with ⟨sameRefs, sameDenies, kept⟩
      exact ⟨fine.1.trans sameRefs.symm, fine.2.1.trans sameDenies.symm, kept _ _ fine.2.2⟩
  apply Registry.mono modified
  · intro wanted
    by_cases this : wanted = sector
    · rw [this]
      simp only [present]
    · rw [(others wanted this).1]
  · intro inode member fine
    exact fine

/-- An inode that was not open has been read. -/
theorem push (sound : OpenSound fs.openInodes refs denies good)
    (closed : refs sector = 0) (allowed : denies sector = 0)
    {data : InodeDisk} (fresh : good sector false data) :
    OpenSound (fs.pushInode sector data).openInodes
      (hold refs (some sector)) denies good := by
  have absent : ¬0 < refs sector := by omega
  have grown :
      Registry Inode.sector (fs.pushInode sector data).openInodes
        (fun other => other = sector ∨ 0 < refs other)
        (fun inode =>
          inode.openCnt = hold refs (some sector) inode.sector ∧
            inode.denyWriteCnt = denies inode.sector ∧
              good inode.sector inode.removed inode.data) := by
    apply Registry.cons sound _ absent
    · have count := hold_self refs sector
      rw [closed] at count
      exact ⟨count.symm, allowed.symm, fresh⟩
    · intro other fine different
      rw [hold_of_ne refs different]
      exact fine
  apply Registry.mono grown
  · intro wanted
    unfold hold
    by_cases this : wanted = sector
    · simp [this]
    · have apart : some sector ≠ some wanted := by
        intro same
        exact this (Option.some.inj same).symm
      rw [if_neg apart]
      simp [this]
  · intro inode member fine
    exact fine

/-- The last pointer to an inode is gone. -/
theorem drop (sound : OpenSound fs.openInodes (hold refs (some sector)) denies good)
    (last : refs sector = 0) :
    OpenSound
      (fs.openInodes.filter fun inode => inode.sector ≠ sector) refs denies
      good := by
  have fewer := Registry.filter sound sector fun inode fine different => by
    rw [hold_of_ne refs different] at fine
    exact fine
  apply Registry.mono fewer
  · intro wanted
    by_cases this : wanted = sector
    · rw [this, last]
      simp
    · rw [hold_of_ne refs this]
      simp [this]
  · intro inode member fine
    exact fine

/-- The references to one inode become more or fewer. -/
theorem recount (sound : OpenSound fs.openInodes refs denies good)
    (count : Nat → Nat) (before : 0 < refs sector) (after : 0 < refs' sector)
    (counted : count (refs sector) = refs' sector)
    (others : ∀ other, other ≠ sector → refs' other = refs other) :
    OpenSound
      (fs.updateInode sector fun inode =>
        { inode with openCnt := count inode.openCnt }).openInodes
      refs' denies good := by
  apply sound.update
  · intro inode
    rfl
  · exact ⟨before, after⟩
  · intro inode sameRefs sameDenies fine
    refine ⟨?_, sameDenies, fine⟩
    rw [← counted, ← sameRefs]
  · intro other different
    exact ⟨others other different, rfl, fun _ _ fine => fine⟩

theorem inodeReopen (sound : OpenSound fs.openInodes refs denies good) (here : 0 < refs sector) :
    OpenSound (fs.inodeReopen sector).openInodes (hold refs (some sector))
      denies good := by
  apply sound.recount (· + 1) here
  · exact Nat.lt_of_lt_of_le here (le_hold refs (some sector) sector)
  · exact (hold_self refs sector).symm
  · intro other different
    exact hold_of_ne refs different

/-- `inode_open` gives a reference to the inode. -/
theorem inodeOpen (sound : OpenSound fs.openInodes refs denies good)
    (bounded : ∀ other, denies other ≤ refs other)
    (fresh : refs sector = 0 → good sector false (diskInode fs.disk sector))
    {memory : Bool} {after : Fs} {pointer : Option Nat}
    (opened : fs.inodeOpen sector memory = some (after, pointer)) :
    OpenSound after.openInodes (hold refs pointer) denies good ∧
      after.freeMapFile = fs.freeMapFile ∧
        (pointer = some sector ∨ pointer = none ∧ memory = false) := by
  unfold Fs.inodeOpen at opened
  rcases Nat.eq_zero_or_pos (refs sector) with closed | here
  · rw [sound.find_none closed] at opened
    cases memory with
    | false =>
        cases opened
        rw [hold_none]
        exact ⟨sound, rfl, Or.inr ⟨rfl, rfl⟩⟩
    | true =>
        simp only [if_true, Option.map_eq_some_iff, Fs.blockRead,
          Option.ite_none_right_eq_some] at opened
        rcases opened with ⟨buffer, ⟨onDevice, read⟩, result⟩
        cases read
        cases result
        have allowed := bounded sector
        rw [closed] at allowed
        exact ⟨sound.push closed (Nat.le_zero.mp allowed) (fresh closed), rfl, Or.inl rfl⟩
  · rcases sound.find here with ⟨inode, found, rest⟩
    rw [found] at opened
    cases opened
    exact ⟨sound.inodeReopen here, rfl, Or.inl rfl⟩

end OpenSound

/-- At most the disk has changed. -/
def OnlyDisk (fs after : Fs) : Prop := ∃ disk, after = { fs with disk := disk }

namespace OnlyDisk

variable {fs middle after : Fs}

theorem refl (fs : Fs) : OnlyDisk fs fs := ⟨fs.disk, rfl⟩

theorem trans (first : OnlyDisk fs middle) (second : OnlyDisk middle after) :
    OnlyDisk fs after := by
  rcases first with ⟨_, rfl⟩
  rcases second with ⟨disk, rfl⟩
  exact ⟨disk, rfl⟩

theorem blockWrite {sector : Nat} {buffer : Memory}
    (written : fs.blockWrite sector buffer = some after) : OnlyDisk fs after := by
  unfold Fs.blockWrite at written
  split at written
  · cases written
    exact ⟨_, rfl⟩
  · cases written

theorem writeChunk {sectorIdx offset chunkSize : Nat} {buffer : Memory}
    (written : fs.writeChunk sectorIdx offset chunkSize buffer = some after) :
    OnlyDisk fs after := by
  unfold Fs.writeChunk at written
  split at written
  · exact blockWrite written
  · rcases Option.bind_eq_some_iff.mp written with ⟨bounce, read, rest⟩
    exact blockWrite rest

theorem inodeWriteLoop {data : InodeDisk} {bounce : Bool} {buffer : Memory}
    {rounds offset moved count : Nat} {size : Int}
    (written :
      Fs.inodeWriteLoop data bounce buffer rounds fs size offset moved = some (after, count)) :
    OnlyDisk fs after := by
  induction rounds generalizing fs size offset moved with
  | zero =>
      cases written
      exact refl _
  | succ rounds inductionHypothesis =>
      simp only [Fs.inodeWriteLoop] at written
      split at written
      · cases written
        exact refl _
      · split at written
        · cases written
          exact refl _
        · rcases Option.bind_eq_some_iff.mp written with ⟨middle, chunk, rest⟩
          exact (writeChunk chunk).trans (inductionHypothesis rest)

theorem inodeWriteAt {inode count offset : Nat} {bounce : Bool} {buffer : Memory} {size : Int}
    (written : fs.inodeWriteAt inode bounce buffer size offset = some (after, count)) :
    OnlyDisk fs after := by
  rcases Option.bind_eq_some_iff.mp written with ⟨found, here, rest⟩
  split at rest
  · cases rest
    exact refl _
  · exact inodeWriteLoop rest

theorem bitmapWrite {file : Nat} {bounce success : Bool}
    (written : fs.bitmapWrite file bounce = some (after, success)) :
    OnlyDisk fs after := by
  rcases Option.map_eq_some_iff.mp written with ⟨⟨next, count⟩, moved, result⟩
  cases result
  exact inodeWriteAt moved

theorem writeZeros {start i remaining : Nat}
    (written : fs.writeZeros start i remaining = some after) : OnlyDisk fs after := by
  induction remaining generalizing fs i with
  | zero =>
      cases written
      exact refl _
  | succ remaining inductionHypothesis =>
      rcases Option.bind_eq_some_iff.mp written with ⟨middle, first, rest⟩
      exact (blockWrite first).trans (inductionHypothesis rest)

end OnlyDisk

section Steps

variable {fs after : Fs}

/-- What `free_map_create` has done when it returns. -/
theorem freeMapCreate_steps (created : fs.freeMapCreate = some after) : ∃ stored opened,
      fs.inodeCreate freeMapSector (byteCnt fs.freeMap.bitCnt) = some (stored, true) ∧
        stored.openMapFile = some opened ∧
          opened.bitmapWrite freeMapSector true = some (after, true) := by
  rcases Option.bind_eq_some_iff.mp created with ⟨⟨stored, success⟩, creation, rest⟩
  cases success with
  | false => cases rest
  | true =>
      rcases Option.bind_eq_some_iff.mp rest with ⟨opened, opening, last⟩
      rcases Option.bind_eq_some_iff.mp last with ⟨⟨written, success⟩, writing, done⟩
      cases success with
      | false => cases done
      | true =>
          cases done
          exact ⟨stored, opened, creation, opening, writing⟩

/-- What `do_format` has done when it returns. -/
theorem doFormat_steps (formatted : fs.doFormat = some after) : ∃ made next,
      fs.freeMapCreate = some made ∧ made.dirCreate rootDirSector 16 = some (next, true) ∧
        next.freeMapClose = some after := by
  rcases Option.bind_eq_some_iff.mp formatted with ⟨made, creation, rest⟩
  rcases Option.bind_eq_some_iff.mp rest with ⟨⟨next, success⟩, root, closing⟩
  cases success with
  | false => cases closing
  | true => exact ⟨made, next, creation, root, closing⟩

end Steps

/-- The functions that move bytes leave the open inodes alone. -/
structure SameInodes (fs after : Fs) : Prop where
  openInodes : after.openInodes = fs.openInodes
  freeMapFile : after.freeMapFile = fs.freeMapFile

namespace SameInodes

variable {fs middle after : Fs}

theorem refl (fs : Fs) : SameInodes fs fs where
  openInodes := rfl
  freeMapFile := rfl

theorem trans (first : SameInodes fs middle) (second : SameInodes middle after) :
    SameInodes fs after where
  openInodes := second.openInodes.trans first.openInodes
  freeMapFile := second.freeMapFile.trans first.freeMapFile

theorem of_onlyDisk (only : OnlyDisk fs after) : SameInodes fs after := by
  rcases only with ⟨_, rfl⟩
  exact ⟨rfl, rfl⟩

theorem setMap (fs : Fs) (map : Bitmap) : SameInodes fs (fs.setMap map) where
  openInodes := rfl
  freeMapFile := rfl

theorem freeMapRelease {sector cnt : Nat} {bounce : Bool}
    (released : fs.freeMapRelease sector cnt bounce = some after) :
    SameInodes fs after := by
  unfold Fs.freeMapRelease at released
  split at released
  · rcases Option.bind_eq_some_iff.mp released with ⟨map, set, rest⟩
    rcases Option.bind_eq_some_iff.mp rest with ⟨file, here, last⟩
    rcases Option.map_eq_some_iff.mp last with ⟨⟨next, success⟩, written, result⟩
    cases result
    exact (setMap fs map).trans (of_onlyDisk (.bitmapWrite written))
  · cases released

theorem freeMapAllocate {cnt : Nat} {sector : Option Nat}
    (allocated : fs.freeMapAllocate cnt = some (after, sector)) :
    SameInodes fs after := by
  rcases Option.bind_eq_some_iff.mp allocated with ⟨⟨found, map⟩, scanned, rest⟩
  cases found with
  | none =>
      cases rest
      exact setMap fs map
  | some found =>
      simp only at rest
      split at rest
      · cases rest
        exact setMap fs map
      · rcases Option.bind_eq_some_iff.mp rest with ⟨⟨next, success⟩, written, last⟩
        have same := (setMap fs map).trans (of_onlyDisk (.bitmapWrite written))
        cases success with
        | true =>
            cases last
            exact same
        | false =>
            rcases Option.map_eq_some_iff.mp last with ⟨cleared, set, result⟩
            cases result
            exact same.trans (setMap next cleared)

theorem inodeCreate {sector : Nat} {length : Int} {success : Bool}
    (created : fs.inodeCreate sector length = some (after, success)) :
    SameInodes fs after := by
  unfold Fs.inodeCreate at created
  split at created
  · cases created
  · rcases Option.bind_eq_some_iff.mp created with ⟨⟨middle, found⟩, allocated, rest⟩
    have same := freeMapAllocate allocated
    cases found with
    | none =>
        cases rest
        exact same
    | some start =>
        rcases Option.bind_eq_some_iff.mp rest with ⟨next, written, last⟩
        rcases Option.map_eq_some_iff.mp last with ⟨final, cleared, result⟩
        cases result
        exact same.trans (of_onlyDisk ((OnlyDisk.blockWrite written).trans (.writeZeros cleared)))

end SameInodes

namespace OpenSound

variable {fs after : Fs} {refs denies : Nat → Nat} {pointer : Option Nat}
variable {good : Nat → Bool → InodeDisk → Prop} {bounce : Nat → Bool}

/-- `inode_close` gives a reference up. -/
theorem inodeClose
    (sound : OpenSound fs.openInodes (hold refs pointer) denies good)
    (closed : fs.inodeClose pointer bounce = some after) :
    OpenSound after.openInodes refs denies good ∧
      after.freeMapFile = fs.freeMapFile := by
  cases pointer with
  | none =>
      cases closed
      rw [hold_none] at sound
      exact ⟨sound, rfl⟩
  | some sector =>
      have held := hold_self refs sector
      have here : 0 < hold refs (some sector) sector := by omega
      rcases sound.find here with ⟨inode, found, same, count, rest⟩
      simp only [Fs.inodeClose, found, Option.bind_some, count, held, Nat.add_sub_cancel] at closed
      by_cases last : refs sector = 0
      · rw [if_pos last] at closed
        have dropped := sound.drop last
        cases removed : inode.removed with
        | false =>
            rw [removed] at closed
            cases closed
            exact ⟨dropped, rfl⟩
        | true =>
            rw [removed, if_pos rfl] at closed
            rcases Option.bind_eq_some_iff.mp closed with ⟨middle, first, second⟩
            have unchanged :=
              (SameInodes.freeMapRelease first).trans (SameInodes.freeMapRelease second)
            rw [unchanged.openInodes, unchanged.freeMapFile]
            exact ⟨dropped, rfl⟩
      · rw [if_neg last] at closed
        cases closed
        refine ⟨?_, rfl⟩
        apply sound.recount (· - 1) here (Nat.pos_of_ne_zero last)
        · show hold refs (some sector) sector - 1 = refs sector
          omega
        · intro other different
          exact (hold_of_ne refs different).symm

/-- `dir_open` and `file_open` pass the reference on to a handle, or give it
up. -/
theorem openHandle {Handle : Type} {handle : Nat → Handle} (inode : Handle → Nat)
    (keeps : ∀ sector, inode (handle sector) = sector)
    (sound : OpenSound fs.openInodes (hold refs pointer) denies good)
    {memory : Bool} {result : Option Handle}
    (opened : fs.openHandle pointer memory bounce handle = some (after, result)) :
    OpenSound after.openInodes (hold refs (result.map inode)) denies good ∧
      after.freeMapFile = fs.freeMapFile := by
  have failed :
      (fs.inodeClose pointer bounce).map (·, (none : Option Handle)) = some (after, result) →
        OpenSound after.openInodes (hold refs (result.map inode)) denies
            good ∧
          after.freeMapFile = fs.freeMapFile := by
    intro closing
    rcases Option.map_eq_some_iff.mp closing with ⟨next, closed, same⟩
    cases same
    have closing := sound.inodeClose closed
    rw [Option.map_none, hold_none]
    exact closing
  cases pointer with
  | none =>
      exact failed opened
  | some sector =>
      cases memory with
      | false => exact failed opened
      | true =>
          cases opened
          rw [Option.map_some, keeps]
          exact ⟨sound, rfl⟩

theorem dirOpen
    (sound : OpenSound fs.openInodes (hold refs pointer) denies good)
    {memory : Bool} {dir : Option Dir}
    (opened : fs.dirOpen pointer memory bounce = some (after, dir)) :
    OpenSound after.openInodes (hold refs (dir.map Dir.inode)) denies good ∧
      after.freeMapFile = fs.freeMapFile :=
  sound.openHandle _ (fun _ => rfl) opened

theorem fileOpen
    (sound : OpenSound fs.openInodes (hold refs pointer) denies good)
    {memory : Bool} {file : Option File}
    (opened : fs.fileOpen pointer memory bounce = some (after, file)) :
    OpenSound after.openInodes (hold refs (file.map File.inode)) denies
        good ∧
      after.freeMapFile = fs.freeMapFile :=
  sound.openHandle _ (fun _ => rfl) opened

/-- `inode_deny_write`, and `inode_allow_write`, change one count. -/
theorem redeny (sound : OpenSound fs.openInodes refs denies good)
    {sector : Nat} {denies' : Nat → Nat} (here : 0 < refs sector)
    (count : Nat → Nat) (counted : count (denies sector) = denies' sector)
    (others : ∀ other, other ≠ sector → denies' other = denies other) :
    OpenSound
      (fs.updateInode sector fun inode =>
        { inode with denyWriteCnt := count inode.denyWriteCnt }).openInodes
      refs denies' good := by
  apply sound.update
  · intro inode
    rfl
  · exact ⟨here, here⟩
  · intro inode sameRefs sameDenies fine
    refine ⟨sameRefs, ?_, fine⟩
    rw [← counted, ← sameDenies]
  · intro other different
    exact ⟨rfl, others other different, fun _ _ fine => fine⟩

end OpenSound

end CS162.Filesys

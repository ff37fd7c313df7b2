import CS162.Filesys.Filesys
import CS162.Filesys.FilesysSafety

/-!
# Creating, opening and removing files

What the calls of `filesys/filesys.c` do to a sound file system with a root
directory of 16 entries.
-/

namespace CS162.Filesys

open CS162.Foundation
open CS162.Kernel

open FsSound (Undisturbed Taken Created Unlinked)

/-- The size of the root directory. -/
def rootEntries : Nat := 16

/-- The invariant between two calls. -/
def RootSound (fs : Fs) (refs : Nat → Nat) : Prop := FsSound fs rootDirSector rootEntries refs

/-- What `dir_open_root` returns. -/
def rootDir : Dir where
  inode := rootDirSector
  pos := 0

namespace RootSound

variable {fs after : Fs} {refs : Nat → Nat}

/-- The root directory is opened and closed around every call. -/
theorem dirOpenRoot (sound : RootSound fs refs) : ∃ after,
      fs.dirOpenRoot .plenty = some (after, some rootDir) ∧
        RootSound after (hold refs (some rootDirSector)) ∧
          after.deviceSize = fs.deviceSize ∧ after.disk = fs.disk ∧
            after.freeMap = fs.freeMap := by
  rcases FsSound.inodeOpen sound FsSound.ownerDir with ⟨after, opened, held, size, disk, map⟩
  refine ⟨after, ?_, held, size, disk, map⟩
  show (fs.inodeOpen rootDirSector true).bind _ = _
  rw [opened, Option.bind_some]
  rfl

theorem dirClose (sound : RootSound fs (hold refs (some rootDirSector)))
    (mapOpen : 0 < refs freeMapSector) :
    ∃ after,
      fs.dirClose (some rootDir) always = some after ∧
        RootSound after refs ∧ after.deviceSize = fs.deviceSize ∧
          after.disk = fs.disk ∧ after.freeMap = fs.freeMap := by
  have count := hold_self refs rootDirSector
  have here : 0 < hold refs (some rootDirSector) rootDirSector := by omega
  rcases OpenSound.find sound.opens here with ⟨found, there, -, -, -, -, unlinked⟩
  have present : found.removed = false := by
    cases flag : found.removed with
    | false => rfl
    | true => exact absurd rfl (unlinked.mp flag).2.1
  exact FsSound.inodeClose_keep sound mapOpen (Or.inr ⟨found, there, present⟩)

end RootSound

/-- The sector that `free_map_allocate` takes when one is wanted. -/
structure FirstFree (fs : Fs) (sector : Nat) : Prop where
  onDevice : sector < fs.deviceSize
  free : fs.freeMap.bit sector = false
  first : ∀ earlier, earlier < sector → fs.freeMap.bit earlier = true

/-- A sector has been taken for the inode of a new file. -/
structure SectorTaken (fs middle : Fs) (dir entries : Nat) (refs : Nat → Nat)
    (sector : Nat) : Prop where
  first : FirstFree fs sector
  notMap : sector ≠ freeMapSector
  sound : FsSound middle dir entries refs
  undisturbed : Undisturbed fs middle dir entries refs
  taken : Taken middle dir entries refs sector
  bits : ∀ other, middle.freeMap.bit other = if other = sector then true else fs.freeMap.bit other

section Create

variable {fs middle : Fs} {dir entries sector : Nat} {refs : Nat → Nat}
variable {handle : Dir} {name : List UInt8} {size : Int}

/-- The first step of `filesys_create`. -/
theorem allocateOne (sound : FsSound fs dir entries refs) :
    (fs.freeMapAllocate 1 = some (fs, none) ∧
      ∀ place, place < fs.deviceSize → fs.freeMap.bit place = true) ∨
    ∃ middle sector,
      fs.freeMapAllocate 1 = some (middle, some sector) ∧
        SectorTaken fs middle dir entries refs sector := by
  have single : ∀ place, fs.freeMap.Uniform place 1 false ↔ fs.freeMap.bit place = false := by
    intro place
    constructor
    · intro uniform
      exact uniform place (le_refl place) (by omega)
    · intro free other lower upper
      have same : other = place := by omega
      rw [same]
      exact free
  have marked :
      ∀ place, ¬fs.freeMap.Uniform place 1 false →
        fs.freeMap.bit place = true := by
    intro place taken
    rw [single] at taken
    simpa using taken
  rcases sound.freeMapAllocate 1 with
    ⟨failed, full⟩ | ⟨middle, sector, allocated, kept, undisturbed, range, free, first, bits⟩
  · left
    refine ⟨failed, fun place onDevice => ?_⟩
    exact marked place (full place (by omega))
  · right
    have one : ∀ other, (sector ≤ other ∧ other < sector + 1) ↔ other = sector := by
      intro other
      omega
    have newBits : ∀ other,
          middle.freeMap.bit other = if other = sector then true else fs.freeMap.bit other := by
      intro other
      rw [bits]
      simp only [one]
    refine ⟨middle, sector, allocated, ?_⟩
    constructor
    · exact ⟨by omega, (single sector).mp free, fun earlier before =>
          marked earlier (first earlier before)⟩
    · rintro rfl
      have used := (sound.layout.used FsSound.ownerMap).2
      rw [(single _).mp free] at used
      cases used
    · exact kept
    · exact undisturbed
    · constructor
      · unfold used
        rw [undisturbed.size, newBits, if_pos rfl]
        exact ⟨by omega, rfl⟩
      · intro owning here inside
        have before := (undisturbed.owner_iff sound.dirLength).mp here
        unfold region at inside
        rw [undisturbed.diskInode_eq before] at inside
        exact sound.free_of_uniform free before inside ⟨le_refl _, by omega⟩
    · exact newBits

/-- The entry is added once the inode has been created. -/
theorem createIn_of_created {middle next : Fs}
    (allocated : fs.freeMapAllocate 1 = some (middle, some sector))
    (creation : middle.inodeCreate sector size = some (next, true)) (handle : Dir)
    (name : List UInt8) :
    fs.createIn handle name size = (next.dirAdd handle name sector .plenty).map fun result =>
        (result.1, sector, result.2) := by
  rw [Fs.createIn, allocated, Option.bind_some]
  show (middle.inodeCreate sector size).bind _ = _
  rw [creation, Option.bind_some]

/-- What `filesys_create` does with the root directory open. -/
theorem createIn_eq (sound : FsSound fs dir entries refs)
    (opened : 0 < refs dir) (same : handle.inode = dir) (text : 0 ∉ name)
    (nonneg : 0 ≤ size) (bounded : size < 2147483648) :
    (fs.createIn handle name size = some (fs, 0, false) ∧
      ∀ place, place < fs.deviceSize → fs.freeMap.bit place = true) ∨
    ∃ middle sector, SectorTaken fs middle dir entries refs sector ∧
      ((fs.createIn handle name size = some (middle, sector, false) ∧
          ∀ other, other + sectorsFor size.toNat ≤ middle.deviceSize →
            ¬middle.freeMap.Uniform other (sectorsFor size.toNat) false) ∨
        ∃ next start, Created middle next dir entries refs sector size start ∧
          (fs.createIn handle name size = some (next, sector, false) ∨
            ∃ after,
              fs.createIn handle name size = some (after, sector, true) ∧
                FsSound after dir entries refs ∧
                  OpensKept next after refs ∧
                    after.deviceSize = next.deviceSize)) := by
  rcases allocateOne sound with ⟨failed, full⟩ | ⟨middle, sector, allocated, step⟩
  · left
    rw [Fs.createIn, failed, Option.bind_some]
    exact ⟨rfl, full⟩
  · right
    refine ⟨middle, sector, step, ?_⟩
    rcases step.sound.inodeCreate nonneg bounded step.taken with
      ⟨failed, full⟩ | ⟨next, start, creation, created⟩
    · left
      refine ⟨?_, full⟩
      rw [Fs.createIn, allocated, Option.bind_some]
      show (middle.inodeCreate sector size).bind _ = _
      rw [failed, Option.bind_some]
    · right
      refine ⟨next, start, created, ?_⟩
      have reduce := createIn_of_created allocated creation handle name
      rcases created.sound.dirAdd opened same text created.unlinked with
        failed | ⟨after, added, kept, unchanged, afterSize, -⟩
      · left
        rw [failed] at reduce
        exact reduce
      · right
        rw [added] at reduce
        exact ⟨after, reduce, kept, unchanged, afterSize⟩

/-- The sector of the inode is given back. -/
theorem releaseOne (sound : FsSound fs dir entries refs)
    (taken : Taken fs dir entries refs sector) :
    ∃ after,
      fs.freeMapRelease sector 1 true = some after ∧
        FsSound after dir entries refs ∧
          Undisturbed fs after dir entries refs ∧
            ∀ other,
              after.freeMap.bit other = if other = sector then false else fs.freeMap.bit other := by
  have one : ∀ other, (sector ≤ other ∧ other < sector + 1) ↔ other = sector := by
    intro other
    omega
  rcases sound.freeMapRelease (show sector + 1 ≤ fs.deviceSize from taken.used.1)
      (by
        intro other lower upper
        rw [(one other).mp ⟨lower, upper⟩]
        exact taken.used.2)
      (by
        intro owning here place inside both
        rw [(one place).mp both] at inside
        exact taken.free owning here inside) with
    ⟨after, released, kept, undisturbed, bits⟩
  refine ⟨after, released, kept, undisturbed, fun other => ?_⟩
  rw [bits]
  simp only [one]

end Create

/-- The sectors of a file are as they were. -/
structure SameContents (disk disk' : Memory) (sector : Nat) : Prop where
  inode : SectorAgree disk' disk sector
  data : ∀ place, inExtent (diskInode disk sector) place → SectorAgree disk' disk place

/-- A run of free sectors apart from the one that the inode gets. -/
structure RoomFor (fs : Fs) (sector cnt start : Nat) : Prop where
  onDevice : start + cnt ≤ fs.deviceSize
  free :
    ∀ place, start ≤ place → place < start + cnt → place ≠ sector ∧ fs.freeMap.bit place = false

/-- How `filesys_create` fails: it takes no sectors, or it leaves the sectors
of the data taken. -/
def CreateFailed (fs after : Fs) (size : Int) : Prop :=
  (after.freeMap = fs.freeMap ∧
      ∀ sector start, FirstFree fs sector → ¬RoomFor fs sector (sectorsFor size.toNat) start) ∨
    ∃ sector start, FirstFree fs sector ∧
      RoomFor fs sector (sectorsFor size.toNat) start ∧
        after.freeMap.bitCnt = fs.freeMap.bitCnt ∧
          ∀ other,
            after.freeMap.bit other =
              if start ≤ other ∧ other < start + sectorsFor size.toNat then
                true
              else fs.freeMap.bit other

/-- The only sector that is free first. -/
theorem FirstFree.unique {fs : Fs} {first second : Nat}
    (here : FirstFree fs first) (there : FirstFree fs second) :
    first = second := by
  rcases Nat.lt_trichotomy first second with less | same | more
  · have marked := there.first first less
    rw [here.free] at marked
    cases marked
  · exact same
  · have marked := here.first second more
    rw [there.free] at marked
    cases marked

section CreateFailure

variable {fs middle next after : Fs} {dir entries sector start : Nat}
variable {refs : Nat → Nat} {size : Int}

theorem sameContents_of_undisturbed
    (undisturbed : Undisturbed fs after dir entries refs) :
    SameContents fs.disk after.disk dir where
  inode := undisturbed.inodes dir FsSound.ownerDir
  data := undisturbed.dirData

/-- There is no room for the data: the sector of the inode is given back. -/
theorem undo_noRoom (sound : FsSound fs dir entries refs)
    (step : SectorTaken fs middle dir entries refs sector)
    (full :
      ∀ other, other + sectorsFor size.toNat ≤ middle.deviceSize →
        ¬middle.freeMap.Uniform other (sectorsFor size.toNat) false) :
    ∃ after,
      middle.freeMapRelease sector 1 true = some after ∧
        FsSound after dir entries refs ∧
          Undisturbed fs after dir entries refs ∧
            CreateFailed fs after size := by
  rcases releaseOne step.sound step.taken with ⟨after, released, kept, undisturbed, bits⟩
  refine ⟨after, released, kept,
      step.undisturbed.trans undisturbed sound.dirLength, Or.inl ⟨?_, ?_⟩⟩
  · apply Bitmap.eq_of_bit
    · rw [kept.layout.size, undisturbed.size, step.undisturbed.size, sound.layout.size]
    · intro other
      rw [bits, step.bits]
      by_cases this : other = sector
      · rw [if_pos this, this, step.first.free]
      · rw [if_neg this, if_neg this]
  · intro first start here room
    have same := here.unique step.first
    rw [same] at room
    apply full start
    · rw [step.undisturbed.size]
      exact room.onDevice
    · intro place lower upper
      rcases room.free place lower upper with ⟨different, free⟩
      rw [step.bits, if_neg different]
      exact free

/-- The directory has no room for the name: the sectors of the data are not
given back. -/
theorem undo_created (sound : FsSound fs dir entries refs)
    (step : SectorTaken fs middle dir entries refs sector)
    (created : Created middle next dir entries refs sector size start) :
    ∃ after,
      next.freeMapRelease sector 1 true = some after ∧
        FsSound after dir entries refs ∧
          Undisturbed fs after dir entries refs ∧
            CreateFailed fs after size := by
  have owned := created.unlinked.layout
  have taken : Taken next dir entries refs sector := by
    constructor
    · exact owned.used (Or.inl rfl)
    · intro owning here inside
      apply owned.owned.disjoint owning sector (Or.inr here) (Or.inl rfl) _
        sector inside (Or.inl rfl)
      rintro rfl
      exact created.unlinked.fresh here
  rcases releaseOne created.sound taken with ⟨after, released, kept, undisturbed, bits⟩
  have fromStart := step.undisturbed.trans created.undisturbed sound.dirLength
  have room : RoomFor fs sector (sectorsFor size.toNat) start := by
    constructor
    · rw [← step.undisturbed.size]
      exact created.range
    · intro place lower upper
      have free := created.free place lower upper
      rw [step.bits] at free
      by_cases this : place = sector
      · rw [if_pos this] at free
        cases free
      · rw [if_neg this] at free
        exact ⟨this, free⟩
  refine ⟨after, released, kept, fromStart.trans undisturbed sound.dirLength,
      Or.inr ⟨sector, start, step.first, room, ?_, ?_⟩⟩
  · rw [kept.layout.size, undisturbed.size, fromStart.size, sound.layout.size]
  · intro other
    rw [bits, created.bits, step.bits]
    by_cases this : other = sector
    · rw [if_pos this, this, step.first.free, if_neg]
      intro both
      exact (room.free sector both.1 both.2).1 rfl
    · rw [if_neg this, if_neg this]

end CreateFailure

namespace RootSound

variable {fs : Fs} {refs : Nat → Nat} {name : List UInt8} {size : Int}

/-- The failure is the same one after an inode has been opened or closed. -/
theorem createFailed_congr {opened released after : Fs}
    (failed : CreateFailed opened released size) (sameSize : opened.deviceSize = fs.deviceSize)
    (sameMap : opened.freeMap = fs.freeMap) (closed : after.freeMap = released.freeMap) :
    CreateFailed fs after size := by
  have firstFree : ∀ sector, FirstFree fs sector → FirstFree opened sector := by
    intro sector here
    constructor
    · rw [sameSize]
      exact here.onDevice
    · rw [sameMap]
      exact here.free
    · rw [sameMap]
      exact here.first
  rcases failed with ⟨same, none⟩ | ⟨sector, start, first, room, cnt, bits⟩
  · left
    refine ⟨closed.trans (same.trans sameMap), ?_⟩
    intro sector start here room
    apply none sector start (firstFree sector here)
    exact ⟨sameSize ▸ room.onDevice, fun place lower upper =>
        sameMap ▸ room.free place lower upper⟩
  · right
    refine ⟨sector, start, ?_, ?_, ?_, ?_⟩
    · exact ⟨sameSize ▸ first.onDevice, sameMap ▸ first.free, sameMap ▸ first.first⟩
    · exact ⟨sameSize ▸ room.onDevice, fun place lower upper =>
          sameMap ▸ room.free place lower upper⟩
    · rw [closed, cnt, sameMap]
    · intro other
      rw [closed, bits, sameMap]

/-- `filesys_create`. -/
theorem filesysCreate (sound : RootSound fs refs) (text : 0 ∉ name)
    (nonneg : 0 ≤ size) (bounded : size < 2147483648) :
    ∃ after success,
      fs.filesysCreate name size = some (after, success) ∧
        RootSound after refs ∧ OpensKept fs after refs ∧
          after.deviceSize = fs.deviceSize ∧
            (success = false →
              SameContents fs.disk after.disk rootDirSector ∧
                CreateFailed fs after size) := by
  rcases sound.dirOpenRoot with ⟨opened, opening, held, sameSize, sameDisk, sameMap⟩
  have mapOpen : 0 < refs freeMapSector := FsSound.mapOpen sound
  have dirOpen : 0 < hold refs (some rootDirSector) rootDirSector := by
    rw [hold_self]
    omega
  -- A failure that has been undone is followed by `dir_close`.
  have fails : ∀ current sector,
        opened.createIn rootDir name size = some (current, sector, false) →
        sector ≠ 0 →
        (∃ released,
          current.freeMapRelease sector 1 true = some released ∧
            RootSound released (hold refs (some rootDirSector)) ∧
              Undisturbed opened released rootDirSector rootEntries
                  (hold refs (some rootDirSector)) ∧
                CreateFailed opened released size) →
        ∃ after success,
          fs.filesysCreate name size = some (after, success) ∧
            RootSound after refs ∧ OpensKept fs after refs ∧
              after.deviceSize = fs.deviceSize ∧
                (success = false →
                  SameContents fs.disk after.disk rootDirSector ∧
                    CreateFailed fs after size) := by
    intro current sector creation notZero undone
    rcases undone with ⟨released, release, kept, undisturbed, failed⟩
    rcases kept.dirClose mapOpen with ⟨after, closed, result, size', disk', map'⟩
    refine ⟨after, false, ?_, result, ?_, ?_, fun _ => ⟨?_, ?_⟩⟩
    · rw [Fs.filesysCreate, opening, Option.bind_some]
      show ((opened.createIn rootDir name size).bind _) = _
      rw [creation, Option.bind_some]
      simp only [notZero, ne_eq, not_false_eq_true, and_self, if_true,
        release, Option.bind_some, closed, Option.map_some]
    · have unchanged : OpensKept opened released refs :=
        undisturbed.opensKept.mono (le_hold refs (some rootDirSector))
      exact (OpensKept.of_disk sameDisk).trans (unchanged.trans (OpensKept.of_disk disk'))
    · rw [size', undisturbed.size, sameSize]
    · rw [disk', ← sameDisk]
      exact sameContents_of_undisturbed undisturbed
    · exact createFailed_congr failed sameSize sameMap map'
  have atRoot : rootDir.inode = rootDirSector := rfl
  rcases createIn_eq held dirOpen atRoot text nonneg bounded with
    ⟨creation, full⟩ |
      ⟨middle, sector, step,
        ⟨creation, full⟩ |
          ⟨next, start, created, creation | ⟨done, creation, kept, changed, doneSize⟩⟩⟩
  · rcases held.dirClose mapOpen with ⟨after, closed, result, size', disk', map'⟩
    refine ⟨after, false, ?_, result, OpensKept.of_disk (disk'.trans sameDisk), ?_,
        fun _ => ⟨?_, ?_⟩⟩
    · rw [Fs.filesysCreate, opening, Option.bind_some]
      show ((opened.createIn rootDir name size).bind _) = _
      rw [creation, Option.bind_some]
      simp only [ne_eq, not_true_eq_false, and_false, if_false,
        Option.bind_some, closed, Option.map_some]
    · rw [size', sameSize]
    · rw [disk', sameDisk]
      exact ⟨fun _ _ _ => rfl, fun _ _ _ _ _ => rfl⟩
    · left
      refine ⟨map'.trans sameMap, ?_⟩
      intro sector start here room
      have marked := full sector (sameSize ▸ here.onDevice)
      rw [sameMap, here.free] at marked
      cases marked
  · exact fails middle sector creation step.notMap (undo_noRoom held step full)
  · exact fails next sector creation step.notMap (undo_created held step created)
  · rcases RootSound.dirClose kept mapOpen with ⟨after, closed, result, size', disk', -⟩
    refine ⟨after, true, ?_, result, ?_, ?_, fun impossible => by cases impossible⟩
    · rw [Fs.filesysCreate, opening, Option.bind_some]
      show ((opened.createIn rootDir name size).bind _) = _
      rw [creation, Option.bind_some]
      simp only [Bool.true_eq_false, false_and, if_false, Option.bind_some, closed, Option.map_some]
    · have unchanged :=
        step.undisturbed.opensKept.trans (created.undisturbed.opensKept.trans changed)
      exact
        (OpensKept.of_disk sameDisk).trans
          ((unchanged.mono (le_hold refs (some rootDirSector))).trans (OpensKept.of_disk disk'))
    · rw [size', doneSize, created.undisturbed.size, step.undisturbed.size, sameSize]

/-- With a negative size `filesys_create` fails when no sector is free, and
otherwise the assertion of `inode_create` does. -/
theorem filesysCreate_negative (sound : RootSound fs refs) (negative : size < 0) :
    fs.filesysCreate name size = none ∨
      ∃ after,
        fs.filesysCreate name size = some (after, false) ∧
          RootSound after refs ∧ OpensKept fs after refs ∧
            after.deviceSize = fs.deviceSize := by
  rcases sound.dirOpenRoot with ⟨opened, opening, held, sameSize, sameDisk, -⟩
  rw [Fs.filesysCreate, opening, Option.bind_some]
  show ((opened.createIn rootDir name size).bind _) = _ ∨
    ∃ after, ((opened.createIn rootDir name size).bind _) = _ ∧ _
  unfold Fs.createIn
  rcases allocateOne held with ⟨failed, -⟩ | ⟨middle, sector, allocated, -⟩
  · right
    rcases held.dirClose (FsSound.mapOpen sound) with ⟨after, closed, result, size', disk', -⟩
    refine ⟨after, ?_, result, OpensKept.of_disk (disk'.trans sameDisk), size'.trans sameSize⟩
    rw [failed, Option.bind_some]
    simp only [Option.bind_some, ne_eq, not_true_eq_false, and_false,
      if_false, closed, Option.map_some]
  · left
    rw [allocated, Option.bind_some]
    simp only [Fs.inodeCreate, if_pos negative, Option.bind_none]

/-- `filesys_open` gives a file that is named, if there is one. -/
theorem filesysOpen (sound : RootSound fs refs) (text : 0 ∉ name) : ∃ after file,
      fs.filesysOpen name .plenty = some (after, file) ∧
        RootSound after (hold refs (file.map File.inode)) ∧
          after.deviceSize = fs.deviceSize ∧ after.disk = fs.disk ∧
            (∀ opened ∈ file,
              opened.inode ≠ freeMapSector ∧
                opened.inode ≠ rootDirSector ∧ opened.denyWrite = false) ∧
            after.freeMap = fs.freeMap ∧
            ((∃ i sector, i < rootEntries ∧
                entryOf (dirSlot fs.disk rootDirSector i) = some (name, sector) ∧
                  file = some ⟨sector, 0, false⟩) ∨
              ∀ i sector, i < rootEntries →
                entryOf (dirSlot fs.disk rootDirSector i) ≠ some (name, sector)) := by
  rcases sound.dirOpenRoot with ⟨root, opening, held, sameSize, sameDisk, sameMap⟩
  have mapOpen : 0 < refs freeMapSector := FsSound.mapOpen sound
  have dirOpen : 0 < hold refs (some rootDirSector) rootDirSector := by
    rw [hold_self]
    omega
  have ready : DirReady root rootDir.inode _ rootEntries := FsSound.ready held dirOpen
  rcases ready.dirLookup held.slots text with ⟨i, sector, inside, here, looked⟩ | ⟨absent, looked⟩
  · have linked : named root.disk rootDirSector rootEntries sector :=
      ⟨i, name, inside, here⟩
    rcases FsSound.inodeOpen held (Or.inr (Or.inr (Or.inl linked))) with
      ⟨next, opened, both, nextSize, nextDisk, nextMap⟩
    rw [hold_comm] at both
    have stillMap : 0 < hold refs (some sector) freeMapSector :=
      Nat.lt_of_lt_of_le mapOpen (le_hold refs _ _)
    rcases RootSound.dirClose both stillMap with ⟨after, closed, result, size', disk', map'⟩
    refine ⟨after, some ⟨sector, 0, false⟩, ?_, result, ?_, ?_, ?_, ?_,
        Or.inl ⟨i, sector, inside, sameDisk ▸ here, rfl⟩⟩
    · rw [Fs.filesysOpen, opening, Option.bind_some]
      show ((root.dirLookup rootDir name .plenty).bind _) = _
      rw [looked, opened, Option.bind_some]
      show ((next.dirClose (some rootDir) always).bind _) = _
      rw [closed, Option.bind_some]
      rfl
    · rw [size', nextSize, sameSize]
    · rw [disk', nextDisk, sameDisk]
    · intro opened member
      cases member
      rcases FsSound.linkedPlain held sector linked with ⟨notMap, notDir⟩
      exact ⟨notMap, notDir, rfl⟩
    · rw [map', nextMap, sameMap]
  · rcases held.dirClose mapOpen with ⟨after, closed, result, size', disk', map'⟩
    refine ⟨after, none, ?_, ?_, size'.trans sameSize, disk'.trans sameDisk, ?_,
        map'.trans sameMap, Or.inr (sameDisk ▸ absent)⟩
    · rw [Fs.filesysOpen, opening, Option.bind_some]
      show ((root.dirLookup rootDir name .plenty).bind _) = _
      rw [looked, Option.bind_some]
      show ((root.dirClose (some rootDir) always).bind _) = _
      rw [closed, Option.bind_some]
      rfl
    · rw [Option.map_none, hold_none]
      exact result
    · intro opened member
      cases member

/-- `filesys_remove`. -/
theorem filesysRemove (sound : RootSound fs refs) (text : 0 ∉ name) : ∃ after success,
      fs.filesysRemove name .plenty = some (after, success) ∧
        RootSound after refs ∧ OpensKept fs after refs ∧
          after.deviceSize = fs.deviceSize := by
  rcases sound.dirOpenRoot with ⟨root, opening, held, sameSize, sameDisk, sameMap⟩
  have dirOpen : 0 < hold refs (some rootDirSector) rootDirSector := by
    rw [hold_self]
    omega
  have atRoot : rootDir.inode = rootDirSector := rfl
  rcases FsSound.dirRemove held dirOpen atRoot text with
    ⟨next, success, removed, kept, changed, nextSize⟩
  rcases RootSound.dirClose kept (FsSound.mapOpen sound) with
    ⟨after, closed, result, size', disk', -⟩
  refine ⟨after, success, ?_, result, ?_, ?_⟩
  · rw [Fs.filesysRemove, opening, Option.bind_some]
    show ((root.dirRemove rootDir name .plenty).bind _) = _
    rw [removed, Option.bind_some]
    show (next.dirClose (some rootDir) always).map _ = _
    rw [closed, Option.map_some]
  · exact
      (OpensKept.of_disk sameDisk).trans
        ((changed.mono (le_hold refs (some rootDirSector))).trans (OpensKept.of_disk disk'))
  · rw [size', nextSize, sameSize]

end RootSound

end CS162.Filesys

import CS162.Filesys.FilesysRuns
import CS162.Foundation.SlotTable

/-!
# A directory as a finite map

Calls on one open directory, with the names that were added and not removed
since.  The directory has been made by `dir_create` and nothing else writes to
it.
-/

namespace CS162.Filesys

open CS162.Foundation
open CS162.Kernel
open CS162.Devices (blockSectorSize)

/-- The calls on a directory, and closing an inode that `dir_lookup` gave. -/
inductive DirCall where
  | add (name : List UInt8) (inodeSector : Nat)
  | lookup (name : List UInt8)
  | remove (name : List UInt8)
  | readdir (handle : Dir)
  | close (inode : Nat)

/-- The file system, the names with the sectors that were added for them, and
the inodes that the callers hold; or the end of the kernel. -/
inductive DirState where
  | running (fs : Fs) (names : List (List UInt8 × Nat)) (held : List Nat)
  | panicked

namespace DirState

/-- The state after `dir_add`. -/
def added (name : List UInt8) (inodeSector : Nat)
    (names : List (List UInt8 × Nat)) (held : List Nat) :
    Option (Fs × Bool) → DirState
  | some (fs, true) => .running fs ((name, inodeSector) :: names) held
  | some (fs, false) => .running fs names held
  | none => .panicked

/-- The state after `dir_lookup`. -/
def lookedUp (names : List (List UInt8 × Nat)) (held : List Nat) :
    Option (Fs × Option Nat) → DirState
  | some (fs, pointer) => .running fs names (pointer.toList ++ held)
  | none => .panicked

/-- The state after `dir_remove`. -/
def removed (name : List UInt8) (names : List (List UInt8 × Nat))
    (held : List Nat) : Option (Fs × Bool) → DirState
  | some (fs, true) =>
      .running fs (names.filter fun entry => entry.1 ≠ name) held
  | some (fs, false) => .running fs names held
  | none => .panicked

/-- One call on the directory, where memory is not short. -/
def step (dir : Nat) : DirState → DirCall → Option DirState
  | .running fs names held, .add name inodeSector =>
      if 0 ∉ name ∧ inodeSector < unsignedModulus then
        some <| added name inodeSector names held <| fs.dirAdd ⟨dir, 0⟩ name inodeSector .plenty
      else none
  | .running fs names held, .lookup name =>
      if 0 ∉ name then
        some (lookedUp names held (fs.dirLookup ⟨dir, 0⟩ name .plenty))
      else none
  | .running fs names held, .remove name =>
      if 0 ∉ name then
        some (removed name names held (fs.dirRemove ⟨dir, 0⟩ name .plenty))
      else none
  | .running fs names held, .readdir handle =>
      if handle.inode = dir then
        match fs.dirReaddir handle always with
        | some _ => some (.running fs names held)
        | none => some .panicked
      else none
  | .running fs names held, .close inode =>
      if inode ∈ held then
        match fs.inodeClose (some inode) always with
        | some fs => some (.running fs names (held.erase inode))
        | none => some .panicked
      else none
  | .panicked, _ => none

end DirState

/-- A directory that has just been made and opened: in a sector that was free,
or the root directory of a new file system. -/
inductive NewDirectory : Nat → Nat → Fs → Prop
  | made {before allocated created fs : Fs} {files : List File}
      {dir entryCnt : Nat}
      (reachable : filesysSystem.Reachable (.running before files))
      (allocation : before.freeMapAllocate 1 = some (allocated, some dir))
      (creation : allocated.dirCreate dir entryCnt = some (created, true))
      (opening : created.inodeOpen dir true = some (fs, some dir)) :
      NewDirectory dir entryCnt fs
  | root {deviceSize : Nat} {disk stack : Memory} {memory : Nat → Elem}
      {before fs : Fs} (small : deviceSize < deviceLimit)
      (started : Fs.filesysInit deviceSize disk stack memory true = some before)
      (opening : before.inodeOpen rootDirSector true = some (fs, some rootDirSector)) :
      NewDirectory rootDirSector rootEntries fs

/-- All runs of the calls on a directory with room for a number of entries. -/
def directorySystem (dir entryCnt : Nat) : TransitionSystem DirState DirCall where
  initial state :=
    entryCnt * direntSize ≤ 2147483647 ∧
      ∃ fs, NewDirectory dir entryCnt fs ∧ state = .running fs [] []
  step := DirState.step dir

/-- Reading from a handle on until `dir_readdir` returns false. -/
inductive Reads (fs : Fs) : Dir → List (List UInt8) → Prop
  | done {handle after : Dir}
      (read : fs.dirReaddir handle always = some (after, none)) :
      Reads fs handle []
  | more {handle after : Dir} {name : List UInt8} {names : List (List UInt8)}
      (read : fs.dirReaddir handle always = some (after, some name))
      (rest : Reads fs after names) :
      Reads fs handle (name :: names)

/-- The entries in use, in the order of the slots. -/
def dirContents (disk : Memory) (start entries : Nat) : List (List UInt8 × Nat) :=
  slotContents (fun i => entryOf (slot disk start i)) 0 entries

section Contents

variable {disk : Memory} {start entries i : Nat} {name : List UInt8}
variable {sector : Nat}

theorem mem_dirContents {entry : List UInt8 × Nat} :
    entry ∈ dirContents disk start entries ↔
      ∃ i, i < entries ∧ entryOf (slot disk start i) = some entry := by
  rw [dirContents, mem_slotContents]
  constructor
  · intro here
    rcases here with ⟨i, -, upper, there⟩
    exact ⟨i, by omega, there⟩
  · intro here
    rcases here with ⟨i, upper, there⟩
    exact ⟨i, Nat.zero_le i, by omega, there⟩

/-- No two slots in use have the same name. -/
theorem nodup_dirContents (sound : SlotsSound disk start entries) :
    ((dirContents disk start entries).map Prod.fst).Nodup := by
  apply nodup_map_slotContents
  intro i j first second lower less upper here there same
  rcases first with ⟨name, sector⟩
  rcases second with ⟨other, another⟩
  cases same
  have equal := sound.once i j name sector another (by omega) (by omega) here there
  omega

/-- All slots of a directory are in use when there are as many names. -/
theorem length_dirContents_lt_iff :
    (dirContents disk start entries).length < entries ↔
      ∃ i, i < entries ∧ entryOf (slot disk start i) = none := by
  rw [dirContents, length_slotContents_lt_iff]
  constructor
  · intro here
    rcases here with ⟨i, -, upper, there⟩
    exact ⟨i, by omega, there⟩
  · intro here
    rcases here with ⟨i, upper, there⟩
    exact ⟨i, Nat.zero_le i, by omega, there⟩

/-- An entry that is written to a free slot comes to the others. -/
theorem dirContents_fill (inside : i < entries)
    (free : entryOf (slot disk start i) = none) {e : Memory}
    (entry : entryOf e = some (name, sector)) :
    (dirContents (writeSlot disk start i e) start entries).Perm
      ((name, sector) :: dirContents disk start entries) := by
  apply slotContents_fill (Nat.zero_le i) (by omega) free
  · rw [entryOf_writeSlot, if_pos rfl]
    exact entry
  · intro j lower upper different
    rw [entryOf_writeSlot, if_neg different]

/-- An entry that is cleared leaves the others. -/
theorem dirContents_clear (inside : i < entries)
    (here : entryOf (slot disk start i) = some (name, sector)) {e : Memory}
    (entry : entryOf e = none) :
    (dirContents disk start entries).Perm
      ((name, sector) :: dirContents (writeSlot disk start i e) start entries) := by
  apply slotContents_fill (Nat.zero_le i) (by omega) _ here
  · intro j lower upper different
    rw [entryOf_writeSlot, if_neg different]
  · rw [entryOf_writeSlot, if_pos rfl]
    exact entry

theorem dirContents_congr {disk' : Memory}
    (agree : ∀ j, j < entries → (slot disk' start j).AgreeOn (slot disk start j) 0 direntSize) :
    dirContents disk' start entries = dirContents disk start entries := by
  apply slotContents_congr
  intro j lower upper
  exact entryOf_congr (agree j (by omega))

/-- Reading a directory to the end gives the names in the slots from the
position on. -/
theorem reads_from {fs : Fs} {dir : Nat} (ready : DirReady fs dir start entries) (remaining : Nat)
    (inside : i + remaining = entries) :
    Reads fs ⟨dir, direntSize * i⟩
      ((slotContents (fun i => entryOf (slot fs.disk start i)) i
        remaining).map Prod.fst) := by
  induction remaining using Nat.strongRecOn generalizing i with
  | ind remaining inductionHypothesis =>
      rcases ready.dirReaddir (show i ≤ entries by omega) with
        ⟨j, name, sector, lower, upper, here, earlier, read⟩ | ⟨none, read⟩
      · have first :=
          @slotContents_first _ (fun i => entryOf (slot fs.disk start i))
            (name, sector) i remaining j lower (by omega) here earlier
        rw [first, List.map_cons]
        apply Reads.more read
        exact inductionHypothesis _ (by omega) (by omega)
      · have empty :
            slotContents (fun i => entryOf (slot fs.disk start i)) i
              remaining = [] := by
          apply List.eq_nil_iff_forall_not_mem.mpr
          intro entry member
          rcases mem_slotContents.mp member with ⟨k, lower, upper, there⟩
          rw [none k lower (by omega)] at there
          cases there
        rw [empty]
        exact Reads.done read

end Contents

/-- Where the directory and the free map file have their data. -/
structure DirFiles (deviceSize entries : Nat) (dirData mapData : InodeDisk) : Prop where
  dirLength : dirData.length = (direntSize * entries : Nat)
  dirWithin : dirData.Within deviceSize
  mapLength : mapData.length = byteCnt deviceSize
  mapWithin : mapData.Within deviceSize
  apart : ∀ place, inExtent dirData place → ¬inExtent mapData place

/-- An open inode has the data of the directory or of the free map file if it
is one of these. -/
def knownFile (dir : Nat) (dirData mapData : InodeDisk) (sector : Nat)
    (_removed : Bool) (data : InodeDisk) : Prop :=
  (sector = dir → data = dirData) ∧ (sector = freeMapSector → data = mapData)

/-- The invariant of an open directory.  Nothing is known about the files that
are named. -/
structure DirSound (fs : Fs) (dir entries : Nat) (dirData mapData : InodeDisk)
    (refs : Nat → Nat) : Prop where
  small : fs.deviceSize < deviceLimit
  size : fs.freeMap.bitCnt = fs.deviceSize
  mapFile : fs.freeMapFile = some freeMapSector
  files : DirFiles fs.deviceSize entries dirData mapData
  dirOpen : 0 < refs dir
  mapOpen : 0 < refs freeMapSector
  opens : OpenSound fs.openInodes refs (fun _ => 0) (knownFile dir dirData mapData)
  slots : SlotsSound fs.disk dirData.start entries

/-- The slots of a directory are as they were. -/
def SlotsKept (fs after : Fs) (dirData : InodeDisk) (entries : Nat) : Prop :=
  ∀ i, i < entries →
    (slot after.disk dirData.start i).AgreeOn (slot fs.disk dirData.start i) 0 direntSize

namespace DirSound

variable {fs after : Fs} {dir entries : Nat} {dirData mapData : InodeDisk}
variable {refs : Nat → Nat} {sector : Nat}

theorem ready (sound : DirSound fs dir entries dirData mapData refs) :
    DirReady fs dir dirData.start entries where
  inode := by
    rcases sound.opens.find sound.dirOpen with ⟨found, here, -, -, denied, data, -⟩
    have same := data rfl
    refine ⟨found, here, denied, ?_, ?_, ?_⟩
    · rw [same]
    · rw [same]
      exact sound.files.dirLength
    · rw [same]
      exact sound.files.dirWithin

theorem map (sound : DirSound fs dir entries dirData mapData refs) : MapOpen fs mapData.start where
  file := sound.mapFile
  small := sound.small
  size := sound.size
  inode := by
    rcases sound.opens.find sound.mapOpen with ⟨found, here, -, -, denied, -, data⟩
    have same := data rfl
    refine ⟨found, here, denied, ?_, ?_, ?_⟩
    · rw [same]
    · rw [same]
      exact sound.files.mapLength
    · rw [same]
      exact sound.files.mapWithin

/-- What has to be checked after a change. -/
theorem change (sound : DirSound fs dir entries dirData mapData refs)
    {refs' : Nat → Nat} (sameSize : after.deviceSize = fs.deviceSize)
    (sameCnt : after.freeMap.bitCnt = fs.freeMap.bitCnt)
    (sameFile : after.freeMapFile = fs.freeMapFile)
    (dirOpen : 0 < refs' dir) (mapOpen : 0 < refs' freeMapSector)
    (opens :
      OpenSound after.openInodes refs' (fun _ => 0)
        (knownFile dir dirData mapData))
    (slots : SlotsSound after.disk dirData.start entries) :
    DirSound after dir entries dirData mapData refs' where
  small := by
    rw [sameSize]
    exact sound.small
  size := by
    rw [sameCnt, sameSize]
    exact sound.size
  mapFile := sameFile.trans sound.mapFile
  files := by
    rw [sameSize]
    exact sound.files
  dirOpen := dirOpen
  mapOpen := mapOpen
  opens := opens
  slots := slots

/-- `inode_open` for any sector. -/
theorem inodeOpen (sound : DirSound fs dir entries dirData mapData refs) {pointer : Option Nat}
    (opened : fs.inodeOpen sector true = some (after, pointer)) :
    pointer = some sector ∧
      DirSound after dir entries dirData mapData (hold refs (some sector)) ∧
        after.deviceSize = fs.deviceSize ∧ after.disk = fs.disk ∧
          after.freeMap = fs.freeMap := by
  rcases Fs.inodeOpen_eq opened with ⟨rfl, sameSize, sameDisk, sameMap, sameFile, -, -⟩
  have fresh :
      refs sector = 0 →
        knownFile dir dirData mapData sector false
          (diskInode fs.disk sector) := by
    intro closed
    have dirOpen := sound.dirOpen
    have mapOpen := sound.mapOpen
    constructor
    · intro same
      rw [same] at closed
      omega
    · intro same
      rw [same] at closed
      omega
  have opens := (sound.opens.inodeOpen (fun _ => Nat.zero_le _) fresh opened).1
  refine ⟨rfl, ?_, sameSize, sameDisk, sameMap⟩
  apply sound.change sameSize (congrArg Bitmap.bitCnt sameMap) sameFile
  · exact Nat.lt_of_lt_of_le sound.dirOpen (le_hold refs _ _)
  · exact Nat.lt_of_lt_of_le sound.mapOpen (le_hold refs _ _)
  · exact opens
  · rw [sameDisk]
    exact sound.slots

/-- A change of the free map leaves the slots alone. -/
theorem slotsKept_withMap
    (sound : DirSound fs dir entries dirData mapData refs) {map : Bitmap}
    (size : map.bitCnt = fs.deviceSize) :
    SlotsKept fs (fs.withMap mapData.start map) dirData entries := by
  intro i inside
  have agree :
      ∀ place, inExtent dirData place →
        SectorAgree (fs.withMap mapData.start map).disk fs.disk place := by
    intro place here
    apply FsSound.sectorAgree_withMap fs _ (sound.files.apart place here)
    rw [sound.files.mapLength, size, Int.toNat_natCast]
  exact FsSound.slot_agreeOn sound.files.dirLength inside agree

theorem withMap (sound : DirSound fs dir entries dirData mapData refs)
    {map : Bitmap} (size : map.bitCnt = fs.deviceSize) :
    DirSound (fs.withMap mapData.start map) dir entries dirData mapData
      refs := by
  have slots := sound.slots.congr (sound.slotsKept_withMap size)
  generalize written : fs.withMap mapData.start map = after at slots ⊢
  apply sound.change
  · rw [← written]
    rfl
  · rw [← written, sound.size]
    exact size
  · rw [← written]
    rfl
  · exact sound.dirOpen
  · exact sound.mapOpen
  · rw [← written]
    exact sound.opens
  · exact slots

/-- `free_map_release` keeps the invariant, whatever it frees. -/
theorem freeMapRelease (sound : DirSound fs dir entries dirData mapData refs)
    {cnt : Nat} (released : fs.freeMapRelease sector cnt true = some after) :
    DirSound after dir entries dirData mapData refs ∧
      after.deviceSize = fs.deviceSize ∧
        SlotsKept fs after dirData entries := by
  rcases sound.map.freeMapRelease_withMap released with ⟨map, size, rfl⟩
  exact ⟨sound.withMap size, rfl, sound.slotsKept_withMap size⟩

/-- The last close of an inode. -/
theorem drop
    (sound : DirSound fs dir entries dirData mapData (hold refs (some sector)))
    (dirOpen : 0 < refs dir) (mapOpen : 0 < refs freeMapSector) (last : refs sector = 0) :
    DirSound
      { fs with
        openInodes := fs.openInodes.filter fun other => other.sector ≠ sector }
      dir entries dirData mapData refs := by
  generalize dropped :
    ({ fs with
        openInodes :=
          fs.openInodes.filter fun other => other.sector ≠ sector } : Fs) =
      closing
  have opens := sound.opens.drop last
  apply sound.change
  · rw [← dropped]
  · rw [← dropped]
  · rw [← dropped]
  · exact dirOpen
  · exact mapOpen
  · rw [← dropped]
    exact opens
  · rw [← dropped]
    exact sound.slots

/-- `inode_close` keeps the invariant. -/
theorem inodeClose
    (sound : DirSound fs dir entries dirData mapData (hold refs (some sector)))
    (dirOpen : 0 < refs dir) (mapOpen : 0 < refs freeMapSector)
    (closed : fs.inodeClose (some sector) always = some after) :
    DirSound after dir entries dirData mapData refs ∧
      after.deviceSize = fs.deviceSize ∧
        SlotsKept fs after dirData entries := by
  have opens := (sound.opens.inodeClose closed).1
  have held := hold_self refs sector
  have here : 0 < hold refs (some sector) sector := by omega
  rcases sound.opens.find here with ⟨inode, found, same, count, -⟩
  simp only [Fs.inodeClose, found, Option.bind_some, count, held, Nat.add_sub_cancel] at closed
  by_cases last : refs sector = 0
  · rw [if_pos last] at closed
    have first := sound.drop dirOpen mapOpen last
    cases removed : inode.removed with
    | false =>
        rw [removed] at closed
        cases closed
        exact ⟨first, rfl, fun _ _ _ _ _ => rfl⟩
    | true =>
        rw [removed, if_pos rfl] at closed
        rcases Option.bind_eq_some_iff.mp closed with ⟨middle, release, releaseData⟩
        rcases first.freeMapRelease release with ⟨second, size, kept⟩
        rcases second.freeMapRelease releaseData with ⟨third, sizeAgain, keptAgain⟩
        refine ⟨third, sizeAgain.trans size, ?_⟩
        intro i inside
        exact (keptAgain i inside).trans (kept i inside)
  · rw [if_neg last] at closed
    cases closed
    refine ⟨?_, rfl, fun _ _ _ _ _ => rfl⟩
    exact sound.change rfl rfl rfl dirOpen mapOpen opens sound.slots

end DirSound

/-- The sectors of a file can be freed: they are marked, and the inode is not
among the data. -/
structure Removable (fs : Fs) (sector : Nat) (data : InodeDisk) : Prop where
  onDevice : sector < fs.deviceSize
  marked : fs.freeMap.bit sector = true
  range : data.start + bytesToSectors data.length ≤ fs.deviceSize
  dataMarked :
    ∀ place, data.start ≤ place →
      place < data.start + bytesToSectors data.length → place ≠ sector ∧ fs.freeMap.bit place = true

namespace DirSound

variable {fs after : Fs} {dir entries : Nat} {dirData mapData : InodeDisk}
variable {refs : Nat → Nat} {sector : Nat}

/-- `inode_close` returns when somebody else has the inode open or its sectors
can be freed. -/
theorem inodeClose_returns
    (sound : DirSound fs dir entries dirData mapData (hold refs (some sector)))
    (dirOpen : 0 < refs dir) (mapOpen : 0 < refs freeMapSector)
    (fine :
      0 < refs sector ∨
        ∃ found, fs.findInode sector = some found ∧ Removable fs sector found.data) :
    ∃ after, fs.inodeClose (some sector) always = some after := by
  have held := hold_self refs sector
  have here : 0 < hold refs (some sector) sector := by omega
  rcases sound.opens.find here with ⟨inode, found, same, count, -⟩
  simp only [Fs.inodeClose, found, Option.bind_some, count, held, Nat.add_sub_cancel]
  by_cases last : refs sector = 0
  · rw [if_pos last]
    rcases fine with more | ⟨other, there, removable⟩
    · omega
    · rw [found] at there
      cases there
      cases inode.removed with
      | false => exact ⟨_, rfl⟩
      | true =>
          have first := sound.drop dirOpen mapOpen last
          have inodeMarked :
              ∀ place, sector ≤ place → place < sector + 1 →
                fs.freeMap.bit place = true := by
            intro place lower upper
            have this : place = sector := by omega
            rw [this]
            exact removable.marked
          rcases first.map.freeMapRelease removable.onDevice inodeMarked with
            ⟨map, released, size, bits⟩
          have dataMarked :
              ∀ place, inode.data.start ≤ place →
                place < inode.data.start + bytesToSectors inode.data.length →
                  map.bit place = true := by
            intro place lower upper
            rcases removable.dataMarked place lower upper with ⟨different, marked⟩
            rw [bits, if_neg (by omega)]
            exact marked
          rcases (first.map.withMap size mapData.start).freeMapRelease
              removable.range dataMarked with
            ⟨again, releasedData, -⟩
          rw [if_pos rfl, same]
          show ∃ after, (Fs.freeMapRelease _ sector 1 true).bind _ = some after
          rw [released, Option.bind_some]
          exact ⟨_, releasedData⟩
  · rw [if_neg last]
    exact ⟨_, rfl⟩

/-- `inode_open` returns when the inode is open already or its sectors can be
freed, and then closing it again does. -/
theorem inodeOpen_returns
    (sound : DirSound fs dir entries dirData mapData refs)
    (fine :
      (∃ found, fs.findInode sector = some found) ∨
        Removable fs sector (diskInode fs.disk sector)) :
    ∃ after,
      fs.inodeOpen sector true = some (after, some sector) ∧
        after.deviceSize = fs.deviceSize ∧ after.freeMap = fs.freeMap ∧
          (0 < refs sector ∨
            ∃ found, after.findInode sector = some found ∧
              found.sector = sector ∧ Removable after sector found.data) := by
  rcases Nat.eq_zero_or_pos (refs sector) with closed | more
  · have none := sound.opens.find_none closed
    rcases fine with ⟨found, here⟩ | removable
    · rw [none] at here
      cases here
    · rw [Fs.inodeOpen, none, Fs.blockRead, if_pos removable.onDevice]
      refine ⟨_, rfl, rfl, rfl,
          Or.inr ⟨⟨sector, 1, false, 0, diskInode fs.disk sector⟩, ?_, ?_, ?_⟩⟩
      · rw [Fs.findInode_pushInode, if_pos rfl]
        rfl
      · rfl
      · exact ⟨removable.onDevice, removable.marked, removable.range, removable.dataMarked⟩
  · rcases sound.opens.find more with ⟨found, here, -⟩
    rw [Fs.inodeOpen, here]
    exact ⟨_, rfl, rfl, rfl, Or.inl more⟩

/-- Clearing a slot and marking the file that it named as removed. -/
theorem clearSlot
    (sound : DirSound fs dir entries dirData mapData (hold refs (some sector)))
    (i : Nat) {e : Memory} (cleared : entryOf e = none) :
    DirSound
      ((fs.setDisk (writeSlot fs.disk dirData.start i e)).inodeRemove sector)
      dir entries dirData mapData (hold refs (some sector)) := by
  have held := hold_self refs sector
  have slots :
      SlotsSound (writeSlot fs.disk dirData.start i e) dirData.start
        entries := by
    apply sound.slots.write i
    · intro inUse
      rw [entryOf, if_pos inUse] at cleared
      cases cleared
    · intro name other said
      rw [cleared] at said
      cases said
  have opens :
      OpenSound (fs.inodeRemove sector).openInodes (hold refs (some sector))
        (fun _ => 0) (knownFile dir dirData mapData) := by
    apply OpenSound.update sound.opens
    · intro inode
      rfl
    · omega
    · intro inode count denied fine
      exact ⟨count, denied, fine⟩
    · intro other different
      exact ⟨rfl, rfl, fun _ _ fine => fine⟩
  generalize written : (fs.setDisk (writeSlot fs.disk dirData.start i e)).inodeRemove sector = after
  apply sound.change
  · rw [← written]
    rfl
  · rw [← written]
    rfl
  · rw [← written]
    rfl
  · exact sound.dirOpen
  · exact sound.mapOpen
  · rw [← written]
    exact opens
  · rw [← written]
    exact slots

/-- Writing an entry to a slot. -/
theorem fillSlot (sound : DirSound fs dir entries dirData mapData refs) {i : Nat}
    {e : Memory} {name : List UInt8} (entry : entryOf e = some (name, sector) ∧ Terminated e)
    (absent :
      ∀ j other, j < entries → entryOf (slot fs.disk dirData.start j) ≠ some (name, other)) :
    DirSound (fs.setDisk (writeSlot fs.disk dirData.start i e)) dir entries
      dirData mapData refs := by
  have slots :
      SlotsSound (writeSlot fs.disk dirData.start i e) dirData.start
        entries := by
    apply sound.slots.write i (fun _ => entry.2)
    intro other place said j another inside different
    rw [entry.1] at said
    cases said
    exact absent j another inside
  generalize written : fs.setDisk (writeSlot fs.disk dirData.start i e) = after
  apply sound.change
  · rw [← written]
    rfl
  · rw [← written]
    rfl
  · rw [← written]
    rfl
  · exact sound.dirOpen
  · exact sound.mapOpen
  · rw [← written]
    exact sound.opens
  · rw [← written]
    exact slots

end DirSound

/-- The references of the callers, besides those that were there before. -/
def heldRefs (base : Nat → Nat) (held : List Nat) : Nat → Nat := fun sector =>
  base sector + held.count sector

theorem heldRefs_append (base : Nat → Nat) (held : List Nat) (pointer : Option Nat) :
    heldRefs base (pointer.toList ++ held) = hold (heldRefs base held) pointer := by
  funext sector
  unfold heldRefs hold
  cases pointer with
  | none => simp
  | some inode =>
      simp [List.count_cons]
      omega

theorem heldRefs_erase (base : Nat → Nat) {held : List Nat} {inode : Nat} (member : inode ∈ held) :
    heldRefs base held = hold (heldRefs base (held.erase inode)) (some inode) := by
  funext sector
  have count := countP_erase_add (· == sector) member
  unfold heldRefs hold
  simp only [List.count, count, Option.some.injEq, beq_iff_eq]
  omega

/-- The invariant of the calls on a directory: its slots hold the names. -/
structure NamesSound (fs : Fs) (dir entries : Nat)
    (names : List (List UInt8 × Nat)) (held : List Nat)
    (dirData mapData : InodeDisk) (base : Nat → Nat) : Prop where
  sound : DirSound fs dir entries dirData mapData (heldRefs base held)
  dirHeld : 0 < base dir
  mapHeld : 0 < base freeMapSector
  contents : names.Perm (dirContents fs.disk dirData.start entries)

namespace NamesSound

variable {fs : Fs} {dir entries : Nat} {names : List (List UInt8 × Nat)}
variable {held : List Nat} {dirData mapData : InodeDisk} {base : Nat → Nat}
variable {name : List UInt8} {sector : Nat} {handle : Dir}

theorem once (all : NamesSound fs dir entries names held dirData mapData base) :
    (names.map Prod.fst).Nodup :=
  (all.contents.map Prod.fst).nodup_iff.mpr (nodup_dirContents all.sound.slots)

theorem mem_iff
    (all : NamesSound fs dir entries names held dirData mapData base) :
    (name, sector) ∈ names ↔
      ∃ i, i < entries ∧
        entryOf (slot fs.disk dirData.start i) = some (name, sector) := by
  rw [all.contents.mem_iff, mem_dirContents]

theorem ready (all : NamesSound fs dir entries names held dirData mapData base)
    (same : handle.inode = dir) :
    DirReady fs handle.inode dirData.start entries := by
  rw [same]
  exact all.sound.ready

/-- `dir_lookup`. -/
theorem dirLookup
    (all : NamesSound fs dir entries names held dirData mapData base)
    (same : handle.inode = dir) (text : 0 ∉ name) :
    (∀ sector, (name, sector) ∈ names →
        fs.dirLookup handle name .plenty = fs.inodeOpen sector true) ∧
      ((∀ sector, (name, sector) ∉ names) →
        fs.dirLookup handle name .plenty = some (fs, none)) := by
  rcases (all.ready same).dirLookup all.sound.slots text with
    ⟨i, found, inside, here, looked⟩ | ⟨absent, looked⟩
  · constructor
    · intro sector member
      rcases all.mem_iff.mp member with ⟨j, bound, there⟩
      have this := all.sound.slots.once i j name found sector inside bound here there
      rw [this, there] at here
      cases here
      exact looked
    · intro missing
      exact absurd (all.mem_iff.mpr ⟨i, inside, here⟩) (missing found)
  · constructor
    · intro sector member
      rcases all.mem_iff.mp member with ⟨j, bound, there⟩
      exact absurd there (absent j sector bound)
    · intro missing
      exact looked

/-- `dir_add`. -/
theorem dirAdd
    (all : NamesSound fs dir entries names held dirData mapData base)
    (same : handle.inode = dir) (text : 0 ∉ name) (small : sector < unsignedModulus) :
    (fs.dirAdd handle name sector .plenty = some (fs, false) ∧
        ¬(1 ≤ name.length ∧ name.length ≤ nameMax ∧
          (∀ other, (name, other) ∉ names) ∧ names.length < entries)) ∨
      ∃ after,
        fs.dirAdd handle name sector .plenty = some (after, true) ∧
          (1 ≤ name.length ∧ name.length ≤ nameMax ∧
            (∀ other, (name, other) ∉ names) ∧ names.length < entries) ∧
            NamesSound after dir entries ((name, sector) :: names) held dirData
              mapData base := by
  have length := all.contents.length_eq
  have room := @length_dirContents_lt_iff fs.disk dirData.start entries
  rcases (all.ready same).dirAdd all.sound.slots text small with
    ⟨reason, failed⟩ | ⟨⟨valid, fits, absent⟩, i, e, inside, free, entry, added⟩
  · left
    refine ⟨failed, ?_⟩
    intro possible
    rcases possible with ⟨some, fits, missing, less⟩
    rcases reason with empty | long | ⟨i, other, inside, here⟩ | full
    · rw [empty] at some
      cases some
    · omega
    · exact missing other (all.mem_iff.mpr ⟨i, inside, here⟩)
    · rw [length] at less
      rcases room.mp less with ⟨i, inside, free⟩
      exact full i inside free
  · right
    refine ⟨_, added, ⟨?_, fits, ?_, ?_⟩, ?_⟩
    · exact List.length_pos_iff.mpr valid
    · intro other member
      rcases all.mem_iff.mp member with ⟨j, bound, there⟩
      exact absent j other bound there
    · rw [length]
      exact room.mpr ⟨i, inside, free⟩
    · constructor
      · exact all.sound.fillSlot entry absent
      · exact all.dirHeld
      · exact all.mapHeld
      · have filled := dirContents_fill inside free entry.1
        exact (all.contents.cons (name, sector)).trans filled.symm

/-- The other names stay when one is removed. -/
theorem filter_perm {rest : List (List UInt8 × Nat)} (once : (names.map Prod.fst).Nodup)
    (contents : names.Perm ((name, sector) :: rest)) :
    (names.filter fun entry => entry.1 ≠ name).Perm rest := by
  have distinct := (contents.map Prod.fst).nodup_iff.mp once
  rw [List.map_cons, List.nodup_cons] at distinct
  have first : decide ((name, sector).1 ≠ name) = false := by simp
  have kept : (rest.filter fun entry => entry.1 ≠ name) = rest := by
    apply List.filter_eq_self.mpr
    intro entry member
    apply decide_eq_true
    intro same
    have here : entry.1 ∈ rest.map Prod.fst := List.mem_map_of_mem member
    rw [same] at here
    exact distinct.1 here
  have filtered := contents.filter fun entry => entry.1 ≠ name
  rw [List.filter_cons, first, kept] at filtered
  exact filtered

/-- `dir_remove` of a name that is not there. -/
theorem dirRemove_missing
    (all : NamesSound fs dir entries names held dirData mapData base)
    (same : handle.inode = dir) (text : 0 ∉ name) (missing : ∀ sector, (name, sector) ∉ names) :
    fs.dirRemove handle name .plenty = some (fs, false) := by
  rcases (all.ready same).dirRemove all.sound.slots text with
    ⟨i, sector, e, inside, here, -⟩ | ⟨-, failed⟩
  · exact absurd (all.mem_iff.mpr ⟨i, inside, here⟩) (missing sector)
  · exact failed

/-- `dir_remove` of a name that is there: it opens the inode, and when it
returns the name is gone. -/
theorem dirRemove_present
    (all : NamesSound fs dir entries names held dirData mapData base)
    (same : handle.inode = dir) (text : 0 ∉ name) (member : (name, sector) ∈ names) :
    (∀ after success,
        fs.dirRemove handle name .plenty = some (after, success) →
          success = true ∧
            NamesSound after dir entries
              (names.filter fun entry => entry.1 ≠ name) held dirData mapData
              base) ∧
      ((∃ found, fs.findInode sector = some found) ∨
          Removable fs sector (diskInode fs.disk sector) →
        ∃ after, fs.dirRemove handle name .plenty = some (after, true)) := by
  have dirOpen := all.sound.dirOpen
  have mapOpen := all.sound.mapOpen
  rcases (all.ready same).dirRemove all.sound.slots text with
    ⟨i, found, e, inside, here, cleared, removal⟩ | ⟨absent, -⟩
  · rcases all.mem_iff.mp member with ⟨j, bound, there⟩
    have this := all.sound.slots.once i j name found sector inside bound here there
    rw [this, there] at here
    cases here
    rw [removal]
    constructor
    · intro after success returned
      rcases Option.bind_eq_some_iff.mp returned with ⟨⟨middle, pointer⟩, opening, rest⟩
      rcases Option.map_eq_some_iff.mp rest with ⟨closed, closing, result⟩
      cases result
      rcases all.sound.inodeOpen opening with ⟨-, opened, -, sameDisk, -⟩
      have marked := opened.clearSlot i cleared
      rcases marked.inodeClose dirOpen mapOpen closing with ⟨kept, -, slotsKept⟩
      refine ⟨rfl, kept, all.dirHeld, all.mapHeld, ?_⟩
      have contents := all.contents
      rw [← sameDisk] at contents there
      rw [this] at slotsKept
      have left := dirContents_clear bound there cleared
      have sameNames :
          dirContents after.disk dirData.start entries =
            dirContents (writeSlot middle.disk dirData.start j e)
              dirData.start entries :=
        dirContents_congr slotsKept
      rw [sameNames]
      exact filter_perm all.once (contents.trans left)
    · intro fine
      rcases all.sound.inodeOpen_returns fine with ⟨middle, opening, sameSize, sameMap, closable⟩
      rcases all.sound.inodeOpen opening with ⟨-, opened, -⟩
      have marked := opened.clearSlot i cleared
      have stillClosable :
          0 < heldRefs base held sector ∨
            ∃ found,
              ((middle.setDisk
                    (writeSlot middle.disk dirData.start i e)).inodeRemove
                  sector).findInode sector =
                  some found ∧
                Removable
                  ((middle.setDisk
                      (writeSlot middle.disk dirData.start i e)).inodeRemove
                    sector)
                  sector found.data := by
        rcases closable with more | ⟨found, here, atSector, removable⟩
        · exact Or.inl more
        · right
          have unchanged :
              (middle.setDisk
                  (writeSlot middle.disk dirData.start i e)).findInode
                  sector =
                some found :=
            here
          refine ⟨{ found with removed := true }, ?_, ?_⟩
          · rw [Fs.inodeRemove, Fs.findInode_updateInode, unchanged,
              Option.map_some, if_pos atSector]
            intro inode
            rfl
          · exact ⟨removable.onDevice, removable.marked, removable.range, removable.dataMarked⟩
      rcases marked.inodeClose_returns dirOpen mapOpen stillClosable with ⟨after, closed⟩
      refine ⟨after, ?_⟩
      rw [opening, Option.bind_some, closed, Option.map_some]
  · rcases all.mem_iff.mp member with ⟨j, bound, there⟩
    exact absurd there (absent j sector bound)

/-- `inode_close` for an inode that `dir_lookup` gave. -/
theorem inodeClose {after : Fs} {inode : Nat}
    (all : NamesSound fs dir entries names held dirData mapData base) (member : inode ∈ held)
    (closed : fs.inodeClose (some inode) always = some after) :
    NamesSound after dir entries names (held.erase inode) dirData mapData
      base := by
  have sound := all.sound
  rw [heldRefs_erase base member] at sound
  have dirOpen : 0 < heldRefs base (held.erase inode) dir :=
    Nat.lt_of_lt_of_le all.dirHeld (Nat.le_add_right _ _)
  have mapOpen : 0 < heldRefs base (held.erase inode) freeMapSector :=
    Nat.lt_of_lt_of_le all.mapHeld (Nat.le_add_right _ _)
  rcases sound.inodeClose dirOpen mapOpen closed with ⟨kept, -, slotsKept⟩
  refine ⟨kept, all.dirHeld, all.mapHeld, ?_⟩
  rw [dirContents_congr slotsKept]
  exact all.contents

/-- `inode_open` for the inode that `dir_lookup` finds. -/
theorem inodeOpen {after : Fs} {pointer : Option Nat}
    (all : NamesSound fs dir entries names held dirData mapData base)
    (opened : fs.inodeOpen sector true = some (after, pointer)) :
    NamesSound after dir entries names (pointer.toList ++ held) dirData mapData
      base := by
  rcases all.sound.inodeOpen opened with ⟨rfl, kept, -, sameDisk, -⟩
  refine ⟨?_, all.dirHeld, all.mapHeld, ?_⟩
  · rw [heldRefs_append]
    exact kept
  · rw [sameDisk]
    exact all.contents

end NamesSound

/-- What every call preserves. -/
def DirState.Sound (dir entries : Nat) : DirState → Prop
  | .running fs names held =>
      ∃ dirData mapData base, NamesSound fs dir entries names held dirData mapData base
  | .panicked => True

theorem DirState.Sound.step {dir entries : Nat} {state target : DirState}
    {call : DirCall} (sound : state.Sound dir entries) (moved : state.step dir call = some target) :
    target.Sound dir entries := by
  cases state with
  | panicked => cases call <;> cases moved
  | running fs names held =>
      rcases sound with ⟨dirData, mapData, base, all⟩
      have atDir : (Dir.mk dir 0).inode = dir := rfl
      cases call with
      | add name sector =>
          simp only [DirState.step] at moved
          split at moved
          · rename_i valid
            cases moved
            rcases all.dirAdd atDir valid.1 valid.2 with ⟨failed, -⟩ | ⟨after, added, -, kept⟩
            · rw [failed]
              exact ⟨dirData, mapData, base, all⟩
            · rw [added]
              exact ⟨dirData, mapData, base, kept⟩
          · cases moved
      | lookup name =>
          simp only [DirState.step] at moved
          split at moved
          · rename_i text
            cases moved
            rcases all.dirLookup atDir text with ⟨found, missing⟩
            by_cases present : ∃ sector, (name, sector) ∈ names
            · rcases present with ⟨sector, member⟩
              rw [found sector member]
              cases opened : fs.inodeOpen sector true with
              | none => trivial
              | some result =>
                  exact ⟨dirData, mapData, base, all.inodeOpen opened⟩
            · rw [missing fun sector member => present ⟨sector, member⟩]
              exact ⟨dirData, mapData, base, all⟩
          · cases moved
      | remove name =>
          simp only [DirState.step] at moved
          split at moved
          · rename_i text
            cases moved
            by_cases present : ∃ sector, (name, sector) ∈ names
            · rcases present with ⟨sector, member⟩
              have removal := (all.dirRemove_present atDir text member).1
              cases removed : fs.dirRemove ⟨dir, 0⟩ name .plenty with
              | none => trivial
              | some result =>
                  rcases removal result.1 result.2 removed with ⟨success, kept⟩
                  rcases result with ⟨after, flag⟩
                  cases success
                  exact ⟨dirData, mapData, base, kept⟩
            · have missing : ∀ sector, (name, sector) ∉ names :=
                fun sector member => present ⟨sector, member⟩
              rw [all.dirRemove_missing atDir text missing]
              exact ⟨dirData, mapData, base, all⟩
          · cases moved
      | readdir handle =>
          simp only [DirState.step] at moved
          split at moved
          · split at moved
            · cases moved
              exact ⟨dirData, mapData, base, all⟩
            · cases moved
              trivial
          · cases moved
      | close inode =>
          simp only [DirState.step] at moved
          split at moved
          · rename_i member
            split at moved
            · rename_i after closed
              cases moved
              exact ⟨dirData, mapData, base, all.inodeClose member closed⟩
            · cases moved
              trivial
          · cases moved

section Start

variable {fs opened : Fs} {root entries others dir : Nat} {refs : Nat → Nat}

/-- Opening a directory of a sound file system. -/
theorem FsSound.openDirectory (sound : FsSound fs root others refs)
    (opening : fs.inodeOpen dir true = some (opened, some dir))
    (within : (diskInode fs.disk dir).Within fs.deviceSize)
    (length : (diskInode fs.disk dir).length = (direntSize * entries : Nat))
    (apart :
      ∀ place, inExtent (diskInode fs.disk dir) place →
        ¬inExtent (diskInode fs.disk freeMapSector) place)
    (empty : ∀ i, i < entries → entryOf (dirSlot fs.disk dir i) = none) :
    NamesSound opened dir entries [] [] (diskInode fs.disk dir)
      (diskInode fs.disk freeMapSector) (hold refs (some dir)) := by
  rcases Fs.inodeOpen_eq opening with ⟨-, sameSize, sameDisk, sameMap, sameFile, -, -⟩
  have known :
      OpenSound fs.openInodes refs (fun _ => 0)
        (knownFile dir (diskInode fs.disk dir)
          (diskInode fs.disk freeMapSector)) := by
    apply sound.opens.mono
    intro other removed data held fine
    constructor
    · intro same
      rw [fine.1, same]
    · intro same
      rw [fine.1, same]
  have fresh :
      refs dir = 0 →
        knownFile dir (diskInode fs.disk dir)
          (diskInode fs.disk freeMapSector) dir false
          (diskInode fs.disk dir) := by
    intro closed
    constructor
    · intro same
      rfl
    · intro same
      rw [same]
  have opens := (known.inodeOpen (fun _ => Nat.zero_le _) fresh opening).1
  have clear :
      ∀ i, i < entries →
        entryOf (slot opened.disk (diskInode fs.disk dir).start i) = none := by
    intro i inside
    rw [sameDisk]
    exact empty i inside
  have dirHeld : 0 < hold refs (some dir) dir := by
    rw [hold_self]
    omega
  have mapHeld : 0 < hold refs (some dir) freeMapSector :=
    Nat.lt_of_lt_of_le sound.mapOpen (le_hold refs _ _)
  have sameRefs : heldRefs (hold refs (some dir)) [] = hold refs (some dir) := by
    funext sector
    unfold heldRefs
    rw [List.count_nil, Nat.add_zero]
  refine ⟨?_, dirHeld, mapHeld, ?_⟩
  · rw [sameRefs]
    constructor
    · rw [sameSize]
      exact sound.layout.small
    · rw [sameMap, sameSize]
      exact sound.layout.size
    · rw [sameFile]
      exact sound.mapFile
    · rw [sameSize]
      exact ⟨length, within, sound.mapLength,
          sound.layout.within freeMapSector FsSound.ownerMap, apart⟩
    · exact dirHeld
    · exact mapHeld
    · exact opens
    · constructor
      · intro i inside inUse
        have entry := clear i inside
        rw [entryOf, if_pos inUse] at entry
        cases entry
      · intro i j name sector other first second here there
        rw [clear i first] at here
        cases here
  · have none : dirContents opened.disk (diskInode fs.disk dir).start entries = [] := by
      apply List.eq_nil_iff_forall_not_mem.mpr
      intro entry member
      rcases mem_dirContents.mp member with ⟨i, inside, here⟩
      rw [clear i inside] at here
      cases here
    rw [none]

/-- A new directory has no names. -/
theorem NewDirectory.sound {entryCnt : Nat} {fs : Fs}
    (bound : entryCnt * direntSize ≤ 2147483647) (new : NewDirectory dir entryCnt fs) :
    ∃ dirData mapData base, NamesSound fs dir entryCnt [] [] dirData mapData base := by
  cases new with
  | made reachable allocation creation opening =>
      rename_i before allocated created files
      have sound := (runSound_of_reachable reachable).root
      have size :
          wrapSigned ((wrap (entryCnt * direntSize) : Nat) : Int) =
            (entryCnt * direntSize : Nat) := by
        have small : wrap (entryCnt * direntSize) = entryCnt * direntSize := by
          apply wrap_of_lt
          unfold unsignedModulus
          omega
        rw [small]
        apply wrapSigned_of_lt <;> omega
      rw [Fs.dirCreate, size] at creation
      rcases allocateOne sound with ⟨failed, -⟩ | ⟨middle, sector, succeeded, step⟩
      · rw [failed] at allocation
        cases allocation
      · rw [succeeded] at allocation
        cases allocation
        rcases
          step.sound.inodeCreate (Int.natCast_nonneg (entryCnt * direntSize))
            (by omega) step.taken with
          ⟨failed, -⟩ | ⟨next, start, made, done⟩
        · rw [failed] at creation
          cases creation
        · rw [made] at creation
          cases creation
          have layout := done.unlinked.layout
          have different : dir ≠ freeMapSector := by
            rintro rfl
            exact done.unlinked.fresh FsSound.ownerMap
          refine ⟨_, _, _, FsSound.openDirectory done.sound opening ?_ ?_ ?_ ?_⟩
          · exact layout.within dir (Or.inl rfl)
          · rw [done.inode, Nat.mul_comm]
          · intro place inside outside
            exact
              layout.owned.disjoint dir freeMapSector (Or.inl rfl)
                (Or.inr FsSound.ownerMap) different place (Or.inr inside)
                (Or.inr outside)
          · intro i inside
            have enough :=
              le_divRoundUp_mul (entryCnt * direntSize) (show 0 < blockSectorSize by decide)
            rw [dirSlot, done.inode]
            rw [← entryOf_zeros]
            apply entryOf_congr
            intro place lower upper
            have cleared :=
              done.cleared (direntSize * i + place) (Nat.zero_le _) (by
                rw [Int.toNat_natCast]
                unfold sectorsFor
                unfold direntSize at *
                omega)
            rw [sectorBytes, Memory.drop] at cleared
            rw [slot, Memory.drop, Nat.add_assoc, cleared]
            rfl
  | root small started opening =>
      rename_i before
      rcases filesysInit_sound small started with ⟨sound, -, empty, -⟩
      have layout := FsSound.layout sound
      refine ⟨_, _, _,
          FsSound.openDirectory sound opening
            (layout.within _ FsSound.ownerDir) (FsSound.dirLength sound) ?_
            empty⟩
      intro place inside outside
      exact
        layout.owned.disjoint rootDirSector freeMapSector FsSound.ownerDir
          FsSound.ownerMap (by decide) place (Or.inr inside) (Or.inr outside)

end Start

/-- The directory is the map that the calls have made of it. -/
structure DirectoryGuarantee (fs : Fs) (dir entries : Nat)
    (names : List (List UInt8 × Nat)) : Prop where
  once : (names.map Prod.fst).Nodup
  slots :
    ∀ inode, fs.findInode dir = some inode →
      (∀ i j name sector other, i < entries → j < entries →
        entryOf (slot fs.disk inode.data.start i) = some (name, sector) →
          entryOf (slot fs.disk inode.data.start j) = some (name, other) → i = j) ∧
        ∀ name sector,
          (name, sector) ∈ names ↔
            ∃ i, i < entries ∧ entryOf (slot fs.disk inode.data.start i) = some (name, sector)
  lookup :
    ∀ handle name, handle.inode = dir → 0 ∉ name →
      (∀ sector, (name, sector) ∈ names →
          (∀ after pointer,
              fs.dirLookup handle name .plenty = some (after, pointer) → pointer = some sector) ∧
            (sector < fs.deviceSize →
              ∃ after, fs.dirLookup handle name .plenty = some (after, some sector))) ∧
        ((∀ sector, (name, sector) ∉ names) → fs.dirLookup handle name .plenty = some (fs, none))
  add :
    ∀ handle name sector, handle.inode = dir → 0 ∉ name →
      sector < unsignedModulus →
        ∃ after success,
          fs.dirAdd handle name sector .plenty = some (after, success) ∧
            (success = true ↔
              1 ≤ name.length ∧ name.length ≤ nameMax ∧
                (∀ other, (name, other) ∉ names) ∧ names.length < entries) ∧
              (success = false → after = fs)
  remove :
    ∀ handle name, handle.inode = dir → 0 ∉ name →
      (∀ sector, (name, sector) ∈ names →
          (∀ after success,
              fs.dirRemove handle name .plenty = some (after, success) → success = true) ∧
            ((∃ found, fs.findInode sector = some found) ∨
                Removable fs sector (diskInode fs.disk sector) →
              ∃ after, fs.dirRemove handle name .plenty = some (after, true))) ∧
        ((∀ sector, (name, sector) ∉ names) → fs.dirRemove handle name .plenty = some (fs, false))
  readdir : ∃ read, Reads fs ⟨dir, 0⟩ read ∧ read.Perm (names.map Prod.fst)

theorem NamesSound.guarantee {fs : Fs} {dir entries : Nat}
    {names : List (List UInt8 × Nat)} {held : List Nat}
    {dirData mapData : InodeDisk} {base : Nat → Nat}
    (all : NamesSound fs dir entries names held dirData mapData base) :
    DirectoryGuarantee fs dir entries names where
  once := all.once
  slots := by
    intro inode found
    rcases all.sound.opens.find all.sound.dirOpen with ⟨same, here, -, -, -, data, -⟩
    rw [found] at here
    cases here
    rw [data rfl]
    exact ⟨all.sound.slots.once, fun name sector => all.mem_iff⟩
  lookup := by
    intro handle name same text
    rcases all.dirLookup same text with ⟨found, missing⟩
    refine ⟨?_, missing⟩
    intro sector member
    rw [found sector member]
    constructor
    · intro after pointer opened
      exact (all.sound.inodeOpen opened).1
    · intro onDevice
      rw [Fs.inodeOpen, Fs.blockRead, if_pos onDevice]
      cases fs.findInode sector with
      | none => exact ⟨_, rfl⟩
      | some inode => exact ⟨_, rfl⟩
  add := by
    intro handle name sector same text small
    rcases all.dirAdd same text small with ⟨failed, refused⟩ | ⟨after, added, valid, -⟩
    · refine ⟨fs, false, failed, ?_, fun _ => rfl⟩
      constructor
      · intro impossible
        cases impossible
      · intro valid
        exact absurd valid refused
    · refine ⟨after, true, added, ?_, fun impossible => by cases impossible⟩
      constructor
      · intro success
        exact valid
      · intro valid
        rfl
  remove := by
    intro handle name same text
    refine ⟨?_, all.dirRemove_missing same text⟩
    intro sector member
    rcases all.dirRemove_present same text member with ⟨result, returns⟩
    refine ⟨?_, returns⟩
    intro after success removed
    exact (result after success removed).1
  readdir := by
    have whole := reads_from all.sound.ready entries (Nat.zero_add entries)
    rw [Nat.mul_zero] at whole
    exact ⟨_, whole, (all.contents.map Prod.fst).symm⟩

/-- In every run of calls on a directory it is the finite map of the names that
have been added and not removed since. -/
theorem directory_is_map (dir entryCnt : Nat) (fs : Fs)
    (names : List (List UInt8 × Nat)) (held : List Nat)
    (reachable : (directorySystem dir entryCnt).Reachable (.running fs names held)) :
    DirectoryGuarantee fs dir entryCnt names := by
  have sound : DirState.Sound dir entryCnt (.running fs names held) := by
    apply TransitionSystem.Reachable.invariant (DirState.Sound dir entryCnt) _ _ reachable
    · intro state start
      rcases start with ⟨bound, first, new, rfl⟩
      exact new.sound bound
    · intro state call target reached sound moved
      exact sound.step moved
  rcases sound with ⟨dirData, mapData, base, all⟩
  exact all.guarantee

/-- Two files without data. -/
def emptyFiles : List FsEvent := [.call (.create [120] 0), .call (.create [121] 0)]

/-- Two names are added, the first is removed and its slot is used again; then
the directory is full. -/
def addingCalls : List DirCall :=
  [.add [97] 4, .add [98] 5, .remove [97], .add [99] 4, .add [100] 5]

/-- The two names that are left. -/
def hasNames (state : DirState) : Bool :=
  match state with
  | .running _ names _ => names = [([99], 4), ([98], 5)]
  | .panicked => false

/-- The name `a` is there for sector 9, and `dir_remove` fails an assertion. -/
def removePanics (state : DirState) : Bool :=
  match state with
  | .running fs names held =>
      names = [([97], 9)] && held.isEmpty &&
        (fs.dirRemove ⟨6, 0⟩ [97] .plenty).isNone
  | .panicked => false

/-- A directory for two entries is made, and passes a test. -/
def makesDirectory (test : Fs → Bool) : FsState → Bool
  | .running fs _ =>
      (fs.freeMapAllocate 1).any fun allocated =>
        allocated.2 = some 6 &&
          (allocated.1.dirCreate 6 2).any fun created =>
            created.2 && (created.1.inodeOpen 6 true).any fun opened => test opened.1
  | .panicked => false

theorem exists_of_makesDirectory {test : Fs → Bool} {state : FsState}
    (reachable : filesysSystem.Reachable state) (makes : makesDirectory test state = true) :
    ∃ fs, NewDirectory 6 2 fs ∧ test fs = true := by
  cases state with
  | panicked => cases makes
  | running before files =>
      rcases (Option.any_eq_true _ _).mp makes with ⟨⟨allocated, sector⟩, allocation, rest⟩
      rw [Bool.and_eq_true, decide_eq_true_eq] at rest
      rcases rest with ⟨same, rest⟩
      cases same
      rcases (Option.any_eq_true _ _).mp rest with ⟨⟨created, success⟩, creation, rest⟩
      rw [Bool.and_eq_true] at rest
      rcases rest with ⟨same, rest⟩
      cases same
      rcases (Option.any_eq_true _ _).mp rest with ⟨⟨opened, pointer⟩, opening, passes⟩
      have pointed := (Fs.inodeOpen_eq opening).1
      rw [pointed] at opening
      exact ⟨opened, .made reachable allocation creation opening, passes⟩

/-- Two runs on a directory for two entries. -/
theorem directory_runs :
    ∃ fs, (directorySystem 6 2).initial (.running fs [] []) ∧
      (((directorySystem 6 2).run (.running fs [] []) addingCalls).any hasNames &&
        ((directorySystem 6 2).run (.running fs [] []) [.add [97] 9]).any
          removePanics) = true := by
  have runs : ((Fs.filesysInit 16 zeros zeros (fun _ => 0) true).bind fun fs =>
            filesysSystem.run (.running fs []) emptyFiles).any
          (makesDirectory fun fs =>
            ((directorySystem 6 2).run (.running fs [] []) addingCalls).any hasNames &&
              ((directorySystem 6 2).run (.running fs [] []) [.add [97] 9]).any removePanics) =
        true := by
    decide +kernel
  rcases (Option.any_eq_true _ _).mp runs with ⟨state, result, makes⟩
  rcases Option.bind_eq_some_iff.mp result with ⟨first, started, execution⟩
  have start : filesysSystem.initial (.running first []) :=
    ⟨16, zeros, zeros, fun _ => 0, first, by decide, started, rfl⟩
  rcases exists_of_makesDirectory (.of_run (.initial start) execution) makes with ⟨fs, new, passes⟩
  exact ⟨fs, ⟨by decide, fs, new, rfl⟩, passes⟩

theorem directory_is_map_full : ∃ start fs names held,
      (directorySystem 6 2).initial start ∧
        (directorySystem 6 2).run start addingCalls = some (.running fs names held) ∧
          hasNames (.running fs names held) = true ∧
            DirectoryGuarantee fs 6 2 names := by
  rcases directory_runs with ⟨first, begin, runs⟩
  rcases (Option.any_eq_true _ _).mp (Bool.and_eq_true_iff.mp runs).1 with ⟨last, calls, named⟩
  cases last with
  | panicked => cases named
  | running fs names held =>
      exact ⟨_, fs, names, held, begin, calls, named,
          directory_is_map 6 2 fs names held (.of_run (.initial begin) calls)⟩

/-- A name whose sector belongs to no file is there but cannot be removed: the
sector is not marked in the free map, so closing the inode fails an assertion. -/
theorem directory_remove_panics : ∃ start fs,
      (directorySystem 6 2).initial start ∧
        (directorySystem 6 2).run start [.add [97] 9] = some (.running fs [([97], 9)] []) ∧
          fs.dirRemove ⟨6, 0⟩ [97] .plenty = none := by
  rcases directory_runs with ⟨first, begin, runs⟩
  rcases (Option.any_eq_true _ _).mp (Bool.and_eq_true_iff.mp runs).2 with ⟨last, calls, panics⟩
  cases last with
  | panicked => cases panics
  | running fs names held =>
      simp only [removePanics, Bool.and_eq_true, decide_eq_true_eq,
        List.isEmpty_iff, Option.isNone_iff_eq_none] at panics
      obtain ⟨⟨rfl, rfl⟩, removal⟩ := panics
      exact ⟨_, fs, begin, calls, removal⟩

end CS162.Filesys

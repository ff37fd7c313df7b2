import CS162.Filesys.Entries
import CS162.Filesys.Layout
import CS162.Filesys.OpenInodes

/-!
# The invariant of the file system

What holds between two calls: the free map file and a directory are in place,
and the files that the directory names or that are open own their sectors.
-/

namespace CS162.Filesys

open CS162.Foundation
open CS162.Kernel
open CS162.Devices (blockSectorSize)

/-- A slot of the directory whose inode is in a sector. -/
def dirSlot (disk : Memory) (dir i : Nat) : Memory := slot disk (diskInode disk dir).start i

/-- An entry in use says that the inode is in the sector. -/
def named (disk : Memory) (dir entries sector : Nat) : Prop :=
  ∃ i name, i < entries ∧ entryOf (dirSlot disk dir i) = some (name, sector)

/-- The files that own sectors: the free map, the directory, and those that are
named or open. -/
def owner (fs : Fs) (dir entries : Nat) (refs : Nat → Nat) (sector : Nat) :
    Prop :=
  sector = freeMapSector ∨ sector = dir ∨ named fs.disk dir entries sector ∨ 0 < refs sector

/-- The bitmap in the free map file. -/
def storedMap (fs : Fs) : Bitmap :=
  bitmapOfBytes fs.deviceSize
    (fs.disk.drop ((diskInode fs.disk freeMapSector).start * blockSectorSize))

/-- The free map file holds the free map. -/
def MapSaved (fs : Fs) : Prop :=
  ∀ idx, idx < fs.deviceSize → (storedMap fs).bit idx = fs.freeMap.bit idx

theorem storedMap_congr {fs after : Fs} (sameSize : after.deviceSize = fs.deviceSize)
    (inode : diskInode after.disk freeMapSector = diskInode fs.disk freeMapSector)
    (length : (diskInode fs.disk freeMapSector).length = byteCnt fs.deviceSize)
    (data :
      ∀ place, inExtent (diskInode fs.disk freeMapSector) place →
        SectorAgree after.disk fs.disk place) :
    storedMap after = storedMap fs := by
  have bytes := agreeOn_of_extent data
  unfold storedMap
  rw [sameSize, inode]
  apply bitmapOfBytes_congr
  intro place lower upper
  apply bytes
  · omega
  · rw [length]
    omega

/-- An open inode has the data of the one on the disk, and the files that have
been removed are those that are not named any more. -/
def faithful (disk : Memory) (dir entries : Nat) (sector : Nat)
    (removed : Bool) (data : InodeDisk) : Prop :=
  data = diskInode disk sector ∧
    (removed = true ↔ sector ≠ freeMapSector ∧ sector ≠ dir ∧ ¬named disk dir entries sector)

/-- The invariant, for a directory with room for a number of entries and for
the references that are held. -/
structure FsSound (fs : Fs) (dir entries : Nat) (refs : Nat → Nat) : Prop where
  layout : Layout fs (owner fs dir entries refs)
  mapFile : fs.freeMapFile = some freeMapSector
  mapOpen : 0 < refs freeMapSector
  mapLength : (diskInode fs.disk freeMapSector).length = byteCnt fs.deviceSize
  saved : MapSaved fs
  different : dir ≠ freeMapSector
  dirLength : (diskInode fs.disk dir).length = (direntSize * entries : Nat)
  slots : SlotsSound fs.disk (diskInode fs.disk dir).start entries
  linkedOnce :
    ∀ i j name other sector, i < entries → j < entries →
      entryOf (dirSlot fs.disk dir i) = some (name, sector) →
        entryOf (dirSlot fs.disk dir j) = some (other, sector) → i = j
  linkedPlain : ∀ sector, named fs.disk dir entries sector → sector ≠ freeMapSector ∧ sector ≠ dir
  opens : OpenSound fs.openInodes refs (fun _ => 0) (faithful fs.disk dir entries)

/-- The inodes with references have the data that they had. -/
def OpensKept (fs after : Fs) (refs : Nat → Nat) : Prop :=
  ∀ sector, 0 < refs sector → diskInode after.disk sector = diskInode fs.disk sector

namespace OpensKept

variable {fs middle after : Fs} {refs refs' : Nat → Nat}

theorem of_disk (same : after.disk = fs.disk) : OpensKept fs after refs := by
  intro sector opened
  rw [same]

theorem trans (first : OpensKept fs middle refs)
    (second : OpensKept middle after refs) : OpensKept fs after refs := by
  intro sector opened
  exact (second sector opened).trans (first sector opened)

theorem mono (kept : OpensKept fs after refs') (fewer : ∀ sector, refs sector ≤ refs' sector) :
    OpensKept fs after refs := by
  intro sector opened
  exact kept sector (Nat.lt_of_lt_of_le opened (fewer sector))

end OpensKept

namespace FsSound

variable {fs after : Fs} {dir entries : Nat} {refs : Nat → Nat}
variable {sector : Nat}

theorem ownerMap : owner fs dir entries refs freeMapSector := Or.inl rfl

theorem ownerDir : owner fs dir entries refs dir := Or.inr (Or.inl rfl)

theorem ownerOpen (opened : 0 < refs sector) : owner fs dir entries refs sector :=
  Or.inr (Or.inr (Or.inr opened))

/-- The free map can be changed. -/
theorem map (sound : FsSound fs dir entries refs) :
    MapOpen fs (diskInode fs.disk freeMapSector).start where
  file := sound.mapFile
  small := sound.layout.small
  size := sound.layout.size
  inode := by
    rcases sound.opens.find sound.mapOpen with ⟨found, here, -, -, denied, data, -⟩
    refine ⟨found, here, denied, ?_, ?_, ?_⟩
    · rw [data]
    · rw [data]
      exact sound.mapLength
    · rw [data]
      exact sound.layout.within _ ownerMap

/-- The directory can be searched while it is open. -/
theorem ready (sound : FsSound fs dir entries refs) (opened : 0 < refs dir) :
    DirReady fs dir (diskInode fs.disk dir).start entries where
  inode := by
    rcases sound.opens.find opened with ⟨found, here, -, -, denied, data, -⟩
    refine ⟨found, here, denied, ?_, ?_, ?_⟩
    · rw [data]
    · rw [data]
      exact sound.dirLength
    · rw [data]
      exact sound.layout.within _ ownerDir

/-- The slots of a directory are among its data. -/
theorem slot_agreeOn {disk disk' : Memory} {data : InodeDisk} {i : Nat}
    (length : data.length = (direntSize * entries : Nat)) (inside : i < entries)
    (agree : ∀ place, inExtent data place → SectorAgree disk disk' place) :
    (slot disk data.start i).AgreeOn (slot disk' data.start i) 0
      direntSize := by
  intro place lower upper
  apply agreeOn_of_extent agree
  · omega
  · rw [length]
    unfold direntSize at *
    omega

/-- The inodes of the owners and the data of the directory are as they were. -/
structure Undisturbed (fs after : Fs) (dir entries : Nat) (refs : Nat → Nat) : Prop where
  size : after.deviceSize = fs.deviceSize
  inodes : ∀ sector, owner fs dir entries refs sector → SectorAgree after.disk fs.disk sector
  dirData : ∀ place, inExtent (diskInode fs.disk dir) place → SectorAgree after.disk fs.disk place

namespace Undisturbed

theorem diskInode_eq (undisturbed : Undisturbed fs after dir entries refs)
    (here : owner fs dir entries refs sector) :
    diskInode after.disk sector = diskInode fs.disk sector :=
  diskInode_congr (undisturbed.inodes sector here)

theorem opensKept (undisturbed : Undisturbed fs after dir entries refs) : OpensKept fs after refs :=
  fun _ opened => undisturbed.diskInode_eq (ownerOpen opened)

theorem slot_agreeOn (undisturbed : Undisturbed fs after dir entries refs)
    (length : (diskInode fs.disk dir).length = (direntSize * entries : Nat))
    {i : Nat} (inside : i < entries) :
    (slot after.disk (diskInode fs.disk dir).start i).AgreeOn
      (slot fs.disk (diskInode fs.disk dir).start i) 0 direntSize :=
  FsSound.slot_agreeOn length inside undisturbed.dirData

theorem entryOf_eq (undisturbed : Undisturbed fs after dir entries refs)
    (length : (diskInode fs.disk dir).length = (direntSize * entries : Nat))
    {i : Nat} (inside : i < entries) :
    entryOf (dirSlot after.disk dir i) = entryOf (dirSlot fs.disk dir i) := by
  rw [dirSlot, undisturbed.diskInode_eq ownerDir]
  exact entryOf_congr (undisturbed.slot_agreeOn length inside)

theorem named_iff (undisturbed : Undisturbed fs after dir entries refs)
    (length : (diskInode fs.disk dir).length = (direntSize * entries : Nat)) :
    named after.disk dir entries sector ↔ named fs.disk dir entries sector := by
  constructor
  · intro here
    rcases here with ⟨i, name, inside, entry⟩
    exact ⟨i, name, inside, (undisturbed.entryOf_eq length inside).symm.trans entry⟩
  · intro here
    rcases here with ⟨i, name, inside, entry⟩
    exact ⟨i, name, inside, (undisturbed.entryOf_eq length inside).trans entry⟩

theorem owner_iff (undisturbed : Undisturbed fs after dir entries refs)
    (length : (diskInode fs.disk dir).length = (direntSize * entries : Nat)) :
    owner after dir entries refs sector ↔ owner fs dir entries refs sector := by
  unfold owner
  rw [undisturbed.named_iff length]

theorem trans {middle : Fs} (first : Undisturbed fs middle dir entries refs)
    (second : Undisturbed middle after dir entries refs)
    (length : (diskInode fs.disk dir).length = (direntSize * entries : Nat)) :
    Undisturbed fs after dir entries refs where
  size := second.size.trans first.size
  inodes := by
    intro sector here
    have there := (first.owner_iff length).mpr here
    exact (second.inodes sector there).trans (first.inodes sector here)
  dirData := by
    intro place inside
    have there : inExtent (diskInode middle.disk dir) place := by
      rw [first.diskInode_eq ownerDir]
      exact inside
    exact (second.dirData place there).trans (first.dirData place inside)

end Undisturbed

/-- The invariant survives changes to sectors that are not in use by it. -/
theorem change (sound : FsSound fs dir entries refs)
    (undisturbed : Undisturbed fs after dir entries refs) (same : SameInodes fs after)
    (mapSize : after.freeMap.bitCnt = fs.deviceSize)
    (bits :
      ∀ sector, owner fs dir entries refs sector →
        ∀ place, region fs.disk sector place → after.freeMap.bit place = true)
    (saved : MapSaved after) : FsSound after dir entries refs := by
  have length := sound.dirLength
  have sameDir := undisturbed.diskInode_eq ownerDir
  constructor
  · have kept :=
      sound.layout.change undisturbed.size mapSize undisturbed.inodes bits
    exact kept.mono fun sector here => (undisturbed.owner_iff length).mp here
  · rw [same.freeMapFile]
    exact sound.mapFile
  · exact sound.mapOpen
  · rw [undisturbed.diskInode_eq ownerMap, undisturbed.size]
    exact sound.mapLength
  · exact saved
  · exact sound.different
  · rw [sameDir]
    exact length
  · rw [sameDir]
    exact sound.slots.congr fun i inside =>
        undisturbed.slot_agreeOn length inside
  · intro i j name other sector first second here there
    rw [undisturbed.entryOf_eq length first] at here
    rw [undisturbed.entryOf_eq length second] at there
    exact sound.linkedOnce i j name other sector first second here there
  · intro sector here
    exact sound.linkedPlain sector ((undisturbed.named_iff length).mp here)
  · rw [same.openInodes]
    apply sound.opens.mono
    intro sector removed data opened fine
    rcases fine with ⟨sameData, unlinked⟩
    constructor
    · rw [undisturbed.diskInode_eq (ownerOpen opened)]
      exact sameData
    · rw [undisturbed.named_iff length]
      exact unlinked

/-- The free map file still holds the free map when its data are as they
were. -/
theorem saved_of_agree (sound : FsSound fs dir entries refs)
    (undisturbed : Undisturbed fs after dir entries refs) (sameMap : after.freeMap = fs.freeMap)
    (mapData :
      ∀ place, inExtent (diskInode fs.disk freeMapSector) place →
        SectorAgree after.disk fs.disk place) : MapSaved after := by
  have kept :=
    storedMap_congr undisturbed.size (undisturbed.diskInode_eq ownerMap) sound.mapLength mapData
  intro idx inside
  rw [undisturbed.size] at inside
  rw [kept, sameMap]
  exact sound.saved idx inside

/-- The map that is written to the free map file is found there. -/
theorem mapSaved_withMap {map : Bitmap} {start : Nat} (size : map.bitCnt = fs.deviceSize)
    (place : (diskInode (fs.withMap start map).disk freeMapSector).start = start) :
    MapSaved (fs.withMap start map) := by
  intro idx inside
  generalize stored : fs.withMap start map = after at *
  have newSize : after.deviceSize = map.bitCnt := by
    rw [← stored, size]
    rfl
  have newMap : after.freeMap = map := by
    rw [← stored]
    rfl
  rw [storedMap, newSize, place, newMap]
  apply bit_bitmapOfBytes
  intro other lower upper
  rw [← stored]
  exact Memory.splice_apply_add upper

/-- Writing the free map file touches the data of that file only. -/
theorem sectorAgree_withMap (fs : Fs) {data : InodeDisk} {map : Bitmap}
    {place : Nat} (length : byteCnt map.bitCnt ≤ data.length.toNat)
    (outside : ¬inExtent data place) :
    SectorAgree (fs.withMap data.start map).disk fs.disk place := by
  have newDisk :
      (fs.withMap data.start map).disk =
        fs.disk.splice (data.start * blockSectorSize + 0)
          (byteCnt map.bitCnt) (bitmapBytes map) := by
    rw [Nat.add_zero]
    rfl
  rw [newDisk]
  exact sectorAgree_write length outside

theorem withMap_undisturbed (sound : FsSound fs dir entries refs)
    {map : Bitmap} (size : map.bitCnt = fs.deviceSize) :
    Undisturbed fs
      (fs.withMap (diskInode fs.disk freeMapSector).start map) dir entries
      refs := by
  have agree :
      ∀ place, ¬inExtent (diskInode fs.disk freeMapSector) place →
        SectorAgree
          (fs.withMap (diskInode fs.disk freeMapSector).start map).disk
          fs.disk place := by
    intro place outside
    apply sectorAgree_withMap fs _ outside
    rw [sound.mapLength, size]
    omega
  constructor
  · rfl
  · intro sector here
    exact agree sector (sound.layout.outside here ownerMap)
  · intro place inside
    apply agree
    intro there
    exact
      sound.layout.owned.disjoint dir freeMapSector ownerDir ownerMap
        sound.different place (Or.inr inside) (Or.inr there)

/-- A new free map is written to its file. -/
theorem withMap (sound : FsSound fs dir entries refs) {map : Bitmap}
    (size : map.bitCnt = fs.deviceSize)
    (bits :
      ∀ sector, owner fs dir entries refs sector →
        ∀ place, region fs.disk sector place → map.bit place = true) :
    FsSound (fs.withMap (diskInode fs.disk freeMapSector).start map) dir
      entries refs := by
  have undisturbed := sound.withMap_undisturbed size
  apply sound.change undisturbed ⟨rfl, rfl⟩ size bits
  apply mapSaved_withMap size
  rw [undisturbed.diskInode_eq ownerMap]

/-- `free_map_allocate` takes the first run of free sectors. -/
theorem freeMapAllocate (sound : FsSound fs dir entries refs) (cnt : Nat) :
    (fs.freeMapAllocate cnt = some (fs, none) ∧
      ∀ other, other + cnt ≤ fs.deviceSize → ¬fs.freeMap.Uniform other cnt false) ∨
    ∃ after sector,
      fs.freeMapAllocate cnt = some (after, some sector) ∧
        FsSound after dir entries refs ∧
          Undisturbed fs after dir entries refs ∧
            sector + cnt ≤ fs.deviceSize ∧
              fs.freeMap.Uniform sector cnt false ∧
                (∀ earlier, earlier < sector →
                  ¬fs.freeMap.Uniform earlier cnt false) ∧
                  ∀ other,
                    after.freeMap.bit other = if sector ≤ other ∧ other < sector + cnt then true
                      else fs.freeMap.bit other := by
  rcases sound.map.freeMapAllocate cnt with
    full | ⟨sector, map, allocated, size, range, free, first, bits⟩
  · exact Or.inl full
  · right
    refine ⟨_, sector, allocated, ?_, sound.withMap_undisturbed size, range, free, first, bits⟩
    apply sound.withMap size
    intro owning here place inside
    have marked := (sound.layout.owned.covered owning here place inside).2
    rw [bits, marked]
    split <;> rfl

/-- `free_map_release` frees sectors that nobody owns. -/
theorem freeMapRelease (sound : FsSound fs dir entries refs) {cnt : Nat}
    (range : sector + cnt ≤ fs.deviceSize)
    (marked : ∀ other, sector ≤ other → other < sector + cnt → fs.freeMap.bit other = true)
    (free :
      ∀ owning, owner fs dir entries refs owning →
        ∀ place, region fs.disk owning place → ¬(sector ≤ place ∧ place < sector + cnt)) :
    ∃ after,
      fs.freeMapRelease sector cnt true = some after ∧
        FsSound after dir entries refs ∧
          Undisturbed fs after dir entries refs ∧
            ∀ other,
              after.freeMap.bit other = if sector ≤ other ∧ other < sector + cnt then false
                else fs.freeMap.bit other := by
  rcases sound.map.freeMapRelease range marked with ⟨map, released, size, bits⟩
  refine ⟨_, released, ?_, sound.withMap_undisturbed size, bits⟩
  apply sound.withMap size
  intro owning here place inside
  rw [bits, if_neg (free owning here place inside)]
  exact (sound.layout.owned.covered owning here place inside).2

/-- The references change, and with them what is open. -/
theorem recount (sound : FsSound fs dir entries refs) {refs' : Nat → Nat}
    (sameSize : after.deviceSize = fs.deviceSize)
    (sameDisk : after.disk = fs.disk) (sameMap : after.freeMap = fs.freeMap)
    (sameFile : after.freeMapFile = fs.freeMapFile) (mapOpen : 0 < refs' freeMapSector)
    (owners : ∀ sector, 0 < refs' sector → owner fs dir entries refs sector)
    (opens :
      OpenSound after.openInodes refs' (fun _ => 0)
        (faithful fs.disk dir entries)) :
    FsSound after dir entries refs' := by
  have fewer :
      ∀ sector, owner after dir entries refs' sector →
        owner fs dir entries refs sector := by
    intro sector here
    unfold owner at here
    rw [sameDisk] at here
    rcases here with map | directory | linked | opened
    · exact Or.inl map
    · exact Or.inr (Or.inl directory)
    · exact Or.inr (Or.inr (Or.inl linked))
    · exact owners sector opened
  constructor
  · have kept : Layout after (owner fs dir entries refs) := by
      apply sound.layout.change sameSize
      · rw [sameMap]
        exact sound.layout.size
      · intro sector here place lower upper
        rw [sameDisk]
      · intro owning here place inside
        rw [sameMap]
        exact (sound.layout.owned.covered owning here place inside).2
    exact kept.mono fewer
  · rw [sameFile]
    exact sound.mapFile
  · exact mapOpen
  · rw [sameDisk, sameSize]
    exact sound.mapLength
  · have kept : storedMap after = storedMap fs := by
      rw [storedMap, sameSize, sameDisk]
      rfl
    intro idx inside
    rw [sameSize] at inside
    rw [kept, sameMap]
    exact sound.saved idx inside
  · exact sound.different
  · rw [sameDisk]
    exact sound.dirLength
  · rw [sameDisk]
    exact sound.slots
  · rw [sameDisk]
    exact sound.linkedOnce
  · rw [sameDisk]
    exact sound.linkedPlain
  · rw [sameDisk]
    exact opens

/-- `inode_open` for a file that owns its sectors. -/
theorem inodeOpen (sound : FsSound fs dir entries refs) (here : owner fs dir entries refs sector) :
    ∃ after,
      fs.inodeOpen sector true = some (after, some sector) ∧
        FsSound after dir entries (hold refs (some sector)) ∧
          after.deviceSize = fs.deviceSize ∧ after.disk = fs.disk ∧
            after.freeMap = fs.freeMap := by
  have onDevice := (sound.layout.used here).1
  have succeeds : ∃ result, fs.inodeOpen sector true = some result := by
    unfold Fs.inodeOpen Fs.blockRead
    cases found : fs.findInode sector with
    | some inode => exact ⟨_, rfl⟩
    | none =>
        simp only [if_true, if_pos onDevice, Option.map_some]
        exact ⟨_, rfl⟩
  rcases succeeds with ⟨⟨after, pointer⟩, opened⟩
  rcases Fs.inodeOpen_eq opened with ⟨pointed, sameSize, sameDisk, sameMap, sameFile, -, -⟩
  rw [pointed] at opened
  have stillThere :
      refs sector = 0 →
        (false = true ↔
          sector ≠ freeMapSector ∧ sector ≠ dir ∧
            ¬named fs.disk dir entries sector) := by
    intro closed
    constructor
    · intro impossible
      cases impossible
    · intro gone
      rcases here with map | directory | linked | held
      · exact absurd map gone.1
      · exact absurd directory gone.2.1
      · exact absurd linked gone.2.2
      · omega
  have opens :=
    sound.opens.inodeOpen (fun _ => Nat.zero_le _)
      (fun closed => ⟨rfl, stillThere closed⟩) opened
  refine ⟨after, opened, ?_, sameSize, sameDisk, sameMap⟩
  apply sound.recount sameSize sameDisk sameMap sameFile _ _ opens.1
  · exact Nat.lt_of_lt_of_le sound.mapOpen (le_hold refs _ _)
  · intro other held
    by_cases same : other = sector
    · rw [same]
      exact here
    · rw [hold_of_ne refs same] at held
      exact ownerOpen held

/-- Closing an inode that stays open, or that has not been removed. -/
theorem inodeClose_keep
    (sound : FsSound fs dir entries (hold refs (some sector))) (mapOpen : 0 < refs freeMapSector)
    (kept : 0 < refs sector ∨ ∃ found, fs.findInode sector = some found ∧ found.removed = false) :
    ∃ after,
      fs.inodeClose (some sector) always = some after ∧
        FsSound after dir entries refs ∧
          after.deviceSize = fs.deviceSize ∧ after.disk = fs.disk ∧
            after.freeMap = fs.freeMap := by
  have held := hold_self refs sector
  have here : 0 < hold refs (some sector) sector := by omega
  rcases sound.opens.find here with ⟨found, there, -, count, -⟩
  have closes : ∃ after,
        fs.inodeClose (some sector) always = some after ∧
          after.deviceSize = fs.deviceSize ∧ after.disk = fs.disk ∧
            after.freeMap = fs.freeMap ∧
              after.freeMapFile = fs.freeMapFile := by
    simp only [Fs.inodeClose, there, Option.bind_some, count, held, Nat.add_sub_cancel]
    by_cases last : refs sector = 0
    · have present : found.removed = false := by
        rcases kept with more | ⟨other, found', flag⟩
        · omega
        · rw [there] at found'
          cases found'
          exact flag
      simp only [if_pos last, present, Bool.false_eq_true, if_false]
      exact ⟨_, rfl, rfl, rfl, rfl, rfl⟩
    · rw [if_neg last]
      exact ⟨_, rfl, rfl, rfl, rfl, rfl⟩
  rcases closes with ⟨after, closed, sameSize, sameDisk, sameMap, sameFile⟩
  refine ⟨after, closed, ?_, sameSize, sameDisk, sameMap⟩
  apply sound.recount sameSize sameDisk sameMap sameFile mapOpen
  · intro other opened
    exact ownerOpen (Nat.lt_of_lt_of_le opened (le_hold refs _ other))
  · exact (sound.opens.inodeClose closed).1

/-- The last close of a removed inode frees its sectors and those of its
data. -/
theorem inodeClose_last
    (sound : FsSound fs dir entries (hold refs (some sector)))
    (mapOpen : 0 < refs freeMapSector) (last : refs sector = 0)
    {found : Inode} (there : fs.findInode sector = some found) (removed : found.removed = true) :
    ∃ after,
      fs.inodeClose (some sector) always = some after ∧
        FsSound after dir entries refs ∧
          after.deviceSize = fs.deviceSize ∧ OpensKept fs after refs ∧
            ∀ place,
              after.freeMap.bit place = true ↔
                fs.freeMap.bit place = true ∧
                  ¬region fs.disk sector place := by
  have held := hold_self refs sector
  have here : 0 < hold refs (some sector) sector := by omega
  have owning : owner fs dir entries (hold refs (some sector)) sector := ownerOpen here
  rcases sound.opens.find here with ⟨same, found', sameSector, count, -, fine⟩
  rw [there] at found'
  cases found'
  rcases fine with ⟨data, unlinked⟩
  rcases unlinked.mp removed with ⟨notMap, notDir, notNamed⟩
  have within := sound.layout.within sector owning
  have plain := sound.layout.plain sector owning
  have small := sound.layout.small
  -- The inode leaves the list of open inodes before its sectors are freed.
  generalize dropped :
    { fs with
        openInodes :=
          fs.openInodes.filter fun other => other.sector ≠ sector } =
      closing
  have sameSize : closing.deviceSize = fs.deviceSize := by rw [← dropped]
  have sameDisk : closing.disk = fs.disk := by rw [← dropped]
  have sameMap : closing.freeMap = fs.freeMap := by rw [← dropped]
  have sameFile : closing.freeMapFile = fs.freeMapFile := by rw [← dropped]
  have first : FsSound closing dir entries refs := by
    apply sound.recount sameSize sameDisk sameMap sameFile mapOpen
    · intro other opened
      exact ownerOpen (Nat.lt_of_lt_of_le opened (le_hold refs _ other))
    · rw [← dropped]
      exact sound.opens.drop last
  have others :
      ∀ other, owner closing dir entries refs other →
        owner fs dir entries (hold refs (some sector)) other ∧
          other ≠ sector := by
    intro other remaining
    unfold owner at remaining ⊢
    rw [sameDisk] at remaining
    rcases remaining with map | directory | linked | opened
    · exact ⟨Or.inl map, by rw [map]; exact Ne.symm notMap⟩
    · exact ⟨Or.inr (Or.inl directory), by rw [directory]; exact Ne.symm notDir⟩
    · refine ⟨Or.inr (Or.inr (Or.inl linked)), ?_⟩
      intro this
      rw [this] at linked
      exact notNamed linked
    · refine ⟨ownerOpen (Nat.lt_of_lt_of_le opened (le_hold refs _ other)), ?_⟩
      intro this
      rw [this] at opened
      omega
  have apart :
      ∀ other, owner closing dir entries refs other →
        ∀ place, region fs.disk other place → ¬region fs.disk sector place := by
    intro other remaining place inside
    rcases others other remaining with ⟨before, different⟩
    exact sound.layout.owned.disjoint other sector before owning different place inside
  have marked := sound.layout.owned.covered sector owning
  have firstRange : sector + 1 ≤ closing.deviceSize := by
    rw [sameSize]
    exact (marked sector (Or.inl rfl)).1
  rcases first.freeMapRelease firstRange
      (by
        intro other lower upper
        rw [sameMap]
        exact (marked other (Or.inl (by omega))).2)
      (by
        intro other remaining place inside both
        rw [sameDisk] at inside
        exact apart other remaining place inside (Or.inl (by omega))) with
    ⟨middle, freed, second, undisturbed, bits⟩
  have length := first.dirLength
  have secondRange :
      (diskInode fs.disk sector).start +
          sectorsFor (diskInode fs.disk sector).length.toNat ≤
        middle.deviceSize := by
    rw [undisturbed.size, sameSize]
    exact within.onDevice
  rcases second.freeMapRelease secondRange
      (by
        intro other lower upper
        have different : other ≠ sector := by
          intro this
          rw [this] at lower upper
          exact plain ⟨lower, upper⟩
        rw [bits, if_neg (by omega), sameMap]
        exact (marked other (Or.inr ⟨lower, upper⟩)).2)
      (by
        intro other remaining place inside both
        have before := (undisturbed.owner_iff length).mp remaining
        unfold region at inside
        rw [undisturbed.diskInode_eq before, sameDisk] at inside
        exact apart other before place inside (Or.inr both)) with
    ⟨after, freedData, third, again, dataBits⟩
  refine ⟨after, ?_, third, ?_, ?_, ?_⟩
  · have sectors := sound.layout.bytesToSectors_eq owning
    simp only [Fs.inodeClose, there, Option.bind_some, count, held,
      Nat.add_sub_cancel, if_pos last, removed, if_true, dropped, data,
      sameSector, sectors]
    show (closing.freeMapRelease sector 1 true).bind _ = _
    rw [freed, Option.bind_some]
    exact freedData
  · rw [again.size, undisturbed.size, sameSize]
  · have unchanged : OpensKept fs closing refs := OpensKept.of_disk sameDisk
    exact unchanged.trans (undisturbed.opensKept.trans again.opensKept)
  · intro place
    rw [dataBits, bits, sameMap]
    unfold region inExtent
    split
    · simp_all
    · split
      · simp_all
        omega
      · simp_all
        omega

/-- A file that has been created and is not named yet. -/
structure Unlinked (fs : Fs) (dir entries : Nat) (refs : Nat → Nat)
    (sector : Nat) : Prop where
  layout : Layout fs fun other => other = sector ∨ owner fs dir entries refs other
  fresh : ¬owner fs dir entries refs sector

theorem entryOf_writeDirSlot {disk e : Memory} {i j : Nat}
    (same : diskInode (writeSlot disk (diskInode disk dir).start i e) dir = diskInode disk dir) :
    entryOf
        (dirSlot (writeSlot disk (diskInode disk dir).start i e) dir j) =
      if j = i then entryOf e else entryOf (dirSlot disk dir j) := by
  rw [dirSlot, same]
  exact entryOf_writeSlot disk e (diskInode disk dir).start i j

/-- Writing a slot touches the data of the directory only. -/
theorem writeSlot_agree (sound : FsSound fs dir entries refs) {i : Nat}
    (inside : i < entries) (e : Memory) {place : Nat}
    (outside : ¬inExtent (diskInode fs.disk dir) place) :
    SectorAgree (writeSlot fs.disk (diskInode fs.disk dir).start i e) fs.disk
      place := by
  apply sectorAgree_write _ outside
  rw [sound.dirLength]
  unfold direntSize
  omega

theorem writeSlot_opensKept (sound : FsSound fs dir entries refs) {i : Nat}
    (inside : i < entries) (e : Memory)
    (newDisk : after.disk = writeSlot fs.disk (diskInode fs.disk dir).start i e) :
    OpensKept fs after refs := by
  intro sector opened
  rw [newDisk]
  apply diskInode_congr
  apply sound.writeSlot_agree inside e
  exact sound.layout.outside (ownerOpen opened) ownerDir

/-- A slot is written: what it says now is all that has to be checked. -/
theorem rewrite (sound : FsSound fs dir entries refs) (after : Fs) {i : Nat}
    {e : Memory} (inside : i < entries) (sameSize : after.deviceSize = fs.deviceSize)
    (newDisk : after.disk = writeSlot fs.disk (diskInode fs.disk dir).start i e)
    (sameMap : after.freeMap = fs.freeMap) (sameFile : after.freeMapFile = fs.freeMapFile)
    {owners : Nat → Prop} (layout : Layout fs owners)
    (more : ∀ sector, owner fs dir entries refs sector → owners sector)
    (terminated : entryInUse e = true → Terminated e)
    (linked :
      ∀ name sector, entryOf e = some (name, sector) →
        owners sector ∧ sector ≠ freeMapSector ∧ sector ≠ dir ∧
          ∀ j other old, j < entries → j ≠ i →
            entryOf (dirSlot fs.disk dir j) = some (other, old) → other ≠ name ∧ old ≠ sector)
    (opens :
      (∀ sector, owners sector →
          diskInode after.disk sector = diskInode fs.disk sector) →
        (∀ sector,
            named after.disk dir entries sector ↔
              (∃ name, entryOf e = some (name, sector)) ∨
                ∃ j name, j < entries ∧ j ≠ i ∧
                  entryOf (dirSlot fs.disk dir j) = some (name, sector)) →
          OpenSound after.openInodes refs (fun _ => 0)
            (faithful after.disk dir entries)) :
    FsSound after dir entries refs := by
  have length := sound.dirLength
  have agree :
      ∀ place, ¬inExtent (diskInode fs.disk dir) place →
        SectorAgree after.disk fs.disk place := by
    intro place outside
    rw [newDisk]
    exact sound.writeSlot_agree inside e outside
  have inodes : ∀ sector, owners sector → SectorAgree after.disk fs.disk sector :=
    fun sector here => agree sector (layout.outside here (more dir ownerDir))
  have sameInode :
      ∀ sector, owners sector →
        diskInode after.disk sector = diskInode fs.disk sector :=
    fun sector here => diskInode_congr (inodes sector here)
  have sameDir := sameInode dir (more dir ownerDir)
  have sameMapInode := sameInode freeMapSector (more freeMapSector ownerMap)
  have entry : ∀ j,
        entryOf (dirSlot after.disk dir j) =
          if j = i then entryOf e else entryOf (dirSlot fs.disk dir j) := by
    intro j
    rw [newDisk] at sameDir ⊢
    exact entryOf_writeDirSlot sameDir
  have namedNow : ∀ sector,
        named after.disk dir entries sector ↔
          (∃ name, entryOf e = some (name, sector)) ∨
            ∃ j name, j < entries ∧ j ≠ i ∧
              entryOf (dirSlot fs.disk dir j) = some (name, sector) := by
    intro sector
    constructor
    · intro here
      rcases here with ⟨j, name, bound, said⟩
      rw [entry] at said
      by_cases this : j = i
      · rw [if_pos this] at said
        exact Or.inl ⟨name, said⟩
      · rw [if_neg this] at said
        exact Or.inr ⟨j, name, bound, this, said⟩
    · intro here
      rcases here with ⟨name, said⟩ | ⟨j, name, bound, different, said⟩
      · refine ⟨i, name, inside, ?_⟩
        rw [entry, if_pos rfl]
        exact said
      · refine ⟨j, name, bound, ?_⟩
        rw [entry, if_neg different]
        exact said
  have mapData :
      ∀ place, inExtent (diskInode fs.disk freeMapSector) place →
        SectorAgree after.disk fs.disk place := by
    intro place there
    apply agree
    intro here
    exact
      sound.layout.owned.disjoint dir freeMapSector ownerDir ownerMap
        sound.different place (Or.inr here) (Or.inr there)
  constructor
  · have kept : Layout after owners := by
      apply layout.change sameSize _ inodes
      · intro sector here place there
        rw [sameMap]
        exact (layout.owned.covered sector here place there).2
      · rw [sameMap]
        exact layout.size
    apply kept.mono
    intro sector here
    rcases here with map | directory | written | opened
    · exact more sector (Or.inl map)
    · exact more sector (Or.inr (Or.inl directory))
    · rcases (namedNow sector).mp written with ⟨name, said⟩ | ⟨j, name, bound, -, said⟩
      · exact (linked name sector said).1
      · exact more sector (Or.inr (Or.inr (Or.inl ⟨j, name, bound, said⟩)))
    · exact more sector (ownerOpen opened)
  · rw [sameFile]
    exact sound.mapFile
  · exact sound.mapOpen
  · rw [sameMapInode, sameSize]
    exact sound.mapLength
  · have kept :=
      storedMap_congr sameSize sameMapInode sound.mapLength mapData
    intro idx inside
    rw [sameSize] at inside
    rw [kept, sameMap]
    exact sound.saved idx inside
  · exact sound.different
  · rw [sameDir]
    exact length
  · rw [sameDir, newDisk]
    apply sound.slots.write i terminated
    intro name sector said j other bound different before
    exact ((linked name sector said).2.2.2 j name other bound different before).1 rfl
  · intro j k name other sector first second here there
    rw [entry] at here there
    by_cases thisJ : j = i
    · by_cases thisK : k = i
      · exact thisJ.trans thisK.symm
      · rw [if_pos thisJ] at here
        rw [if_neg thisK] at there
        exact
          absurd rfl ((linked name sector here).2.2.2 k other sector second thisK there).2
    · rw [if_neg thisJ] at here
      by_cases thisK : k = i
      · rw [if_pos thisK] at there
        exact
          absurd rfl ((linked other sector there).2.2.2 j name sector first thisJ here).2
      · rw [if_neg thisK] at there
        exact sound.linkedOnce j k name other sector first second here there
  · intro sector here
    rcases (namedNow sector).mp here with ⟨name, said⟩ | ⟨j, name, bound, -, said⟩
    · exact ⟨(linked name sector said).2.1, (linked name sector said).2.2.1⟩
    · exact sound.linkedPlain sector ⟨j, name, bound, said⟩
  · exact opens sameInode namedNow

/-- `dir_add` names a file that has been created, or changes nothing. -/
theorem dirAdd (sound : FsSound fs dir entries refs) (opened : 0 < refs dir)
    {handle : Dir} (same : handle.inode = dir) {name : List UInt8}
    (text : 0 ∉ name) (unlinked : Unlinked fs dir entries refs sector) :
    fs.dirAdd handle name sector .plenty = some (fs, false) ∨
      ∃ after,
        fs.dirAdd handle name sector .plenty = some (after, true) ∧
          FsSound after dir entries refs ∧ OpensKept fs after refs ∧
            after.deviceSize = fs.deviceSize ∧
              after.freeMap = fs.freeMap := by
  have onDevice := (unlinked.layout.used (Or.inl rfl)).1
  have small : sector < unsignedModulus := by
    have bound := sound.layout.small
    unfold deviceLimit blockSectorSize at bound
    unfold unsignedModulus
    omega
  have ready := sound.ready opened
  rw [← same] at ready
  rcases ready.dirAdd (same ▸ sound.slots) text small with
    ⟨-, failed⟩ | ⟨⟨-, -, absent⟩, i, e, inside, free, entry, added⟩
  · exact Or.inl failed
  · right
    rw [same] at added
    refine ⟨_, added, ?_, sound.writeSlot_opensKept inside e rfl, rfl, rfl⟩
    have fresh := unlinked.fresh
    have notNamed : ¬named fs.disk dir entries sector := fun here =>
      fresh (Or.inr (Or.inr (Or.inl here)))
    rw [same] at absent
    apply
      sound.rewrite
        (fs.setDisk (writeSlot fs.disk (diskInode fs.disk dir).start i e))
        inside rfl rfl rfl rfl unlinked.layout (fun other here => Or.inr here)
        (fun _ => entry.2)
    · intro other said here
      rw [entry.1] at here
      cases here
      refine ⟨Or.inl rfl, fun map => fresh (Or.inl map),
        fun directory => fresh (Or.inr (Or.inl directory)), ?_⟩
      intro j other old bound different said
      constructor
      · rintro rfl
        exact absent j old bound said
      · rintro rfl
        exact notNamed ⟨j, other, bound, said⟩
    · intro sameInode namedNow
      apply sound.opens.mono
      intro other removed data held fine
      rcases fine with ⟨sameData, clear⟩
      have sameNames :
          named
              (fs.setDisk (writeSlot fs.disk (diskInode fs.disk dir).start i e)).disk dir
              entries other ↔
            named fs.disk dir entries other := by
        rw [namedNow]
        constructor
        · intro here
          rcases here with ⟨_, said⟩ | ⟨j, before, bound, -, said⟩
          · rw [entry.1] at said
            cases said
            exact absurd (ownerOpen held) fresh
          · exact ⟨j, before, bound, said⟩
        · intro here
          rcases here with ⟨j, before, bound, said⟩
          refine Or.inr ⟨j, before, bound, ?_, said⟩
          rintro rfl
          rw [same] at free
          have empty : entryOf (dirSlot fs.disk dir j) = none := free
          rw [empty] at said
          cases said
      constructor
      · rw [sameInode other (Or.inr (ownerOpen held))]
        exact sameData
      · rw [sameNames]
        exact clear

/-- `dir_remove` takes the name away; the sectors become free when nobody has
the file open. -/
theorem dirRemove (sound : FsSound fs dir entries refs)
    (opened : 0 < refs dir) {handle : Dir} (same : handle.inode = dir)
    {name : List UInt8} (text : 0 ∉ name) :
    ∃ after success,
      fs.dirRemove handle name .plenty = some (after, success) ∧
        FsSound after dir entries refs ∧ OpensKept fs after refs ∧
          after.deviceSize = fs.deviceSize := by
  have ready := sound.ready opened
  rw [← same] at ready
  rcases ready.dirRemove (same ▸ sound.slots) text with
    ⟨i, sector, e, inside, here, cleared, removed⟩ | ⟨-, failed⟩
  · rw [same] at here removed
    have linked : named fs.disk dir entries sector := ⟨i, name, inside, here⟩
    have owning : owner fs dir entries refs sector := Or.inr (Or.inr (Or.inl linked))
    rcases sound.linkedPlain sector linked with ⟨notMap, notDir⟩
    rcases sound.inodeOpen owning with ⟨middle, opening, held, sameSize, sameDisk, sameMap⟩
    rw [removed, opening, Option.bind_some]
    generalize written :
      (middle.setDisk
            (writeSlot middle.disk (diskInode fs.disk dir).start i e)).inodeRemove
          sector =
        marked
    have here' : entryOf (dirSlot middle.disk dir i) = some (name, sector) := by
      rw [sameDisk]
      exact here
    have unnamed :
        ∀ j other, j < entries → j ≠ i →
          entryOf (dirSlot middle.disk dir j) ≠ some (other, sector) := by
      intro j other bound different said
      exact different (held.linkedOnce j i other name sector bound inside said here')
    have nothing : ∀ other old, entryOf e ≠ some (other, old) := by
      intro other old said
      rw [cleared] at said
      cases said
    have sizeMarked : marked.deviceSize = middle.deviceSize := by
      rw [← written]
      rfl
    have diskMarked :
        marked.disk = writeSlot middle.disk (diskInode middle.disk dir).start i e := by
      rw [← written, sameDisk]
      rfl
    have mapMarked : marked.freeMap = middle.freeMap := by
      rw [← written]
      rfl
    have fileMarked : marked.freeMapFile = middle.freeMapFile := by
      rw [← written]
      rfl
    have kept : FsSound marked dir entries (hold refs (some sector)) := by
      apply
        held.rewrite marked inside sizeMarked diskMarked mapMarked fileMarked
          held.layout (fun _ before => before)
      · intro inUse
        rw [entryOf, if_pos inUse] at cleared
        cases cleared
      · intro other old said
        exact absurd said (nothing other old)
      · intro sameInode namedNow
        have gone : ¬named marked.disk dir entries sector := by
          intro again
          rcases (namedNow sector).mp again with
            ⟨before, said⟩ | ⟨j, before, bound, different, said⟩
          · exact nothing before sector said
          · exact unnamed j before bound different said
        have others :
            ∀ other, other ≠ sector →
              (named marked.disk dir entries other ↔ named middle.disk dir entries other) := by
          intro other distinct
          rw [namedNow]
          constructor
          · intro again
            rcases again with ⟨before, said⟩ | ⟨j, before, bound, -, said⟩
            · exact absurd said (nothing before other)
            · exact ⟨j, before, bound, said⟩
          · intro again
            rcases again with ⟨j, before, bound, said⟩
            refine Or.inr ⟨j, before, bound, ?_, said⟩
            rintro rfl
            rw [here'] at said
            cases said
            exact distinct rfl
        have still :
            OpenSound middle.openInodes (hold refs (some sector))
              (fun _ => 0) fun other removed data =>
                data = diskInode marked.disk other ∧
                  (removed = true ↔
                    other ≠ freeMapSector ∧ other ≠ dir ∧
                      ¬named middle.disk dir entries other) := by
          apply held.opens.mono
          intro other flag data count fine
          rcases fine with ⟨sameData, clear⟩
          constructor
          · rw [sameInode other (ownerOpen count)]
            exact sameData
          · exact clear
        rw [← written] at still gone others ⊢
        apply OpenSound.update still
        · intro inode
          rfl
        · have count := hold_self refs sector
          omega
        · intro inode count denied fine
          refine ⟨count, denied, fine.1, ?_⟩
          constructor
          · intro flag
            exact ⟨notMap, notDir, gone⟩
          · intro unlinked
            rfl
        · intro other different
          refine ⟨rfl, rfl, fun removed data fine => ⟨fine.1, ?_⟩⟩
          rw [others other different]
          exact fine.2
    have closes : ∃ after,
          marked.inodeClose (some sector) always = some after ∧
            FsSound after dir entries refs ∧ OpensKept marked after refs ∧
              after.deviceSize = marked.deviceSize := by
      rcases Nat.eq_zero_or_pos (refs sector) with last | more
      · have count := hold_self refs sector
        rcases held.opens.find (show 0 < hold refs (some sector) sector by omega)
          with ⟨found, there, atSector, -⟩
        have flagged : marked.findInode sector = some { found with removed := true } := by
          rw [← written, Fs.inodeRemove, Fs.findInode_updateInode]
          · have unchanged : ∀ disk, (middle.setDisk disk).findInode sector = some found :=
              fun _ => there
            rw [unchanged, Option.map_some, if_pos atSector]
          · intro inode
            rfl
        rcases kept.inodeClose_last sound.mapOpen last flagged rfl with
          ⟨after, closed, result, size, unchanged, -⟩
        exact ⟨after, closed, result, unchanged, size⟩
      · rcases kept.inodeClose_keep sound.mapOpen (Or.inl more) with
          ⟨after, closed, result, size, sameClosed, -⟩
        exact ⟨after, closed, result, OpensKept.of_disk sameClosed, size⟩
    rcases closes with ⟨after, closed, result, unchanged, size⟩
    refine ⟨after, true, ?_, result, ?_, ?_⟩
    · rw [closed, Option.map_some]
    · have opening : OpensKept fs middle refs := OpensKept.of_disk sameDisk
      have clearing : OpensKept middle marked refs :=
        (held.writeSlot_opensKept inside e diskMarked).mono (le_hold refs (some sector))
      exact opening.trans (clearing.trans unchanged)
    · rw [size, sizeMarked, sameSize]
  · exact ⟨fs, false, failed, sound, OpensKept.of_disk rfl, rfl⟩

/-- Writing to a file that is open and neither the free map nor the
directory. -/
theorem inodeWriteAt (sound : FsSound fs dir entries refs)
    (opened : 0 < refs sector) (notMap : sector ≠ freeMapSector)
    (notDir : sector ≠ dir) (buffer : Memory) (size : Int) (offset : Nat) :
    ∃ after count,
      fs.inodeWriteAt sector true buffer size offset = some (after, count) ∧
        FsSound after dir entries refs ∧
          Undisturbed fs after dir entries refs ∧
            after.freeMap = fs.freeMap := by
  have owning : owner fs dir entries refs sector := ownerOpen opened
  rcases sound.opens.find opened with ⟨found, there, -, -, allowed, data, -⟩
  have within := sound.layout.within sector owning
  rw [← data] at within
  have written :
      fs.inodeWriteAt sector true buffer size offset =
        some
          (fs.setDisk
              (fs.disk.splice (found.data.start * blockSectorSize + offset)
                (Fs.moveCount found.data size offset) buffer),
            Fs.moveCount found.data size offset) :=
    Fs.inodeWriteAt_eq there allowed within
  have agree :
      ∀ place, ¬inExtent (diskInode fs.disk sector) place →
        SectorAgree
          (fs.disk.splice (found.data.start * blockSectorSize + offset)
            (Fs.moveCount found.data size offset) buffer)
          fs.disk place := by
    intro place outside
    rw [← data] at outside
    apply sectorAgree_write _ outside
    unfold Fs.moveCount
    omega
  have elsewhere :
      ∀ other, owner fs dir entries refs other → other ≠ sector →
        ∀ place, region fs.disk other place →
          ¬inExtent (diskInode fs.disk sector) place := by
    intro other here different place inside mine
    exact sound.layout.owned.disjoint other sector here owning different place inside (Or.inr mine)
  generalize stored :
    fs.setDisk
        (fs.disk.splice (found.data.start * blockSectorSize + offset)
          (Fs.moveCount found.data size offset) buffer) =
      after at written
  have newDisk :
      after.disk =
        fs.disk.splice (found.data.start * blockSectorSize + offset)
          (Fs.moveCount found.data size offset) buffer := by
    rw [← stored]
    rfl
  have sameSize : after.deviceSize = fs.deviceSize := by
    rw [← stored]
    rfl
  have sameMap : after.freeMap = fs.freeMap := by
    rw [← stored]
    rfl
  have same : SameInodes fs after := by
    rw [← stored]
    exact ⟨rfl, rfl⟩
  rw [← newDisk] at agree
  have undisturbed : Undisturbed fs after dir entries refs := by
    constructor
    · exact sameSize
    · intro other here
      exact agree other (sound.layout.outside here owning)
    · intro place inside
      exact agree place (elsewhere dir ownerDir (Ne.symm notDir) place (Or.inr inside))
  refine ⟨after, _, written, ?_, undisturbed, sameMap⟩
  apply sound.change undisturbed same
  · rw [sameMap]
    exact sound.layout.size
  · intro other here place inside
    rw [sameMap]
    exact (sound.layout.owned.covered other here place inside).2
  · apply sound.saved_of_agree undisturbed sameMap
    intro place inside
    exact
      agree place (elsewhere freeMapSector ownerMap (Ne.symm notMap) place (Or.inr inside))

/-- A sector that is taken and belongs to no file. -/
structure Taken (fs : Fs) (dir entries : Nat) (refs : Nat → Nat)
    (sector : Nat) : Prop where
  used : used fs sector
  free : ∀ owning, owner fs dir entries refs owning → ¬region fs.disk owning sector

/-- Sectors that were free do not belong to anybody. -/
theorem free_of_uniform (sound : FsSound fs dir entries refs) {start cnt : Nat}
    (uniform : fs.freeMap.Uniform start cnt false) {owning place : Nat}
    (here : owner fs dir entries refs owning) (inside : region fs.disk owning place) :
    ¬(start ≤ place ∧ place < start + cnt) := by
  intro both
  have marked := (sound.layout.owned.covered owning here place inside).2
  rw [uniform place both.1 both.2] at marked
  cases marked

/-- The inode and the data of a new file are written to sectors that nobody
owns. -/
theorem writeFile (sound : FsSound fs dir entries refs) {start : Nat}
    {length : Int} (nonneg : 0 ≤ length) (bounded : length < 2147483648)
    (taken : Taken fs dir entries refs sector)
    (range : start + sectorsFor length.toNat ≤ fs.deviceSize)
    (marked :
      ∀ place, start ≤ place → place < start + sectorsFor length.toNat →
        fs.freeMap.bit place = true)
    (free :
      ∀ owning, owner fs dir entries refs owning →
        ∀ place, region fs.disk owning place →
          ¬(start ≤ place ∧ place < start + sectorsFor length.toNat))
    (apart : ¬(start ≤ sector ∧ sector < start + sectorsFor length.toNat))
    (sameSize : after.deviceSize = fs.deviceSize)
    (newDisk : after.disk = newFileDisk fs.disk sector start length)
    (sameMap : after.freeMap = fs.freeMap) (same : SameInodes fs after) :
    FsSound after dir entries refs ∧ Undisturbed fs after dir entries refs ∧
      Unlinked after dir entries refs sector ∧
        diskInode after.disk sector = ⟨start, length, inodeMagic⟩ := by
  have small := sound.layout.small
  have agree :
      ∀ place, place ≠ sector →
        ¬(start ≤ place ∧ place < start + sectorsFor length.toNat) →
          SectorAgree after.disk fs.disk place := by
    intro place different outside
    rw [newDisk]
    exact sectorAgree_newFileDisk different outside
  have owned :
      ∀ owning, owner fs dir entries refs owning →
        ∀ place, region fs.disk owning place →
          SectorAgree after.disk fs.disk place := by
    intro owning here place inside
    apply agree place
    · rintro rfl
      exact taken.free owning here inside
    · exact free owning here place inside
  have undisturbed : Undisturbed fs after dir entries refs :=
    ⟨sameSize, fun owning here => owned owning here owning (Or.inl rfl),
      fun place inside => owned dir ownerDir place (Or.inr inside)⟩
  have written : diskInode after.disk sector = ⟨start, length, inodeMagic⟩ := by
    have startSmall : start < unsignedModulus := by
      unfold deviceLimit blockSectorSize at small
      unfold unsignedModulus
      omega
    rw [newDisk]
    exact diskInode_newFileDisk startSmall nonneg bounded apart
  have keeps : FsSound after dir entries refs := by
    apply sound.change undisturbed same
    · rw [sameMap]
      exact sound.layout.size
    · intro owning here place inside
      rw [sameMap]
      exact (sound.layout.owned.covered owning here place inside).2
    · exact sound.saved_of_agree undisturbed sameMap fun place inside =>
          owned freeMapSector ownerMap place (Or.inr inside)
  have regions :
      ∀ owning, owner after dir entries refs owning →
        owner fs dir entries refs owning ∧
          ∀ place, region after.disk owning place →
            region fs.disk owning place := by
    intro owning here
    have before := (undisturbed.owner_iff sound.dirLength).mp here
    refine ⟨before, fun place inside => ?_⟩
    unfold region at inside
    rw [undisturbed.diskInode_eq before] at inside
    exact inside
  have ownRegion :
      ∀ place, region after.disk sector place →
        place = sector ∨
          start ≤ place ∧ place < start + sectorsFor length.toNat := by
    intro place inside
    unfold region inExtent at inside
    rw [written] at inside
    exact inside
  refine ⟨keeps, undisturbed, ⟨?_, ?_⟩, written⟩
  · apply keeps.layout.insert
    · rw [written]
      constructor
      · exact nonneg
      · rw [sameSize]
        exact range
      · rw [sameSize]
        omega
    · rw [written]
      exact apart
    · intro place inside
      unfold Filesys.used
      rw [sameSize, sameMap]
      rcases ownRegion place inside with rfl | both
      · exact taken.used
      · exact ⟨by omega, marked place both.1 both.2⟩
    · intro owning here place inside mine
      rcases regions owning here with ⟨before, kept⟩
      rcases ownRegion place mine with rfl | both
      · exact taken.free owning before (kept _ inside)
      · exact free owning before place (kept place inside) both
  · intro here
    exact taken.free sector (regions sector here).1 (Or.inl rfl)

/-- The new file of `inode_create`. -/
structure Created (fs after : Fs) (dir entries : Nat) (refs : Nat → Nat)
    (sector : Nat) (length : Int) (start : Nat) : Prop where
  sound : FsSound after dir entries refs
  undisturbed : Undisturbed fs after dir entries refs
  same : SameInodes fs after
  unlinked : Unlinked after dir entries refs sector
  inode : diskInode after.disk sector = ⟨start, length, inodeMagic⟩
  cleared :
    (sectorBytes after.disk start).AgreeOn zeros 0 (sectorsFor length.toNat * blockSectorSize)
  range : start + sectorsFor length.toNat ≤ fs.deviceSize
  free : fs.freeMap.Uniform start (sectorsFor length.toNat) false
  first : ∀ earlier, earlier < start → ¬fs.freeMap.Uniform earlier (sectorsFor length.toNat) false
  bits : ∀ other,
      after.freeMap.bit other = if start ≤ other ∧ other < start + sectorsFor length.toNat then true
        else fs.freeMap.bit other

/-- `inode_create` takes the first run of free sectors that is long enough, or
changes nothing when there is none. -/
theorem inodeCreate (sound : FsSound fs dir entries refs) {length : Int}
    (nonneg : 0 ≤ length) (bounded : length < 2147483648)
    (taken : Taken fs dir entries refs sector) :
    (fs.inodeCreate sector length = some (fs, false) ∧
      ∀ other, other + sectorsFor length.toNat ≤ fs.deviceSize →
        ¬fs.freeMap.Uniform other (sectorsFor length.toNat) false) ∨
    ∃ after start,
      fs.inodeCreate sector length = some (after, true) ∧
        Created fs after dir entries refs sector length start := by
  have small := sound.layout.small
  have rounded := bytesToSectors_natCast (show length.toNat < 2147483648 by omega)
  rw [Int.toNat_of_nonneg nonneg] at rounded
  rcases sound.freeMapAllocate (bytesToSectors length) with
    ⟨failed, full⟩ | ⟨middle, start, allocated, middleSound, undisturbed, range, free, first, bits⟩
  · left
    rw [Fs.inodeCreate, if_neg (by omega), failed, Option.bind_some]
    refine ⟨rfl, ?_⟩
    intro other fits
    have sectors : bytesToSectors length = sectorsFor length.toNat := by omega
    rw [← sectors] at fits ⊢
    exact full other fits
  · right
    have sectors : bytesToSectors length = sectorsFor length.toNat := by omega
    rw [sectors] at range free first bits
    have size := undisturbed.size
    have onDevice : sector < middle.deviceSize := by
      rw [size]
      exact taken.used.1
    have creation := inodeCreate_eq nonneg allocated sectors onDevice (by omega) (by omega)
    have allocation := SameInodes.freeMapAllocate allocated
    have apart : ¬(start ≤ sector ∧ sector < start + sectorsFor length.toNat) := by
      intro both
      have marked := taken.used.2
      rw [free sector both.1 both.2] at marked
      cases marked
    have stillTaken : Taken middle dir entries refs sector := by
      constructor
      · unfold Filesys.used
        rw [size, bits, if_neg apart]
        exact taken.used
      · intro owning here inside
        have before := (undisturbed.owner_iff sound.dirLength).mp here
        unfold region at inside
        rw [undisturbed.diskInode_eq before] at inside
        exact taken.free owning before inside
    generalize finished :
      middle.setDisk (newFileDisk middle.disk sector start length) = after at creation
    have afterDisk : after.disk = newFileDisk middle.disk sector start length := by
      rw [← finished]
      rfl
    have afterMap : after.freeMap = middle.freeMap := by
      rw [← finished]
      rfl
    have afterSize : after.deviceSize = middle.deviceSize := by
      rw [← finished]
      rfl
    have sameAfter : SameInodes middle after := by
      rw [← finished]
      exact ⟨rfl, rfl⟩
    have written :=
      middleSound.writeFile nonneg bounded stillTaken (by omega)
        (by
          intro place lower upper
          rw [bits, if_pos ⟨lower, upper⟩])
        (by
          intro owning here place inside
          have before := (undisturbed.owner_iff sound.dirLength).mp here
          unfold region at inside
          rw [undisturbed.diskInode_eq before] at inside
          exact sound.free_of_uniform free before inside)
        apart afterSize afterDisk afterMap sameAfter
    refine ⟨after, start, creation, ?_⟩
    constructor
    · exact written.1
    · exact undisturbed.trans written.2.1 sound.dirLength
    · exact allocation.trans sameAfter
    · exact written.2.2.1
    · exact written.2.2.2
    · intro place lower upper
      rw [sectorBytes, afterDisk, Memory.drop]
      exact Memory.splice_apply_add upper
    · exact range
    · exact free
    · exact first
    · rw [afterMap]
      exact bits

end FsSound

end CS162.Filesys

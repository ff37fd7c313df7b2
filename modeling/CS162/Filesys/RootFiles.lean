import CS162.Filesys.DirectoryMap
import CS162.Filesys.FreshDevice
import CS162.Lib.Stdio

/-!
# The files of the root directory

The names in the root directory with the bytes of their files, and what
creating, opening, writing and closing a file does to them.
-/

namespace CS162.Filesys

open CS162.Foundation
open CS162.Kernel
open CS162.Lib
open CS162.Devices (blockSectorSize)

open FsSound (Undisturbed Created)

/-- The bytes of the file whose inode is in a sector. -/
def fileContents (disk : Memory) (sector : Nat) : List UInt8 :=
  let data := diskInode disk sector
  readBytes disk (data.start * blockSectorSize) data.length.toNat

/-- The names in the root directory, each with the sector of its inode. -/
def rootNames (disk : Memory) : List (List UInt8 × Nat) :=
  dirContents disk (diskInode disk rootDirSector).start rootEntries

/-- The names in the root directory, each with the bytes of its file. -/
def rootFiles (disk : Memory) : List (List UInt8 × List UInt8) :=
  (rootNames disk).map fun entry => (entry.1, fileContents disk entry.2)

section Contents

variable {disk disk' disk'' : Memory} {sector : Nat}

theorem fileContents_congr (same : SameContents disk disk' sector) :
    fileContents disk' sector = fileContents disk sector := by
  have inode := diskInode_congr same.inode
  have bytes := agreeOn_of_extent same.data
  rw [fileContents, fileContents, inode]
  apply readBytes_congr
  intro offset inside
  exact bytes _ (Nat.le_add_right _ _) (Nat.add_lt_add_left inside _)

theorem SameContents.trans (first : SameContents disk disk' sector)
    (second : SameContents disk' disk'' sector) :
    SameContents disk disk'' sector where
  inode := second.inode.trans first.inode
  data := by
    intro place inside
    have there : inExtent (diskInode disk' sector) place := by
      rw [diskInode_congr first.inode]
      exact inside
    exact (second.data place there).trans (first.data place inside)

/-- The sectors of a file are as they were when none of them has changed. -/
theorem sameContents_of_outside {changed : Nat → Prop}
    (agree : ∀ place, ¬changed place → SectorAgree disk' disk place)
    (apart : ∀ place, region disk sector place → ¬changed place) :
    SameContents disk disk' sector where
  inode := agree sector (apart sector (Or.inl rfl))
  data := fun place inside => agree place (apart place (Or.inr inside))

theorem mem_rootNames {entry : List UInt8 × Nat} :
    entry ∈ rootNames disk ↔
      ∃ i, i < rootEntries ∧ entryOf (dirSlot disk rootDirSector i) = some entry :=
  mem_dirContents

theorem named_of_mem {entry : List UInt8 × Nat} (member : entry ∈ rootNames disk) :
    named disk rootDirSector rootEntries entry.2 := by
  rcases mem_rootNames.mp member with ⟨i, inside, here⟩
  exact ⟨i, entry.1, inside, here⟩

theorem length_rootFiles : (rootFiles disk).length = (rootNames disk).length := List.length_map _

end Contents

namespace RootSound

variable {fs after : Fs} {refs : Nat → Nat} {name : List UInt8} {sector : Nat}

theorem nodup_rootNames (sound : RootSound fs refs) : ((rootNames fs.disk).map Prod.fst).Nodup :=
  nodup_dirContents (FsSound.slots sound)

/-- No two names are those of one file. -/
theorem nodup_rootSectors (sound : RootSound fs refs) :
    ((rootNames fs.disk).map Prod.snd).Nodup := by
  apply nodup_map_slotContents
  intro i j first second _ before inside here there same
  have equal := FsSound.linkedOnce sound i j first.1 second.1 first.2
    (by omega) (by omega) here (by rw [same]; exact there)
  omega

/-- A name is listed once. -/
theorem sector_unique (sound : RootSound fs refs) {first second : Nat}
    (here : (name, first) ∈ rootNames fs.disk)
    (there : (name, second) ∈ rootNames fs.disk) : first = second := by
  have once := sound.nodup_rootNames
  have pairs := List.inj_on_of_nodup_map once here there rfl
  exact congrArg Prod.snd pairs

theorem plain_of_mem (sound : RootSound fs refs)
    {entry : List UInt8 × Nat} (member : entry ∈ rootNames fs.disk) :
    entry.2 ≠ freeMapSector ∧ entry.2 ≠ rootDirSector :=
  FsSound.linkedPlain sound entry.2 (named_of_mem member)

theorem owner_of_mem {entry : List UInt8 × Nat} (member : entry ∈ rootNames fs.disk) :
    owner fs rootDirSector rootEntries refs entry.2 :=
  Or.inr (Or.inr (Or.inl (named_of_mem member)))

theorem rootNames_of_undisturbed (sound : RootSound fs refs)
    (undisturbed : Undisturbed fs after rootDirSector rootEntries refs) :
    rootNames after.disk = rootNames fs.disk := by
  rw [rootNames, rootNames, undisturbed.diskInode_eq FsSound.ownerDir]
  apply dirContents_congr
  intro i inside
  exact undisturbed.slot_agreeOn (FsSound.dirLength sound) inside

/-- Two files that matter have no sector in common. -/
theorem apart (sound : RootSound fs refs) {other : Nat}
    (here : owner fs rootDirSector rootEntries refs sector)
    (there : owner fs rootDirSector rootEntries refs other)
    (different : sector ≠ other) {place : Nat} (inside : region fs.disk sector place) :
    ¬inExtent (diskInode fs.disk other) place := by
  intro taken
  exact (FsSound.layout sound).owned.disjoint sector other here there different
    place inside (Or.inr taken)

end RootSound

section Frames

variable {fs after : Fs} {dir entries sector cnt start : Nat}
variable {refs : Nat → Nat} {length : Int}

/-- `free_map_allocate` touches the free map file only. -/
theorem freeMapAllocate_agree (sound : FsSound fs dir entries refs)
    (allocated : fs.freeMapAllocate cnt = some (after, some start)) {place : Nat}
    (outside : ¬inExtent (diskInode fs.disk freeMapSector) place) :
    SectorAgree after.disk fs.disk place := by
  rcases sound.map.freeMapAllocate cnt with ⟨failed, -⟩ | ⟨found, map, succeeded, size, -⟩
  · rw [failed] at allocated
    cases allocated
  · rw [succeeded] at allocated
    cases allocated
    apply FsSound.sectorAgree_withMap fs _ outside
    rw [sound.mapLength, size]
    omega

/-- `inode_create` touches the free map file and the new file only. -/
theorem inodeCreate_agree (sound : FsSound fs dir entries refs)
    (taken : FsSound.Taken fs dir entries refs sector) (nonneg : 0 ≤ length)
    (bounded : length < 2147483648)
    (creation : fs.inodeCreate sector length = some (after, true)) {place : Nat}
    (notMap : ¬inExtent (diskInode fs.disk freeMapSector) place) (different : place ≠ sector)
    (outside : ¬inExtent (diskInode after.disk sector) place) :
    SectorAgree after.disk fs.disk place := by
  rcases inodeCreate_allocated creation with ⟨middle, start, allocated, onDevice, -⟩
  have frame := freeMapAllocate_agree sound allocated notMap
  have rounded := bytesToSectors_natCast (show length.toNat < 2147483648 by omega)
  rw [Int.toNat_of_nonneg nonneg] at rounded
  rcases sound.freeMapAllocate (bytesToSectors length) with
    ⟨failed, -⟩ | ⟨found, first, succeeded, -, undisturbed, range, free, -⟩
  · rw [failed] at allocated
    cases allocated
  · rw [succeeded] at allocated
    cases allocated
    have limit := sound.layout.small
    have sectors : bytesToSectors length = sectorsFor length.toNat := by omega
    have size := undisturbed.size
    rw [sectors] at range free
    have apart : ¬(start ≤ sector ∧ sector < start + sectorsFor length.toNat) := by
      intro both
      have marked := taken.used.2
      rw [free sector both.1 both.2] at marked
      cases marked
    have startSmall : start < unsignedModulus := by
      unfold deviceLimit blockSectorSize at limit
      unfold unsignedModulus
      omega
    have equation := inodeCreate_eq nonneg succeeded sectors onDevice
      (by rw [size]; exact range) (by rw [size]; exact limit)
    rw [equation] at creation
    generalize made :
      middle.setDisk (newFileDisk middle.disk sector start length) = result
        at creation
    cases creation
    have disk : after.disk = newFileDisk middle.disk sector start length := by
      rw [← made]
      rfl
    have inode : diskInode after.disk sector = ⟨start, length, inodeMagic⟩ := by
      rw [disk]
      exact diskInode_newFileDisk startSmall nonneg bounded apart
    unfold inExtent at outside
    rw [inode] at outside
    apply Memory.AgreeOn.trans _ frame
    rw [disk]
    exact sectorAgree_newFileDisk different outside

end Frames

/-- A file has come to those of the root directory, which keep their bytes. -/
structure FileMade (fs after : Fs) (name : List UInt8) (sector : Nat)
    (contents : List UInt8) : Prop where
  names : (rootNames after.disk).Perm ((name, sector) :: rootNames fs.disk)
  contents : fileContents after.disk sector = contents
  others : ∀ entry ∈ rootNames fs.disk,
      fileContents after.disk entry.2 = fileContents fs.disk entry.2

section Creation

variable {fs middle next after : Fs} {refs : Nat → Nat} {name : List UInt8}
variable {count size sector start : Nat}

/-- A new file holds null bytes. -/
theorem fileContents_created {dir entries : Nat}
    (created : Created fs next dir entries refs sector (size : Nat) start) :
    fileContents next.disk sector = List.replicate size 0 := by
  have bound := le_divRoundUp_mul size (show 0 < blockSectorSize by decide)
  rw [fileContents, created.inode]
  simp only [Int.toNat_natCast]
  apply List.ext_getElem
  · rw [length_readBytes, List.length_replicate]
  · intro offset inside _
    rw [length_readBytes] at inside
    rw [List.getElem_replicate, getElem_readBytes]
    have clear := created.cleared offset (Nat.zero_le _) (by
      rw [Int.toNat_natCast]
      unfold sectorsFor
      omega)
    exact clear

/-- The first step of `filesys_create` takes the sector behind those in
use. -/
theorem SectorTaken.sector_eq {dir entries : Nat} (compact : Compact fs count)
    (onDevice : count < fs.deviceSize)
    (step : SectorTaken fs middle dir entries refs sector) : sector = count := by
  have free := step.first.free
  rw [compact.bits sector step.first.onDevice] at free
  have behind := of_decide_eq_false free
  by_contra different
  have marked := step.first.first count (by omega)
  rw [compact.bits count onDevice, decide_eq_false (Nat.lt_irrefl count)] at marked
  cases marked

/-- Adding a name to the root directory. -/
theorem dirAdd_made (sound : RootSound next refs)
    (opened : 0 < refs rootDirSector) (text : 0 ∉ name) (some_name : name ≠ [])
    (short : name.length ≤ nameMax) (fresh : name ∉ (rootNames next.disk).map Prod.fst)
    (room : (rootNames next.disk).length < rootEntries)
    (unlinked : FsSound.Unlinked next rootDirSector rootEntries refs sector) :
    ∃ after,
      next.dirAdd rootDir name sector .plenty = some (after, true) ∧
        RootSound after refs ∧ after.deviceSize = next.deviceSize ∧
          after.freeMap = next.freeMap ∧
            FileMade next after name sector (fileContents next.disk sector) := by
  have ready : DirReady next rootDir.inode
      (diskInode next.disk rootDirSector).start rootEntries :=
    FsSound.ready sound opened
  have small : sector < unsignedModulus := by
    have onDevice := (unlinked.layout.used (Or.inl rfl)).1
    have limit := (FsSound.layout sound).small
    unfold deviceLimit blockSectorSize at limit
    unfold unsignedModulus
    omega
  have absent : ∀ i other, i < rootEntries →
      entryOf (dirSlot next.disk rootDirSector i) ≠ some (name, other) := by
    intro i other inside here
    apply fresh
    exact List.mem_map.mpr ⟨(name, other), mem_rootNames.mpr ⟨i, inside, here⟩, rfl⟩
  rcases ready.dirAdd (FsSound.slots sound) text small with
    ⟨refused, -⟩ | ⟨-, i, e, inside, free, ⟨entry, -⟩, added⟩
  · exfalso
    rcases refused with empty | long | ⟨i, other, inside, here⟩ | full
    · exact some_name empty
    · omega
    · exact absent i other inside here
    · rcases length_dirContents_lt_iff.mp room with ⟨i, inside, free⟩
      exact full i inside free
  · have atRoot : rootDir.inode = rootDirSector := rfl
    rcases FsSound.dirAdd sound opened atRoot text unlinked with
      failed | ⟨after, again, kept, -, size, map⟩
    · rw [added] at failed
      have differs : true = false := congrArg Prod.snd (Option.some.inj failed)
      cases differs
    · rw [added] at again
      have written : next.setDisk (writeSlot next.disk
          (diskInode next.disk rootDirSector).start i e) = after :=
        congrArg Prod.fst (Option.some.inj again)
      rw [written] at added
      have disk : after.disk = writeSlot next.disk
          (diskInode next.disk rootDirSector).start i e := by
        rw [← written]
        rfl
      have agree : ∀ place,
          ¬inExtent (diskInode next.disk rootDirSector) place →
            SectorAgree after.disk next.disk place := by
        intro place outside
        rw [disk]
        exact FsSound.writeSlot_agree sound inside e outside
      have layout := unlinked.layout
      have inode : diskInode after.disk rootDirSector = diskInode next.disk rootDirSector := by
        apply diskInode_congr
        exact agree _ ((FsSound.layout sound).outside FsSound.ownerDir FsSound.ownerDir)
      have different : sector ≠ rootDirSector := by
        intro same
        apply unlinked.fresh
        rw [same]
        exact FsSound.ownerDir
      refine ⟨after, added, kept, size, map, ?_, ?_, ?_⟩
      · rw [rootNames, inode, disk]
        exact dirContents_fill inside free entry
      · apply fileContents_congr
        apply sameContents_of_outside agree
        intro place mine taken
        exact layout.owned.disjoint sector rootDirSector (Or.inl rfl)
          (Or.inr FsSound.ownerDir) different place mine (Or.inr taken)
      · intro other member
        apply fileContents_congr
        apply sameContents_of_outside agree
        intro place mine
        exact sound.apart (RootSound.owner_of_mem member) FsSound.ownerDir
          (sound.plain_of_mem member).2 mine

/-- What `filesys_create` does with the root directory open, where there is
room. -/
theorem createIn_made (sound : RootSound fs refs)
    (opened : 0 < refs rootDirSector) (compact : Compact fs count)
    (text : 0 ∉ name) (some_name : name ≠ []) (short : name.length ≤ nameMax)
    (fresh : name ∉ (rootNames fs.disk).map Prod.fst)
    (room : (rootNames fs.disk).length < rootEntries)
    (fits : count + (1 + sectorsFor size) ≤ fs.deviceSize) :
    ∃ after,
      fs.createIn rootDir name (size : Nat) = some (after, count, true) ∧
        RootSound after refs ∧ after.deviceSize = fs.deviceSize ∧
          Compact after (count + (1 + sectorsFor size)) ∧
            FileMade fs after name count (List.replicate size 0) := by
  have limit := (FsSound.layout sound).small
  have bounded : (size : Int) < 2147483648 := by
    have whole := le_divRoundUp_mul size (show 0 < blockSectorSize by decide)
    unfold deviceLimit at limit
    unfold sectorsFor at fits
    unfold blockSectorSize at *
    omega
  have nonneg : (0 : Int) ≤ size := Int.natCast_nonneg size
  have sectors : bytesToSectors size = sectorsFor size := by
    rcases bytesToSectors_natCast (show size < 2147483648 by omega) with
      exact | ⟨-, large⟩
    · exact exact
    · omega
  rcases allocateOne sound with ⟨-, full⟩ | ⟨middle, sector, allocated, step⟩
  · have marked := full count (by omega)
    rw [compact.bits count (by omega), decide_eq_false (Nat.lt_irrefl count)] at marked
    cases marked
  · have same := step.sector_eq compact (by omega)
    rw [same] at allocated step
    have taken := compact.freeMapAllocate (FsSound.map sound).fits allocated
    have frame : ∀ place,
        ¬inExtent (diskInode fs.disk freeMapSector) place →
          SectorAgree middle.disk fs.disk place :=
      fun place => freeMapAllocate_agree sound allocated
    rcases step.sound.inodeCreate nonneg bounded step.taken with
      ⟨-, full⟩ | ⟨next, start, creation, created⟩
    · exfalso
      rw [Int.toNat_natCast] at full
      have onDevice : count + 1 + sectorsFor size ≤ middle.deviceSize := by
        rw [step.undisturbed.size]
        omega
      exact full (count + 1) onDevice (taken.room onDevice)
    · have allTaken :=
        taken.inodeCreate step.sound.map.fits creation
      rw [sectors, Nat.add_assoc] at allTaken
      have undisturbed := step.undisturbed.trans created.undisturbed (FsSound.dirLength sound)
      have sameNames := sound.rootNames_of_undisturbed undisturbed
      have later : ∀ place,
          ¬inExtent (diskInode middle.disk freeMapSector) place →
            place ≠ count → ¬inExtent (diskInode next.disk count) place →
              SectorAgree next.disk middle.disk place :=
        fun place =>
          inodeCreate_agree step.sound step.taken nonneg bounded creation
      have nextSound : RootSound next refs := created.sound
      rcases dirAdd_made nextSound opened text some_name short
          (by rw [sameNames]; exact fresh) (by rw [sameNames]; exact room)
          created.unlinked with
        ⟨after, added, kept, size', map', made⟩
      have reduce := createIn_of_created allocated creation rootDir name
      rw [added] at reduce
      refine ⟨after, reduce, kept, ?_, allTaken.congr size' map', ?_, ?_, ?_⟩
      · rw [size', undisturbed.size]
      · rw [← sameNames]
        exact made.names
      · rw [made.contents]
        exact fileContents_created created
      · intro entry member
        have there := made.others entry (by rw [sameNames]; exact member)
        rw [there]
        apply fileContents_congr
        have owning : owner fs rootDirSector rootEntries refs entry.2 :=
          RootSound.owner_of_mem member
        have notMap := (sound.plain_of_mem member).1
        have first : SameContents fs.disk middle.disk entry.2 := by
          apply sameContents_of_outside frame
          intro place mine
          exact sound.apart owning FsSound.ownerMap notMap mine
        have middleOwning := (step.undisturbed.owner_iff (FsSound.dirLength sound)).mpr owning
        have nextOwning := (undisturbed.owner_iff (FsSound.dirLength sound)).mpr owning
        apply first.trans
        have changed : ∀ place,
            ¬(inExtent (diskInode middle.disk freeMapSector) place ∨
              region next.disk count place) →
                SectorAgree next.disk middle.disk place := by
          intro place outside
          apply later place
          · exact fun inside => outside (Or.inl inside)
          · exact fun same => outside (Or.inr (Or.inl same))
          · exact fun inside => outside (Or.inr (Or.inr inside))
        apply sameContents_of_outside changed
        intro place mine outside
        have sameRegion : region next.disk entry.2 place := by
          unfold region
          rw [created.undisturbed.diskInode_eq middleOwning]
          exact mine
        rcases outside with inMap | inFile
        · exact RootSound.apart step.sound middleOwning FsSound.ownerMap notMap mine inMap
        · have different : entry.2 ≠ count := by
            intro same
            apply created.unlinked.fresh
            rw [← same]
            exact nextOwning
          exact created.unlinked.layout.owned.disjoint entry.2 count
            (Or.inr nextOwning) (Or.inl rfl) different place sameRegion inFile

/-- Without a free slot in the root directory nothing is created. -/
theorem createIn_full (sound : RootSound fs refs)
    (opened : 0 < refs rootDirSector) (text : 0 ∉ name)
    (full : ∀ i, i < rootEntries → entryOf (dirSlot fs.disk rootDirSector i) ≠ none)
    {bytes : Int} (nonneg : 0 ≤ bytes) (bounded : bytes < 2147483648) :
    ∃ done taken, fs.createIn rootDir name bytes = some (done, taken, false) := by
  rcases allocateOne sound with ⟨failed, -⟩ | ⟨middle, sector, allocated, step⟩
  · refine ⟨fs, 0, ?_⟩
    rw [Fs.createIn, failed, Option.bind_some]
  · rcases step.sound.inodeCreate nonneg bounded step.taken with
      ⟨failed, -⟩ | ⟨next, start, creation, created⟩
    · refine ⟨middle, sector, ?_⟩
      rw [Fs.createIn, allocated, Option.bind_some]
      show (middle.inodeCreate sector bytes).bind _ = _
      rw [failed, Option.bind_some]
    · have undisturbed := step.undisturbed.trans created.undisturbed (FsSound.dirLength sound)
      have ready : DirReady next rootDir.inode
          (diskInode next.disk rootDirSector).start rootEntries :=
        created.sound.ready opened
      have small : sector < unsignedModulus := by
        have onDevice := step.first.onDevice
        have limit := (FsSound.layout sound).small
        unfold deviceLimit blockSectorSize at limit
        unfold unsignedModulus
        omega
      rcases ready.dirAdd created.sound.slots text small with
        ⟨-, refused⟩ | ⟨-, i, e, inside, free, -⟩
      · refine ⟨next, sector, ?_⟩
        rw [createIn_of_created allocated creation, refused]
        rfl
      · have same := undisturbed.entryOf_eq (FsSound.dirLength sound) inside
        exact absurd (same.symm.trans free) (full i inside)

end Creation

namespace RootSound

variable {fs : Fs} {refs : Nat → Nat} {name : List UInt8}
variable {count size sector : Nat}

/-- `filesys_create` makes a file of null bytes where there is room for it. -/
theorem filesysCreate_made (sound : RootSound fs refs)
    (compact : Compact fs count) (text : 0 ∉ name) (some_name : name ≠ [])
    (short : name.length ≤ nameMax) (fresh : name ∉ (rootNames fs.disk).map Prod.fst)
    (room : (rootNames fs.disk).length < rootEntries)
    (fits : count + (1 + sectorsFor size) ≤ fs.deviceSize) :
    ∃ after,
      fs.filesysCreate name (size : Nat) = some (after, true) ∧
        RootSound after refs ∧ after.deviceSize = fs.deviceSize ∧
          Compact after (count + (1 + sectorsFor size)) ∧
            FileMade fs after name count (List.replicate size 0) := by
  rcases sound.dirOpenRoot with ⟨opened, opening, held, sameSize, sameDisk, sameMap⟩
  have dirOpen : 0 < hold refs (some rootDirSector) rootDirSector := by
    rw [hold_self]
    omega
  rcases createIn_made held dirOpen (compact.congr sameSize sameMap) text
      some_name short (by rw [sameDisk]; exact fresh)
      (by rw [sameDisk]; exact room) (by rw [sameSize]; exact fits) with
    ⟨done, creation, kept, doneSize, taken, made⟩
  rcases RootSound.dirClose kept (FsSound.mapOpen sound) with
    ⟨after, closed, result, size', disk', map'⟩
  refine ⟨after, ?_, result, ?_, taken.congr size' map', ?_⟩
  · rw [Fs.filesysCreate, opening, Option.bind_some]
    show ((opened.createIn rootDir name size).bind _) = _
    rw [creation, Option.bind_some]
    simp only [Bool.true_eq_false, false_and, if_false, Option.bind_some, closed, Option.map_some]
  · rw [size', doneSize, sameSize]
  · constructor
    · rw [disk', ← sameDisk]
      exact made.names
    · rw [disk']
      exact made.contents
    · rw [disk', ← sameDisk]
      exact made.others

/-- `filesys_create` fails when the root directory is full. -/
theorem filesysCreate_full (sound : RootSound fs refs) (text : 0 ∉ name)
    (full : rootEntries ≤ (rootNames fs.disk).length) {bytes : Int}
    (nonneg : 0 ≤ bytes) (bounded : bytes < 2147483648) :
    ∃ after, fs.filesysCreate name bytes = some (after, false) := by
  rcases sound.filesysCreate text nonneg bounded with ⟨after, success, created, -⟩
  rcases sound.dirOpenRoot with ⟨opened, opening, held, -, sameDisk, -⟩
  have dirOpen : 0 < hold refs (some rootDirSector) rootDirSector := by
    rw [hold_self]
    omega
  have noSlot : ∀ i, i < rootEntries →
      entryOf (dirSlot opened.disk rootDirSector i) ≠ none := by
    intro i inside free
    rw [sameDisk] at free
    have room := length_dirContents_lt_iff.mpr ⟨i, inside, free⟩
    rw [rootNames] at full
    omega
  rcases createIn_full held dirOpen text noSlot nonneg bounded with ⟨done, taken, creation⟩
  have result := created
  rw [Fs.filesysCreate, opening, Option.bind_some] at result
  change ((opened.createIn rootDir name bytes).bind _) = _ at result
  rw [creation, Option.bind_some] at result
  rcases Option.bind_eq_some_iff.mp result with ⟨released, -, closing⟩
  rcases Option.map_eq_some_iff.mp closing with ⟨closed, -, same⟩
  have failed : false = success := congrArg Prod.snd same
  rw [← failed] at created
  exact ⟨after, created⟩

/-- `filesys_open` of a name that the root directory has. -/
theorem filesysOpen_named (sound : RootSound fs refs) (text : 0 ∉ name)
    (listed : (name, sector) ∈ rootNames fs.disk) :
    ∃ after,
      fs.filesysOpen name .plenty = some (after, some ⟨sector, 0, false⟩) ∧
        RootSound after (hold refs (some sector)) ∧
          after.deviceSize = fs.deviceSize ∧ after.disk = fs.disk ∧
            after.freeMap = fs.freeMap := by
  rcases sound.filesysOpen text with
    ⟨after, file, opened, result, size', disk', -, map', found | absent⟩
  · rcases found with ⟨i, other, inside, here, rfl⟩
    have listedToo := mem_rootNames.mpr ⟨i, inside, here⟩
    rw [sound.sector_unique listedToo listed] at opened result
    exact ⟨after, opened, result, size', disk', map'⟩
  · rcases mem_rootNames.mp listed with ⟨i, inside, here⟩
    exact absurd here (absent i sector inside)

/-- `file_close` of a file that the root directory names. -/
theorem fileClose_named (sound : RootSound fs (hold refs (some sector)))
    (mapOpen : 0 < refs freeMapSector) (pos : Nat) (listed : (name, sector) ∈ rootNames fs.disk) :
    ∃ after,
      fs.fileClose ⟨sector, pos, false⟩ always = some after ∧
        RootSound after refs ∧ after.deviceSize = fs.deviceSize ∧
          after.disk = fs.disk ∧ after.freeMap = fs.freeMap := by
  have count := hold_self refs sector
  rcases OpenSound.find sound.opens
      (show 0 < hold refs (some sector) sector by omega) with
    ⟨found, there, -, -, -, -, unlinked⟩
  have present : found.removed = false := by
    cases flag : found.removed with
    | false => rfl
    | true => exact absurd (named_of_mem listed) (unlinked.mp flag).2.2
  rcases FsSound.inodeClose_keep sound mapOpen (Or.inr ⟨found, there, present⟩)
    with ⟨after, closed, rest⟩
  exact ⟨after, closed, rest⟩

end RootSound

/-- The state after a file has been written from its start. -/
def Fs.overwrite (fs : Fs) (sector size : Nat) (buffer : Memory) : Fs :=
  fs.setDisk (fs.disk.splice ((diskInode fs.disk sector).start * blockSectorSize) size buffer)

/-- The files of the root directory and a new one. -/
theorem FileMade.files {fs after : Fs} {name contents : List UInt8} {sector : Nat}
    (made : FileMade fs after name sector contents) :
    (rootFiles after.disk).Perm ((name, contents) :: rootFiles fs.disk) := by
  have names := made.names.map fun entry =>
    (entry.1, fileContents after.disk entry.2)
  have others : (rootNames fs.disk).map (fun entry =>
      (entry.1, fileContents after.disk entry.2)) = rootFiles fs.disk := by
    apply List.map_congr_left
    intro entry member
    rw [made.others entry member]
  rw [List.map_cons, made.contents, others] at names
  exact names

section Overwrite

variable {fs : Fs} {refs : Nat → Nat} {name : List UInt8}
variable {count size sector : Nat} {buffer : Memory}

/-- A file that is open is written as a whole. -/
theorem RootSound.overwrite (sound : RootSound fs refs)
    (opened : 0 < refs sector) (listed : (name, sector) ∈ rootNames fs.disk)
    (length : (fileContents fs.disk sector).length = size) :
    RootSound (fs.overwrite sector size buffer) refs ∧
      rootNames (fs.overwrite sector size buffer).disk = rootNames fs.disk ∧
        fileContents (fs.overwrite sector size buffer).disk sector = readBytes buffer 0 size ∧
          ∀ entry ∈ rootNames fs.disk, entry.2 ≠ sector →
            fileContents (fs.overwrite sector size buffer).disk entry.2 =
              fileContents fs.disk entry.2 := by
  have owning : owner fs rootDirSector rootEntries refs sector := RootSound.owner_of_mem listed
  have plain := sound.plain_of_mem listed
  rcases OpenSound.find sound.opens opened with ⟨found, there, -, -, allowed, data, -⟩
  have within := (FsSound.layout sound).within sector owning
  rw [← data] at within
  have whole : Fs.moveCount found.data (size : Nat) 0 = size := by
    rw [fileContents, length_readBytes, ← data] at length
    unfold Fs.moveCount
    omega
  have written : fs.inodeWriteAt sector true buffer (size : Nat) 0 =
      some
        (fs.setDisk
            (fs.disk.splice (found.data.start * blockSectorSize + 0)
              (Fs.moveCount found.data (size : Nat) 0) buffer),
          Fs.moveCount found.data (size : Nat) 0) :=
    Fs.inodeWriteAt_eq there allowed within
  rw [whole, data, Nat.add_zero] at written
  have equation : fs.inodeWriteAt sector true buffer (size : Nat) 0 =
      some (fs.overwrite sector size buffer, size) := written
  rcases FsSound.inodeWriteAt sound opened plain.1 plain.2 buffer size 0 with
    ⟨after, moved, again, kept, undisturbed, -⟩
  rw [equation] at again
  have result : fs.overwrite sector size buffer = after := congrArg Prod.fst (Option.some.inj again)
  rw [← result] at kept undisturbed
  have agree : ∀ place, ¬inExtent (diskInode fs.disk sector) place →
      SectorAgree (fs.overwrite sector size buffer).disk fs.disk place := by
    intro place outside
    have fits : size ≤ (diskInode fs.disk sector).length.toNat - 0 := by
      rw [fileContents, length_readBytes] at length
      omega
    have spliced : SectorAgree
        (fs.disk.splice ((diskInode fs.disk sector).start * blockSectorSize + 0) size buffer)
        fs.disk place :=
      sectorAgree_write fits outside
    rw [Nat.add_zero] at spliced
    exact spliced
  refine ⟨kept, sound.rootNames_of_undisturbed undisturbed, ?_, ?_⟩
  · have inode := undisturbed.diskInode_eq owning
    rw [fileContents, length_readBytes] at length
    rw [fileContents, inode]
    simp only [length]
    exact readBytes_splice _ _ _ _
  · intro entry member different
    apply fileContents_congr
    apply sameContents_of_outside agree
    intro place mine
    exact sound.apart (RootSound.owner_of_mem member) owning different mine

/-- A new file that is written as a whole. -/
theorem FileMade.overwrite {before : Fs} {contents : List UInt8}
    (made : FileMade before fs name sector contents) (sound : RootSound fs refs)
    (opened : 0 < refs sector) (length : contents.length = size) :
    FileMade before (fs.overwrite sector size buffer) name sector
      (readBytes buffer 0 size) := by
  have listed : (name, sector) ∈ rootNames fs.disk := made.names.mem_iff.mpr List.mem_cons_self
  rcases @RootSound.overwrite fs refs name size sector buffer sound opened listed
      (by rw [made.contents]; exact length) with
    ⟨-, names, bytes, others⟩
  constructor
  · rw [names]
    exact made.names
  · exact bytes
  · intro entry member
    have sectors := (made.names.map Prod.snd).nodup_iff.mp sound.nodup_rootSectors
    have different : entry.2 ≠ sector := by
      intro same
      apply (List.nodup_cons.mp sectors).1
      exact List.mem_map.mpr ⟨entry, member, same⟩
    have here : entry ∈ rootNames fs.disk := made.names.mem_iff.mpr (List.mem_cons_of_mem _ member)
    rw [others entry here different, made.others entry member]

end Overwrite

end CS162.Filesys

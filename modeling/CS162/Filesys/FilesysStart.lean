import CS162.Filesys.FilesysCalls

/-!
# Formatting and starting again

The invariant after `filesys_init`: on a device that has just been formatted,
and on one that a sound file system has been left on.
-/

namespace CS162.Filesys

open CS162.Foundation
open CS162.Kernel
open CS162.Devices (blockSectorSize)

/-- Only `free_map_file` is open. -/
def onlyMap : Nat → Nat := hold (fun _ => 0) (some freeMapSector)

theorem onlyMap_map : onlyMap freeMapSector = 1 := hold_self (fun _ => 0) freeMapSector

theorem onlyMap_of_ne {sector : Nat} (different : sector ≠ freeMapSector) : onlyMap sector = 0 :=
  hold_of_ne (fun _ => 0) different

/-- The free map file is not removed. -/
theorem faithful_map (disk : Memory) (dir entries : Nat) :
    faithful disk dir entries freeMapSector false
      (diskInode disk freeMapSector) := by
  refine ⟨rfl, ?_⟩
  constructor
  · intro impossible
    cases impossible
  · intro gone
    exact absurd rfl gone.1

section Reopen

variable {fs fresh : Fs} {dir entries : Nat} {refs : Nat → Nat}

/-- `free_map_open` when nothing is open yet. -/
theorem openMapFile_eq (none : fresh.openInodes = [])
    (onDevice : freeMapSector < fresh.deviceSize) :
    fresh.openMapFile =
      some
        { fresh.pushInode freeMapSector (diskInode fresh.disk freeMapSector)
          with freeMapFile := some freeMapSector } := by
  have closed : fresh.findInode freeMapSector = Option.none := by
    rw [Fs.findInode, none]
    rfl
  rw [Fs.openMapFile, Fs.inodeOpen, closed, Fs.blockRead, if_pos onDevice]
  rfl

/-- `bitmap_read` while the free map file is open. -/
theorem bitmapRead_eq {data : InodeDisk} {found : Inode}
    (here : fs.findInode freeMapSector = some found) (same : found.data = data)
    (length : data.length = byteCnt fs.deviceSize) (within : data.Within fs.deviceSize)
    (cnt : fs.freeMap.bitCnt = fs.deviceSize) (some : 0 < fs.deviceSize) :
    fs.bitmapRead freeMapSector =
      Option.some
        (fs.setMap
          (maskLast
            (bitmapOfBytes fs.deviceSize
              (fs.disk.drop (data.start * blockSectorSize)))), true) := by
  have count : Fs.moveCount found.data (byteCnt fs.deviceSize : Nat) 0 = byteCnt fs.deviceSize := by
    unfold Fs.moveCount
    rw [same, length]
    omega
  have read :
      fs.inodeReadAt freeMapSector true (bitmapBytes fs.freeMap)
          (byteCnt fs.deviceSize : Nat) 0 =
        Option.some
          ((bitmapBytes fs.freeMap).splice 0
              (Fs.moveCount found.data (byteCnt fs.deviceSize : Nat) 0)
              (fs.disk.drop (found.data.start * blockSectorSize + 0)),
            Fs.moveCount found.data (byteCnt fs.deviceSize : Nat) 0) := by
    apply Fs.inodeReadAt_eq here
    rw [same]
    exact within
  have bytes :
      bitmapOfBytes fs.deviceSize
          ((bitmapBytes fs.freeMap).splice 0 (byteCnt fs.deviceSize)
            (fs.disk.drop (data.start * blockSectorSize))) =
        bitmapOfBytes fs.deviceSize
          (fs.disk.drop (data.start * blockSectorSize)) :=
    bitmapOfBytes_congr (Memory.splice_zero_agreeOn _ _ _)
  rw [Fs.bitmapRead, if_pos (by omega), cnt, read, Option.map_some, count,
    Nat.add_zero, same, bytes]
  simp only [decide_true]
  rfl

/-- The file system on a disk goes on where it was left. -/
theorem freeMapOpen_sound (sound : FsSound fs dir entries refs)
    (sameSize : fresh.deviceSize = fs.deviceSize) (sameDisk : fresh.disk = fs.disk)
    (cnt : fresh.freeMap.bitCnt = fs.deviceSize) (none : fresh.openInodes = []) :
    ∃ after,
      fresh.freeMapOpen = some after ∧ FsSound after dir entries onlyMap ∧
        after.deviceSize = fs.deviceSize ∧ after.disk = fs.disk ∧
          ∀ idx, after.freeMap.bit idx = (decide (idx < fs.deviceSize) && fs.freeMap.bit idx) := by
  have taken := sound.layout.used FsSound.ownerMap
  have mapOn := taken.1
  have onDevice : freeMapSector < fresh.deviceSize := by
    rw [sameSize]
    exact mapOn
  generalize opening :
    ({ fresh.pushInode freeMapSector (diskInode fresh.disk freeMapSector)
        with freeMapFile := some freeMapSector } : Fs) =
      opened
  have openedMap := openMapFile_eq none onDevice
  rw [opening] at openedMap
  have openedSize : opened.deviceSize = fs.deviceSize := by
    rw [← opening]
    exact sameSize
  have openedDisk : opened.disk = fs.disk := by
    rw [← opening]
    exact sameDisk
  have openedCnt : opened.freeMap.bitCnt = opened.deviceSize := by
    rw [← opening]
    exact cnt.trans sameSize.symm
  have openedList :
      opened.openInodes =
        (fresh.pushInode freeMapSector
          (diskInode fs.disk freeMapSector)).openInodes := by
    rw [← opening, ← sameDisk]
  have opens :
      OpenSound opened.openInodes onlyMap (fun _ => 0)
        (faithful fs.disk dir entries) := by
    rw [openedList]
    apply OpenSound.push
    · rw [none]
      apply Registry.nil
      intro sector
      exact Nat.lt_irrefl 0
    · rfl
    · rfl
    · exact faithful_map fs.disk dir entries
  have mapHere : 0 < onlyMap freeMapSector := by
    rw [onlyMap_map]
    exact Nat.one_pos
  rcases opens.find mapHere with ⟨found, here, -, -, -, sameData, -⟩
  have read : opened.bitmapRead freeMapSector =
      some (opened.setMap (maskLast (storedMap fs)), true) := by
    have length := sound.mapLength
    have within := sound.layout.within freeMapSector FsSound.ownerMap
    rw [← openedSize] at length within
    rw [bitmapRead_eq here sameData length within openedCnt (by omega),
      storedMap, openedSize, openedDisk]
  have bits : ∀ idx,
        (maskLast (storedMap fs)).bit idx =
          (decide (idx < fs.deviceSize) && fs.freeMap.bit idx) := by
    intro idx
    rw [bit_maskLast]
    show (decide (idx < fs.deviceSize) && _) = _
    by_cases inside : idx < fs.deviceSize
    · rw [sound.saved idx inside]
    · rw [decide_eq_false inside, Bool.false_and, Bool.false_and]
  generalize reading : opened.setMap (maskLast (storedMap fs)) = after at read
  refine ⟨after, ?_, ?_, ?_, ?_, ?_⟩
  · rw [Fs.freeMapOpen, openedMap, Option.bind_some, read]
    rfl
  · generalize before : opened.setMap fs.freeMap = middle
    have middleMap : middle.freeMap = fs.freeMap := by
      rw [← before]
      rfl
    have middleSize : middle.deviceSize = fs.deviceSize := by
      rw [← before]
      exact openedSize
    have middleDisk : middle.disk = fs.disk := by
      rw [← before]
      exact openedDisk
    have kept : FsSound middle dir entries onlyMap := by
      apply sound.recount middleSize middleDisk middleMap
      · rw [sound.mapFile, ← before, ← opening]
        rfl
      · exact mapHere
      · intro sector held
        by_cases this : sector = freeMapSector
        · exact Or.inl this
        · rw [onlyMap_of_ne this] at held
          cases held
      · rw [← before]
        exact opens
    have sameMiddle : after.disk = middle.disk := by
      rw [← before, ← reading]
      rfl
    have afterMap : after.freeMap = maskLast (storedMap fs) := by
      rw [← reading]
      rfl
    have undisturbed : FsSound.Undisturbed middle after dir entries onlyMap := by
      constructor
      · rw [← before, ← reading]
        rfl
      · intro sector owning place lower upper
        rw [sameMiddle]
      · intro sector inside place lower upper
        rw [sameMiddle]
    apply kept.change undisturbed
    · rw [← before, ← reading]
      exact ⟨rfl, rfl⟩
    · rw [middleSize, afterMap]
      rfl
    · intro sector owning place inside
      have covered := kept.layout.owned.covered sector owning place inside
      rw [used, middleSize, middleMap] at covered
      rw [afterMap, bits, decide_eq_true covered.1, covered.2]
      rfl
    · intro idx inside
      have stored : storedMap after = storedMap fs := by
        rw [storedMap, storedMap, ← reading]
        show bitmapOfBytes opened.deviceSize _ = _
        rw [openedSize]
        show bitmapOfBytes fs.deviceSize
          (opened.disk.drop ((diskInode opened.disk freeMapSector).start * _)) = _
        rw [openedDisk]
      have onDisk : idx < fs.deviceSize := by
        rw [← openedSize]
        rw [← reading] at inside
        exact inside
      rw [stored, afterMap, bits, decide_eq_true onDisk, Bool.true_and]
      exact sound.saved idx onDisk
  · rw [← reading]
    exact openedSize
  · rw [← reading]
    exact openedDisk
  · intro idx
    rw [← reading]
    exact bits idx

/-- `free_map_close`. -/
theorem freeMapClose_eq (sound : FsSound fs dir entries refs) : ∃ after,
      fs.freeMapClose = some after ∧ after.deviceSize = fs.deviceSize ∧
        after.disk = fs.disk ∧ after.freeMap = fs.freeMap ∧
          (refs freeMapSector = 1 →
            after.openInodes = fs.openInodes.filter fun inode =>
                inode.sector ≠ freeMapSector) := by
  rcases sound.opens.find sound.mapOpen with ⟨found, here, -, count, -, -, unlinked⟩
  have present : found.removed = false := by
    cases flag : found.removed with
    | false => rfl
    | true => exact absurd rfl (unlinked.mp flag).1
  rw [Fs.freeMapClose, sound.mapFile, Fs.inodeClose, here, Option.bind_some]
  by_cases last : found.openCnt - 1 = 0
  · simp only [if_pos last, present, Bool.false_eq_true, if_false]
    exact ⟨_, rfl, rfl, rfl, rfl, fun _ => rfl⟩
  · simp only [if_neg last]
    refine ⟨_, rfl, rfl, rfl, rfl, fun once => ?_⟩
    omega

end Reopen

section Format

variable {fs after middle : Fs} {sector start cnt : Nat} {length : Int}

/-- `free_map_allocate` before there is a free map file. -/
theorem freeMapAllocate_unsaved (unsaved : fs.freeMapFile = none) (fits : fs.freeMap.Fits)
    (allocated : fs.freeMapAllocate cnt = some (middle, some start)) :
    ∃ map,
      middle = fs.setMap map ∧ map.bitCnt = fs.freeMap.bitCnt ∧
        start + cnt ≤ fs.freeMap.bitCnt ∧
          fs.freeMap.Uniform start cnt false ∧
            ∀ other,
              map.bit other = if start ≤ other ∧ other < start + cnt then true
                else fs.freeMap.bit other := by
  rcases Bitmap.bitmapScanAndFlip_eq cnt false fits
    (Nat.zero_le fs.freeMap.bitCnt) with
    ⟨result, map, scan, size, outcome⟩
  rw [Fs.freeMapAllocate, scan, Option.bind_some] at allocated
  cases result with
  | none => cases allocated
  | some found =>
      simp only [unsaved] at allocated
      cases allocated
      rcases outcome with ⟨-, range, uniform, -, bits⟩
      exact ⟨map, rfl, size, range, uniform, bits⟩

/-- A file that has been created has had its sectors allocated, and the rest of the call
has only written to the disk. -/
theorem inodeCreate_allocated
    (created : fs.inodeCreate sector length = some (after, true)) :
    ∃ middle start,
      fs.freeMapAllocate (bytesToSectors length) = some (middle, some start) ∧
        sector < middle.deviceSize ∧ OnlyDisk middle after := by
  unfold Fs.inodeCreate at created
  split at created
  · cases created
  · rcases Option.bind_eq_some_iff.mp created with ⟨⟨middle, found⟩, allocated, rest⟩
    cases found with
    | none => cases rest
    | some start =>
        rcases Option.bind_eq_some_iff.mp rest with ⟨next, written, last⟩
        rcases Option.map_eq_some_iff.mp last with ⟨final, cleared, result⟩
        cases result
        refine ⟨middle, start, allocated, ?_,
          (OnlyDisk.blockWrite written).trans (.writeZeros cleared)⟩
        unfold Fs.blockWrite at written
        split at written
        · assumption
        · cases written

/-- The rounding of a small size does not overflow. -/
theorem bytesToSectors_of_le {size : Nat} (bound : size ≤ 1048576) :
    bytesToSectors (size : Int) = sectorsFor size := by
  rcases bytesToSectors_natCast (show size < 2147483648 by omega) with
    exact | ⟨-, large⟩
  · exact exact
  · unfold deviceLimit sectorsFor divRoundUp blockSectorSize at large
    omega

/-- The state after `free_map_init`. -/
structure MapFresh (fs : Fs) : Prop where
  small : fs.deviceSize < deviceLimit
  size : fs.freeMap.bitCnt = fs.deviceSize
  unsaved : fs.freeMapFile = none
  closed : fs.openInodes = []
  marked :
    0 < fs.deviceSize → fs.freeMap.bit freeMapSector = true ∧ fs.freeMap.bit rootDirSector = true

/-- `free_map_init` succeeds on every device. -/
theorem freeMapInit_fresh {deviceSize : Nat} (disk stack : Memory)
    (memory : Nat → Elem) (small : deviceSize < deviceLimit) :
    ∃ fs,
      Fs.freeMapInit deviceSize disk stack memory = some fs ∧ MapFresh fs ∧
        fs.deviceSize = deviceSize ∧ fs.disk = disk := by
  have fits : (rawBitmap deviceSize memory).Fits := by
    unfold deviceLimit blockSectorSize at small
    show deviceSize < unsignedModulus
    unfold unsignedModulus
    omega
  rcases Bitmap.bitmapSetAll_eq false fits with ⟨map, cleared, cnt, -⟩
  have size : map.bitCnt = deviceSize := cnt
  rw [Fs.freeMapInit, bitmapCreate, cleared, Option.map_some]
  refine ⟨_, rfl, ?_, rfl, rfl⟩
  constructor
  · exact small
  · exact size
  · rfl
  · rfl
  · intro some
    have element : ∀ other : Bitmap, other.bitCnt = deviceSize →
        0 < other.bits.length := by
      intro other same
      have stored := other.elemIdx_lt (same.symm ▸ some)
      exact stored
    have both :
        ∀ idx, idx = freeMapSector ∨ idx = rootDirSector →
          ((map.bitmapMark freeMapSector).bitmapMark rootDirSector).bit idx =
            true := by
      intro idx here
      rw [Bitmap.bit_bitmapMark_of_element, Bitmap.bit_bitmapMark_of_element]
      · rcases here with rfl | rfl
        · simp
        · simp
      · exact element map size
      · exact element (map.bitmapMark freeMapSector) size
    exact ⟨both _ (Or.inl rfl), both _ (Or.inr rfl)⟩

/-- The sectors of the free map file. -/
def mapSectors (fs : Fs) : Nat := sectorsFor (byteCnt fs.deviceSize)

/-- `do_format` has written the free map to its file. -/
structure MapMade (fs after : Fs) (start : Nat) : Prop where
  opened : MapOpen after start
  inodes : after.openInodes = [⟨freeMapSector, 1, false, 0, diskInode after.disk freeMapSector⟩]
  size : after.deviceSize = fs.deviceSize
  inode : diskInode after.disk freeMapSector = ⟨start, byteCnt fs.deviceSize, inodeMagic⟩
  range : start + mapSectors fs ≤ fs.deviceSize
  reserved : 2 ≤ start
  bits : ∀ other,
      after.freeMap.bit other = if start ≤ other ∧ other < start + mapSectors fs then true
        else fs.freeMap.bit other

namespace MapFresh

theorem byteCnt_le (fresh : MapFresh fs) : byteCnt fs.deviceSize ≤ 1048576 := by
  have small := fresh.small
  unfold deviceLimit blockSectorSize at small
  unfold byteCnt elemCnt divRoundUp elemBits
  omega

theorem fits (fresh : MapFresh fs) : fs.freeMap.Fits := by
  have small := fresh.small
  unfold deviceLimit blockSectorSize at small
  unfold Bitmap.Fits unsignedModulus
  rw [fresh.size]
  omega

/-- The first two sectors are not used for the free map file. -/
theorem reserved (fresh : MapFresh fs) (positive : 0 < fs.deviceSize)
    (free : fs.freeMap.Uniform start (mapSectors fs) false) : 2 ≤ start := by
  have some : 0 < mapSectors fs := by
    unfold mapSectors sectorsFor byteCnt elemCnt divRoundUp elemBits blockSectorSize
    omega
  have notMarked : fs.freeMap.bit start = false := free start (le_refl start) (by omega)
  rcases fresh.marked positive with ⟨zero, one⟩
  have notZero : start ≠ freeMapSector := by
    rintro rfl
    rw [zero] at notMarked
    cases notMarked
  have notOne : start ≠ rootDirSector := by
    rintro rfl
    rw [one] at notMarked
    cases notMarked
  unfold freeMapSector at notZero
  unfold rootDirSector at notOne
  omega

/-- The steps of `free_map_create`. -/
theorem made (fresh : MapFresh fs) {stored opened : Fs}
    (creation : fs.inodeCreate freeMapSector (byteCnt fs.deviceSize : Nat) = some (stored, true))
    (opening : stored.openMapFile = some opened)
    (writing : opened.bitmapWrite freeMapSector true = some (after, true)) :
    ∃ start, MapMade fs after start := by
  rcases inodeCreate_allocated creation with ⟨middle, start, allocated, onDevice, -⟩
  have sectors := bytesToSectors_of_le fresh.byteCnt_le
  have whole : sectorsFor ((byteCnt fs.deviceSize : Nat) : Int).toNat = mapSectors fs := by
    rw [Int.toNat_natCast]
    rfl
  have given := allocated
  rw [sectors] at given
  rcases freeMapAllocate_unsaved fresh.unsaved fresh.fits given with
    ⟨map, rfl, size, range, free, bits⟩
  rw [fresh.size] at size range
  have start2 := fresh.reserved (Nat.lt_of_le_of_lt (Nat.zero_le _) onDevice) free
  have made :=
    inodeCreate_eq (Int.natCast_nonneg (byteCnt fs.deviceSize)) allocated
      sectors onDevice range fresh.small
  rw [made] at creation
  generalize newStored :
    (fs.setMap map).setDisk
        (newFileDisk (fs.setMap map).disk freeMapSector start (byteCnt fs.deviceSize : Nat)) =
      result at creation
  cases creation
  have storedSize : stored.deviceSize = fs.deviceSize := by
    rw [← newStored]
    rfl
  have storedMap : stored.freeMap = map := by
    rw [← newStored]
    rfl
  have closed : stored.openInodes = [] := by
    rw [← newStored]
    exact fresh.closed
  have startSmall : start < unsignedModulus := by
    have fits := fresh.fits
    unfold Bitmap.Fits at fits
    rw [fresh.size] at fits
    omega
  have storedInode :
      diskInode stored.disk freeMapSector = ⟨start, byteCnt fs.deviceSize, inodeMagic⟩ := by
    have bound := fresh.byteCnt_le
    rw [← newStored]
    apply diskInode_newFileDisk startSmall (Int.natCast_nonneg _) (by omega)
    unfold freeMapSector
    omega
  have storedOn : freeMapSector < stored.deviceSize := by
    rw [storedSize]
    exact onDevice
  rw [openMapFile_eq closed storedOn, storedInode] at opening
  generalize newOpened :
    ({ stored.pushInode freeMapSector
          ⟨start, byteCnt fs.deviceSize, inodeMagic⟩
        with freeMapFile := some freeMapSector } : Fs) =
      result at opening
  cases opening
  have openedSize : opened.deviceSize = fs.deviceSize := by
    rw [← newOpened]
    exact storedSize
  have openedMap : opened.freeMap = map := by
    rw [← newOpened]
    exact storedMap
  have openedInodes : opened.openInodes = [⟨freeMapSector, 1, false, 0,
          ⟨start, byteCnt fs.deviceSize, inodeMagic⟩⟩] := by
    rw [← newOpened]
    show _ :: stored.openInodes = _
    rw [closed]
  have mapOpen : MapOpen opened start := by
    constructor
    · rw [← newOpened]
    · rw [openedSize]
      exact fresh.small
    · rw [openedMap, openedSize]
      exact size
    · refine ⟨⟨freeMapSector, 1, false, 0,
          ⟨start, byteCnt fs.deviceSize, inodeMagic⟩⟩, ?_, rfl, rfl, ?_, ?_⟩
      · rw [Fs.findInode, openedInodes]
        rfl
      · rw [openedSize]
      · rw [openedSize]
        exact ⟨Int.natCast_nonneg _, range, fresh.small.le⟩
  have written : opened.bitmapWrite freeMapSector true = some (opened.withMap start map, true) := by
    have sameState : opened.setMap map = opened := by
      rw [← openedMap]
      rfl
    have result := mapOpen.bitmapWrite (size.trans openedSize.symm)
    rw [sameState] at result
    exact result
  rw [written] at writing
  have newMap := mapOpen.withMap (size.trans openedSize.symm) start
  have newInode :
      diskInode (opened.withMap start map).disk freeMapSector =
        ⟨start, byteCnt fs.deviceSize, inodeMagic⟩ := by
    rw [← storedInode]
    apply diskInode_congr
    have outside : ¬inExtent ⟨start, byteCnt fs.deviceSize, inodeMagic⟩ freeMapSector := by
      unfold inExtent freeMapSector
      simp only
      omega
    have sameDisk : opened.disk = stored.disk := by
      rw [← newOpened]
      rfl
    have length : byteCnt map.bitCnt ≤ ((byteCnt fs.deviceSize : Nat) : Int).toNat := by
      rw [size, Int.toNat_natCast]
    rw [← sameDisk]
    have agree := FsSound.sectorAgree_withMap opened length outside
    exact agree
  cases writing
  refine ⟨start, newMap, ?_, openedSize, newInode, range, start2, bits⟩
  rw [newInode]
  exact openedInodes

end MapFresh

/-- `free_map_create`. -/
theorem freeMapCreate_made (fresh : MapFresh fs) (created : fs.freeMapCreate = some after) :
    ∃ start, MapMade fs after start := by
  rcases freeMapCreate_steps created with ⟨stored, opened, creation, opening, writing⟩
  rw [fresh.size] at creation
  exact fresh.made creation opening writing

/-- A directory without names, next to the free map file. -/
theorem sound_of_empty {dir entries : Nat}
    (layout : Layout fs fun sector => sector = dir ∨ sector = freeMapSector)
    (mapFile : fs.freeMapFile = some freeMapSector)
    (mapLength : (diskInode fs.disk freeMapSector).length = byteCnt fs.deviceSize)
    (saved : MapSaved fs) (different : dir ≠ freeMapSector)
    (dirLength : (diskInode fs.disk dir).length = (direntSize * entries : Nat))
    (empty : ∀ i, i < entries → entryOf (dirSlot fs.disk dir i) = none)
    (inodes : fs.openInodes = [⟨freeMapSector, 1, false, 0, diskInode fs.disk freeMapSector⟩]) :
    FsSound fs dir entries onlyMap := by
  have noName : ∀ sector, ¬named fs.disk dir entries sector := by
    intro sector here
    rcases here with ⟨i, name, inside, entry⟩
    rw [empty i inside] at entry
    cases entry
  constructor
  · apply layout.mono
    intro sector here
    rcases here with map | directory | linked | opened
    · exact Or.inr map
    · exact Or.inl directory
    · exact absurd linked (noName sector)
    · by_cases this : sector = freeMapSector
      · exact Or.inr this
      · rw [onlyMap_of_ne this] at opened
        cases opened
  · exact mapFile
  · rw [onlyMap_map]
    exact Nat.one_pos
  · exact mapLength
  · exact saved
  · exact different
  · exact dirLength
  · have clear :
        ∀ i, i < entries →
          entryOf (slot fs.disk (diskInode fs.disk dir).start i) = none :=
      empty
    constructor
    · intro i inside inUse
      have entry := clear i inside
      rw [entryOf, if_pos inUse] at entry
      cases entry
    · intro i j name sector other first second here there
      rw [clear i first] at here
      cases here
  · intro i j name other sector first second here there
    rw [empty i first] at here
    cases here
  · intro sector linked
    exact absurd linked (noName sector)
  · rw [inodes]
    have pushed :
        OpenSound
          ((⟨fs.deviceSize, fs.disk, fs.freeMap, none, [], fs.stack⟩ : Fs).pushInode freeMapSector
            (diskInode fs.disk freeMapSector)).openInodes onlyMap (fun _ => 0)
          (faithful fs.disk dir entries) := by
      apply OpenSound.push
      · apply Registry.nil
        intro sector
        exact Nat.lt_irrefl 0
      · rfl
      · rfl
      · exact faithful_map fs.disk dir entries
    exact pushed

namespace MapMade

/-- A sector that is still free is neither reserved nor part of the free map file. -/
theorem notTaken (made : MapMade fs after start) (fresh : MapFresh fs)
    (positive : 0 < fs.deviceSize) {root : Nat} (notMarked : after.freeMap.bit root = false) :
    root ≠ freeMapSector ∧ root ≠ rootDirSector ∧
      ¬(start ≤ root ∧ root < start + mapSectors fs) := by
  rcases fresh.marked positive with ⟨zero, one⟩
  refine ⟨?_, ?_, ?_⟩
  · rintro rfl
    rw [made.bits, zero] at notMarked
    simp at notMarked
  · rintro rfl
    rw [made.bits, one] at notMarked
    simp at notMarked
  · intro inside
    rw [made.bits, if_pos inside] at notMarked
    cases notMarked

/-- A change of the map leaves the inode of the free map file alone. -/
theorem inode_withMap (made : MapMade fs after start) {map : Bitmap}
    (size : map.bitCnt = after.deviceSize) :
    diskInode (after.withMap start map).disk freeMapSector =
      ⟨start, byteCnt fs.deviceSize, inodeMagic⟩ := by
  rw [← made.inode]
  apply diskInode_congr
  have length : byteCnt map.bitCnt ≤ ((byteCnt fs.deviceSize : Nat) : Int).toNat := by
    rw [size, made.size, Int.toNat_natCast]
  have outside : ¬inExtent ⟨start, byteCnt fs.deviceSize, inodeMagic⟩ freeMapSector := by
    have reserved := made.reserved
    unfold inExtent freeMapSector
    simp only
    omega
  have agree := FsSound.sectorAgree_withMap after length outside
  exact agree

end MapMade

/-- The free map in its file stays right where neither of them changes. -/
theorem MapSaved.keep (saved : MapSaved fs) (sameSize : after.deviceSize = fs.deviceSize)
    (sameMap : after.freeMap = fs.freeMap)
    (inode : diskInode after.disk freeMapSector = diskInode fs.disk freeMapSector)
    (length : (diskInode fs.disk freeMapSector).length = byteCnt fs.deviceSize)
    (data :
      ∀ place, inExtent (diskInode fs.disk freeMapSector) place →
        SectorAgree after.disk fs.disk place) :
    MapSaved after := by
  intro idx inside
  rw [storedMap_congr sameSize inode length data, sameMap]
  apply saved idx
  rw [← sameSize]
  exact inside

theorem sectorsFor_root : sectorsFor (320 : Int).toNat = 1 := by decide

/-- `dir_create` has written an empty root directory next to the free map file. -/
structure RootMade (fs after next : Fs) (start root : Nat) : Prop where
  size : next.deviceSize = fs.deviceSize
  cnt : next.freeMap.bitCnt = fs.deviceSize
  mapFile : next.freeMapFile = some freeMapSector
  inodes : next.openInodes = after.openInodes
  notMap : root ≠ freeMapSector
  notRoot : root ≠ rootDirSector
  notData : ¬(start ≤ root ∧ root < start + mapSectors fs)
  onDevice : rootDirSector < fs.deviceSize
  range : root + 1 ≤ fs.deviceSize
  bits : ∀ place,
      next.freeMap.bit place = if root ≤ place ∧ place < root + 1 then true
        else after.freeMap.bit place
  mapInode : diskInode next.disk freeMapSector = ⟨start, byteCnt fs.deviceSize, inodeMagic⟩
  dirInode : diskInode next.disk rootDirSector = ⟨root, 320, inodeMagic⟩
  saved : MapSaved next
  empty : ∀ i, i < rootEntries → entryOf (dirSlot next.disk rootDirSector i) = none

/-- The steps of `dir_create`. -/
theorem rootCreate_made (fresh : MapFresh fs) {next : Fs} (made : MapMade fs after start)
    (created : after.dirCreate rootDirSector rootEntries = some (next, true)) :
    ∃ root, RootMade fs after next start root := by
  have creation : after.inodeCreate rootDirSector 320 = some (next, true) := created
  rcases inodeCreate_allocated creation with ⟨middle, root, allocated, onDevice, -⟩
  have sectors : bytesToSectors 320 = 1 := by decide
  have given := allocated
  rw [sectors] at given
  rcases made.opened.freeMapAllocate 1 with
    ⟨failed, -⟩ | ⟨found, map, succeeded, size, range, free, -, bits⟩
  · rw [failed] at given
    cases given
  · rw [succeeded] at given
    cases given
    have positive : 0 < fs.deviceSize := by
      rw [← made.size]
      exact Nat.lt_of_le_of_lt (Nat.zero_le rootDirSector) onDevice
    rcases made.notTaken fresh positive
      (free root (le_refl root) (by omega)) with ⟨notMap, notRoot, notData⟩
    have equation :=
      inodeCreate_eq (by decide) allocated (sectors.trans sectorsFor_root.symm)
        onDevice (by rw [sectorsFor_root]; exact range) made.opened.small
    rw [equation] at creation
    have savedInode := made.inode_withMap size
    have mapSaved : MapSaved (after.withMap start map) := by
      apply FsSound.mapSaved_withMap size
      rw [savedInode]
    generalize writing : after.withMap start map = saved at *
    have savedSize : saved.deviceSize = fs.deviceSize := by
      rw [← writing]
      exact made.size
    have savedMap : saved.freeMap = map := by
      rw [← writing]
      rfl
    generalize newFile :
      saved.setDisk (newFileDisk saved.disk rootDirSector root 320) = result
        at creation
    cases creation
    have agree :
        ∀ place, place ≠ rootDirSector → place ≠ root →
          SectorAgree next.disk saved.disk place := by
      intro place notDir notData
      rw [← newFile]
      apply sectorAgree_newFileDisk notDir
      rw [sectorsFor_root]
      omega
    have nextSize : next.deviceSize = fs.deviceSize := by
      rw [← newFile]
      exact savedSize
    have nextMap : next.freeMap = map := by
      rw [← newFile]
      exact savedMap
    have sameInode : diskInode next.disk freeMapSector = diskInode saved.disk freeMapSector :=
      diskInode_congr (agree freeMapSector (by decide) (Ne.symm notMap))
    have dirInode : diskInode next.disk rootDirSector = ⟨root, 320, inodeMagic⟩ := by
      have small := made.opened.small
      rw [← newFile]
      apply diskInode_newFileDisk _ (by decide) (by decide)
      · rw [sectorsFor_root]
        omega
      · unfold deviceLimit blockSectorSize at small
        unfold unsignedModulus
        omega
    refine ⟨root, nextSize, ?_, ?_, ?_, notMap, notRoot, notData, ?_, ?_, ?_,
      sameInode.trans savedInode, dirInode, ?_, ?_⟩
    · rw [nextMap, size, made.size]
    · rw [← newFile, ← writing]
      exact made.opened.file
    · rw [← newFile, ← writing]
      rfl
    · rw [← savedSize]
      exact onDevice
    · rw [← made.size]
      exact range
    · rw [nextMap]
      exact bits
    · apply mapSaved.keep (nextSize.trans savedSize.symm) (nextMap.trans savedMap.symm) sameInode
      · rw [savedInode, savedSize]
      · intro place data
        unfold inExtent at data
        rw [savedInode, Int.toNat_natCast] at data
        change start ≤ place ∧ place < start + mapSectors fs at data
        have reserved := made.reserved
        apply agree place
        · unfold rootDirSector
          omega
        · rintro rfl
          exact notData data
    · intro i inside
      have bound : direntSize * (i + 1) ≤ sectorsFor (320 : Int).toNat * blockSectorSize := by
        rw [sectorsFor_root]
        unfold rootEntries at inside
        unfold direntSize blockSectorSize
        omega
      rw [dirSlot, dirInode, ← newFile]
      show entryOf (slot (newFileDisk saved.disk rootDirSector root 320) root i) = none
      rw [entryOf_congr (slot_newFileDisk saved.disk bound)]
      exact entryOf_zeros

namespace RootMade

variable {next : Fs} {root : Nat}

/-- The root directory has one sector. -/
theorem inData (created : RootMade fs after next start root) {place : Nat}
    (inside : inExtent (diskInode next.disk rootDirSector) place) :
    place = root := by
  unfold inExtent at inside
  rw [created.dirInode, sectorsFor_root] at inside
  simp only at inside
  omega

theorem inMap (created : RootMade fs after next start root) {place : Nat}
    (inside : inExtent (diskInode next.disk freeMapSector) place) :
    start ≤ place ∧ place < start + mapSectors fs := by
  unfold inExtent at inside
  rw [created.mapInode, Int.toNat_natCast] at inside
  exact inside

/-- What was in use stays in use. -/
theorem used_of_marked (created : RootMade fs after next start root) {place : Nat}
    (onDevice : place < fs.deviceSize)
    (before : after.freeMap.bit place = true) : used next place := by
  unfold used
  rw [created.size, created.bits, before]
  refine ⟨onDevice, ?_⟩
  split <;> rfl

/-- The sectors of the free map file are in use. -/
theorem used_map (created : RootMade fs after next start root)
    (fresh : MapFresh fs) (made : MapMade fs after start) (place : Nat)
    (inside : region next.disk freeMapSector place) : used next place := by
  have positive : 0 < fs.deviceSize :=
    Nat.lt_of_le_of_lt (Nat.zero_le rootDirSector) created.onDevice
  rcases fresh.marked positive with ⟨zero, -⟩
  rcases inside with rfl | data
  · apply created.used_of_marked positive
    show after.freeMap.bit freeMapSector = true
    rw [made.bits, zero]
    split <;> rfl
  · have both := created.inMap data
    have range := made.range
    apply created.used_of_marked (by omega)
    rw [made.bits, if_pos both]

/-- The sectors of the root directory are in use. -/
theorem used_root (created : RootMade fs after next start root)
    (fresh : MapFresh fs) (made : MapMade fs after start) (place : Nat)
    (inside : region next.disk rootDirSector place) : used next place := by
  have positive : 0 < fs.deviceSize :=
    Nat.lt_of_le_of_lt (Nat.zero_le rootDirSector) created.onDevice
  rcases inside with rfl | data
  · apply created.used_of_marked created.onDevice
    rw [made.bits, (fresh.marked positive).2]
    split <;> rfl
  · have range := created.range
    rw [created.inData data]
    unfold used
    rw [created.size, created.bits, if_pos (by omega)]
    exact ⟨range, rfl⟩

/-- The two files do not overlap. -/
theorem apart (created : RootMade fs after next start root)
    (made : MapMade fs after start) (place : Nat) (inside : region next.disk freeMapSector place) :
    ¬region next.disk rootDirSector place := by
  intro taken
  rcases inside with rfl | data
  · rcases taken with same | data
    · cases same
    · exact created.notMap (created.inData data).symm
  · have both := created.inMap data
    have reserved := made.reserved
    rcases taken with rfl | other
    · unfold rootDirSector at both
      omega
    · rw [created.inData other] at both
      exact created.notData both

/-- The free map file and the root directory are all that there is. -/
theorem layout (created : RootMade fs after next start root)
    (fresh : MapFresh fs) (made : MapMade fs after start) :
    Layout next fun sector =>
      sector = rootDirSector ∨ sector = freeMapSector := by
  have empty : Layout next fun _ => False := by
    constructor
    · rw [created.size]
      exact fresh.small
    · rw [created.cnt, created.size]
    · constructor
      · intro sector nobody
        cases nobody
      · intro sector other nobody
        cases nobody
    · intro sector nobody
      cases nobody
    · intro sector nobody
      cases nobody
  have mapWithin : (diskInode next.disk freeMapSector).Within next.deviceSize := by
    rw [created.mapInode, created.size]
    exact ⟨Int.natCast_nonneg _, made.range, fresh.small.le⟩
  have mapPlain : ¬inExtent (diskInode next.disk freeMapSector) freeMapSector := by
    intro inside
    have both := created.inMap inside
    have reserved := made.reserved
    unfold freeMapSector at both
    omega
  have withMapFile :=
    empty.insert mapWithin mapPlain (created.used_map fresh made)
      (by
        intro other nobody
        cases nobody)
  have rootWithin : (diskInode next.disk rootDirSector).Within next.deviceSize := by
    rw [created.dirInode, created.size]
    have nonneg : (0 : Int) ≤ 320 := by decide
    refine ⟨nonneg, ?_, fresh.small.le⟩
    rw [sectorsFor_root]
    exact created.range
  have withRoot :=
    withMapFile.insert rootWithin
      (fun inside => created.notRoot (created.inData inside).symm)
      (created.used_root fresh made)
      (by
        intro other here place inside
        rcases here with rfl | nobody
        · exact created.apart made place inside
        · cases nobody)
  apply withRoot.mono
  intro sector here
  rcases here with directory | map
  · exact Or.inl directory
  · exact Or.inr (Or.inl map)

end RootMade

/-- `dir_create` for the root directory. -/
theorem rootCreate_sound (fresh : MapFresh fs) {next : Fs} (made : MapMade fs after start)
    (created : after.dirCreate rootDirSector rootEntries = some (next, true)) :
    RootSound next onlyMap ∧ next.deviceSize = fs.deviceSize ∧
      next.openInodes = after.openInodes ∧
        ∀ i, i < rootEntries →
          entryOf (dirSlot next.disk rootDirSector i) = none := by
  rcases rootCreate_made fresh made created with ⟨root, rooted⟩
  refine ⟨?_, rooted.size, rooted.inodes, rooted.empty⟩
  apply sound_of_empty (rooted.layout fresh made) rooted.mapFile
  · rw [rooted.mapInode, rooted.size]
  · exact rooted.saved
  · decide
  · rw [rooted.dirInode]
    rfl
  · exact rooted.empty
  · rw [rooted.inodes, made.inodes, made.inode, rooted.mapInode]

/-- What `filesys_init` has done with a new device when it returns, from `free_map_init` to
the free map file that is open again. -/
theorem filesysInit_steps {deviceSize : Nat} {disk stack : Memory}
    {memory : Nat → Elem} (small : deviceSize < deviceLimit)
    (started : Fs.filesysInit deviceSize disk stack memory true = some fs) :
    ∃ first made next,
      (Fs.freeMapInit deviceSize disk stack memory = some first ∧ MapFresh first ∧
        first.deviceSize = deviceSize) ∧
      (first.freeMapCreate = some made ∧ ∃ start, MapMade first made start) ∧
      made.dirCreate rootDirSector rootEntries = some (next, true) ∧
      RootSound fs onlyMap ∧ fs.deviceSize = next.deviceSize ∧ fs.disk = next.disk ∧
        ∀ idx, fs.freeMap.bit idx = (decide (idx < next.deviceSize) && next.freeMap.bit idx) := by
  rcases freeMapInit_fresh disk stack memory small with ⟨first, init, fresh, firstSize, -⟩
  rw [Fs.filesysInit, init, Option.bind_some] at started
  simp only [if_true] at started
  rcases Option.bind_eq_some_iff.mp started with ⟨closed, format, opening⟩
  rcases doFormat_steps format with ⟨made, next, creation, root, closing⟩
  rcases freeMapCreate_made fresh creation with ⟨start, ready⟩
  rcases rootCreate_sound fresh ready root with ⟨sound, -, sameInodes, -⟩
  rcases freeMapClose_eq sound with ⟨after, closes, closedSize, closedDisk, closedMap, forgotten⟩
  rw [closes] at closing
  cases closing
  have none : closed.openInodes = [] := by
    rw [forgotten onlyMap_map, sameInodes, ready.inodes]
    rfl
  have cnt : closed.freeMap.bitCnt = next.deviceSize := by
    rw [closedMap]
    exact (FsSound.layout sound).size
  rcases freeMapOpen_sound sound closedSize closedDisk cnt none with
    ⟨opened, opens, kept, size, sameDisk, bits⟩
  rw [opens] at opening
  cases opening
  exact ⟨first, made, next, ⟨init, fresh, firstSize⟩, ⟨creation, start, ready⟩, root, kept,
    size, sameDisk, bits⟩

/-- A device that has been formatted holds a sound file system. -/
theorem filesysInit_sound {deviceSize : Nat} {disk stack : Memory}
    {memory : Nat → Elem} (small : deviceSize < deviceLimit)
    (started : Fs.filesysInit deviceSize disk stack memory true = some fs) :
    RootSound fs onlyMap ∧ fs.deviceSize = deviceSize ∧
      (∀ i, i < rootEntries →
          entryOf (dirSlot fs.disk rootDirSector i) = none) ∧
        ∀ idx, deviceSize ≤ idx → fs.freeMap.bit idx = false := by
  rcases filesysInit_steps small started with
    ⟨first, made, next, ⟨-, fresh, firstSize⟩, ⟨-, start, ready⟩, root, kept, size, sameDisk, bits⟩
  rcases rootCreate_sound fresh ready root with ⟨-, nextSize, -, empty⟩
  refine ⟨kept, size.trans (nextSize.trans firstSize), ?_, ?_⟩
  · rw [sameDisk]
    exact empty
  · intro idx beyond
    rw [bits, decide_eq_false, Bool.false_and]
    rw [nextSize, firstSize]
    omega

end Format

section Reboot

variable {fs : Fs} {refs : Nat → Nat}

/-- Shutting down and starting again without formatting keeps the free map. -/
theorem reboot_sound (sound : RootSound fs refs) (stack : Memory) (memory : Nat → Elem) :
    ∃ done fresh after,
      fs.filesysDone = some done ∧
        Fs.freeMapInit done.deviceSize done.disk stack memory = some fresh ∧
          fresh.freeMapOpen = some after ∧ RootSound after onlyMap ∧
            after.deviceSize = fs.deviceSize ∧ after.disk = fs.disk ∧
              ∀ idx,
                after.freeMap.bit idx = (decide (idx < fs.deviceSize) && fs.freeMap.bit idx) := by
  rcases freeMapClose_eq sound with ⟨done, closes, doneSize, doneDisk, -, -⟩
  have small := (FsSound.layout sound).small
  rw [← doneSize] at small
  rcases freeMapInit_fresh done.disk stack memory small with
    ⟨fresh, init, isFresh, freshSize, freshDisk⟩
  have sameSize := freshSize.trans doneSize
  rcases freeMapOpen_sound sound sameSize (freshDisk.trans doneDisk)
      (isFresh.size.trans sameSize) isFresh.closed with
    ⟨after, opens, kept, size, disk, bits⟩
  exact ⟨done, fresh, after, closes, init, opens, kept, size, disk, bits⟩

end Reboot

end CS162.Filesys

import CS162.Filesys.Inode

/-!
# The free map

`filesys/free-map.c`, which keeps one bit per sector and writes the bits to a
file of its own after every change, and the parts of `filesys/inode.c` that
allocate and release sectors.  A file is written with a bounce buffer, and each
function that may run out of memory for one is told whether it does.
-/

namespace CS162.Filesys

open CS162.Foundation
open CS162.Kernel
open CS162.Devices (blockSectorSize)

/-- `FREE_MAP_SECTOR`. -/
def freeMapSector : Nat := 0

/-- `ROOT_DIR_SECTOR`. -/
def rootDirSector : Nat := 1

/-- The elements of a bitmap as bytes. -/
def bitmapBytes (bitmap : Bitmap) : Memory := fun offset =>
  Memory.byteOf (bitmap.bits.getD (offset / 4) 0).toNat (offset % 4)

/-- The bitmap whose elements have these bytes. -/
def bitmapOfBytes (bitCnt : Nat) (buffer : Memory) : Bitmap where
  bitCnt := bitCnt
  bits :=
    (List.range (elemCnt bitCnt)).map fun index =>
      BitVec.ofNat 32 (buffer.load32 (4 * index))
  sized := by rw [List.length_map, List.length_range]

/-- `last_mask`. -/
def lastMask (bitCnt : Nat) : Elem :=
  if bitCnt % elemBits = 0 then BitVec.allOnes 32
  else (1#32 <<< (bitCnt % elemBits)) - 1#32

/-- `b->bits[elem_cnt(b->bit_cnt) - 1] &= last_mask(b)`. -/
def maskLast (bitmap : Bitmap) : Bitmap where
  bitCnt := bitmap.bitCnt
  bits := bitmap.bits.modify (elemCnt bitmap.bitCnt - 1) (· &&& lastMask bitmap.bitCnt)
  sized := by rw [List.length_modify, bitmap.sized]

/-- `bitmap_create`, where memory is not short. -/
def bitmapCreate (bitCnt : Nat) (memory : Nat → Elem) : Option Bitmap :=
  (rawBitmap bitCnt memory).bitmapSetAll false

/-- Memory is never short. -/
def always : Nat → Bool := fun _ => true

namespace Fs

/-- `bitmap_write` for the free map. -/
def bitmapWrite (fs : Fs) (file : Nat) (bounce : Bool) : Option (Fs × Bool) :=
  (fs.inodeWriteAt file bounce (bitmapBytes fs.freeMap)
      (byteCnt fs.freeMap.bitCnt) 0).map fun written =>
    (written.1, written.2 = byteCnt fs.freeMap.bitCnt)

/-- `bitmap_read` for the free map. -/
def bitmapRead (fs : Fs) (file : Nat) : Option (Fs × Bool) :=
  if fs.freeMap.bitCnt > 0 then
    (fs.inodeReadAt file true (bitmapBytes fs.freeMap)
        (byteCnt fs.freeMap.bitCnt) 0).map fun read =>
      ({ fs with
          freeMap := maskLast (bitmapOfBytes fs.freeMap.bitCnt read.1) },
        read.2 = byteCnt fs.freeMap.bitCnt)
  else some (fs, true)

def setMap (fs : Fs) (map : Bitmap) : Fs := { fs with freeMap := map }

/-- `free_map_allocate`, where memory is not short. -/
def freeMapAllocate (fs : Fs) (cnt : Nat) : Option (Fs × Option Nat) :=
  (fs.freeMap.bitmapScanAndFlip 0 cnt false).bind fun
    | (none, map) => some (fs.setMap map, none)
    | (some sector, map) =>
        match fs.freeMapFile with
        | none => some (fs.setMap map, some sector)
        | some file =>
            ((fs.setMap map).bitmapWrite file true).bind fun
              | (fs, true) => some (fs, some sector)
              | (fs, false) =>
                  (map.bitmapSetMultiple sector cnt false).map fun map =>
                    (fs.setMap map, none)

/-- `free_map_release`. -/
def freeMapRelease (fs : Fs) (sector cnt : Nat) (bounce : Bool) : Option Fs :=
  match fs.freeMap.bitmapAll sector cnt with
  | some true =>
      (fs.freeMap.bitmapSetMultiple sector cnt false).bind fun map =>
        fs.freeMapFile.bind fun file =>
          ((fs.setMap map).bitmapWrite file bounce).map Prod.fst
  | _ => none

/-- The loop of `inode_create` that clears the sectors of a new file. -/
def writeZeros (fs : Fs) (start i : Nat) : Nat → Option Fs
  | 0 => some fs
  | remaining + 1 =>
      (fs.blockWrite (wrap (start + i)) zeros).bind fun fs =>
        fs.writeZeros start (i + 1) remaining

/-- `inode_create`, where memory is not short. -/
def inodeCreate (fs : Fs) (sector : Nat) (length : Int) : Option (Fs × Bool) :=
  if length < 0 then none
  else
    (fs.freeMapAllocate (bytesToSectors length)).bind fun
      | (fs, none) => some (fs, false)
      | (fs, some start) =>
          (fs.blockWrite sector
              (InodeDisk.bytes ⟨start, length, inodeMagic⟩)).bind fun fs =>
            (fs.writeZeros start 0 (bytesToSectors length)).map (·, true)

/-- `inode_close`; a null pointer is ignored. -/
def inodeClose (fs : Fs) (pointer : Option Nat) (bounce : Nat → Bool) : Option Fs :=
  match pointer with
  | none => some fs
  | some sector =>
      (fs.findInode sector).bind fun inode =>
        if inode.openCnt - 1 = 0 then
          let fs :=
            { fs with
              openInodes := fs.openInodes.filter fun other => other.sector ≠ sector }
          if inode.removed then
            (fs.freeMapRelease inode.sector 1 (bounce 0)).bind fun fs =>
              fs.freeMapRelease inode.data.start (bytesToSectors inode.data.length) (bounce 1)
          else some fs
        else
          some <| fs.updateInode sector fun inode =>
              { inode with openCnt := inode.openCnt - 1 }

/-- `file_open (inode_open (FREE_MAP_SECTOR))`, kept in `free_map_file`. -/
def openMapFile (fs : Fs) : Option Fs :=
  (fs.inodeOpen freeMapSector true).map fun
    | (fs, file) => { fs with freeMapFile := file }

/-- `free_map_create`. -/
def freeMapCreate (fs : Fs) : Option Fs :=
  (fs.inodeCreate freeMapSector (byteCnt fs.freeMap.bitCnt)).bind fun
    | (_, false) => none
    | (fs, true) =>
        fs.openMapFile.bind fun fs =>
          (fs.bitmapWrite freeMapSector true).bind fun
            | (_, false) => none
            | (fs, true) => some fs

/-- `free_map_open`. -/
def freeMapOpen (fs : Fs) : Option Fs :=
  fs.openMapFile.bind fun fs =>
    (fs.bitmapRead freeMapSector).bind fun
      | (_, false) => none
      | (fs, true) => some fs

/-- `free_map_close`; the variable keeps its value. -/
def freeMapClose (fs : Fs) : Option Fs := fs.inodeClose fs.freeMapFile always

end Fs

section Specifications

variable {fs : Fs} {cnt sector start : Nat}

/-- The free map file is open and has a byte for every byte of the map. -/
structure MapOpen (fs : Fs) (start : Nat) : Prop where
  file : fs.freeMapFile = some freeMapSector
  small : fs.deviceSize < deviceLimit
  size : fs.freeMap.bitCnt = fs.deviceSize
  inode :
    ∃ found, fs.findInode freeMapSector = some found ∧
      found.denyWriteCnt = 0 ∧ found.data.start = start ∧
        found.data.length = byteCnt fs.deviceSize ∧ found.data.Within fs.deviceSize

/-- The state after a change of the map has been written to its file. -/
def Fs.withMap (fs : Fs) (start : Nat) (map : Bitmap) : Fs :=
  (fs.setMap map).setDisk
    (fs.disk.splice (start * blockSectorSize) (byteCnt map.bitCnt) (bitmapBytes map))

theorem MapOpen.fits (opened : MapOpen fs start) : fs.freeMap.Fits := by
  have small := opened.small
  unfold Bitmap.Fits
  rw [opened.size]
  unfold deviceLimit blockSectorSize at small
  unfold unsignedModulus
  omega

/-- `bitmap_write` always succeeds, because the file is as long as the map. -/
theorem MapOpen.bitmapWrite (opened : MapOpen fs start) {map : Bitmap}
    (size : map.bitCnt = fs.deviceSize) :
    (fs.setMap map).bitmapWrite freeMapSector true = some (fs.withMap start map, true) := by
  rcases opened.inode with ⟨found, here, allowed, place, length, within⟩
  have count : Fs.moveCount found.data (byteCnt map.bitCnt : Nat) 0 = byteCnt map.bitCnt := by
    unfold Fs.moveCount
    rw [length, size]
    omega
  have written :
      (fs.setMap map).inodeWriteAt freeMapSector true (bitmapBytes map)
          (byteCnt map.bitCnt : Nat) 0 =
        some
          ((fs.setMap map).setDisk
              (fs.disk.splice (found.data.start * blockSectorSize + 0)
                (Fs.moveCount found.data (byteCnt map.bitCnt : Nat) 0)
                (bitmapBytes map)),
            Fs.moveCount found.data (byteCnt map.bitCnt : Nat) 0) :=
    Fs.inodeWriteAt_eq here allowed within
  unfold Fs.bitmapWrite
  show Option.map _
      ((fs.setMap map).inodeWriteAt freeMapSector true (bitmapBytes map)
        (byteCnt map.bitCnt : Nat) 0) = _
  rw [written, Option.map_some, count, place, Nat.add_zero]
  simp only [Fs.withMap, Fs.setMap, Fs.setDisk, decide_true]

/-- `free_map_allocate` takes the first run of free sectors, or changes
nothing when there is none. -/
theorem MapOpen.freeMapAllocate (opened : MapOpen fs start) (cnt : Nat) :
    (fs.freeMapAllocate cnt = some (fs, none) ∧
      ∀ other, other + cnt ≤ fs.deviceSize → ¬fs.freeMap.Uniform other cnt false) ∨
    ∃ sector map,
      fs.freeMapAllocate cnt = some (fs.withMap start map, some sector) ∧
      map.bitCnt = fs.deviceSize ∧ sector + cnt ≤ fs.deviceSize ∧
      fs.freeMap.Uniform sector cnt false ∧
      (∀ earlier, earlier < sector → ¬fs.freeMap.Uniform earlier cnt false) ∧
      ∀ other,
        map.bit other = if sector ≤ other ∧ other < sector + cnt then true
          else fs.freeMap.bit other := by
  rcases Bitmap.bitmapScanAndFlip_eq cnt false opened.fits
    (Nat.zero_le fs.freeMap.bitCnt) with
    ⟨result, map, scan, size, outcome⟩
  unfold Fs.freeMapAllocate
  rw [scan, Option.bind_some]
  cases result with
  | none =>
      rcases outcome with ⟨rfl, absent⟩
      left
      refine ⟨rfl, ?_⟩
      intro other range
      rw [← opened.size] at range
      exact absent other (Nat.zero_le other) range
  | some sector =>
      rcases outcome with ⟨-, range, uniform, minimal, bits⟩
      rw [opened.size] at size range
      right
      refine ⟨sector, map, ?_, size, range, uniform,
          fun earlier => minimal earlier (Nat.zero_le earlier), bits⟩
      simp only [opened.file, opened.bitmapWrite size, Option.bind_some]

/-- `free_map_release` clears the bits of sectors in use. -/
theorem MapOpen.freeMapRelease (opened : MapOpen fs start) (range : sector + cnt ≤ fs.deviceSize)
    (used : ∀ other, sector ≤ other → other < sector + cnt → fs.freeMap.bit other = true) :
    ∃ map,
      fs.freeMapRelease sector cnt true = some (fs.withMap start map) ∧
      map.bitCnt = fs.deviceSize ∧
      ∀ other,
        map.bit other = if sector ≤ other ∧ other < sector + cnt then false
          else fs.freeMap.bit other := by
  rw [← opened.size] at range
  rcases Bitmap.bitmapAll_eq opened.fits range with ⟨all, test, meaning⟩
  rcases Bitmap.bitmapSetMultiple_eq false opened.fits range with ⟨map, set, size, bits⟩
  rw [opened.size] at size
  refine ⟨map, ?_, size, bits⟩
  unfold Fs.freeMapRelease
  rw [test, meaning.mpr used]
  simp only [set, Option.bind_some, opened.file, opened.bitmapWrite size, Option.map_some]

/-- Whatever `free_map_release` frees, only the map and its file change. -/
theorem MapOpen.freeMapRelease_withMap (opened : MapOpen fs start) {after : Fs}
    (released : fs.freeMapRelease sector cnt true = some after) :
    ∃ map, map.bitCnt = fs.deviceSize ∧ after = fs.withMap start map := by
  unfold Fs.freeMapRelease at released
  split at released
  · rcases Option.bind_eq_some_iff.mp released with ⟨map, set, rest⟩
    have size := (Bitmap.bitCnt_of_bitmapSetMultiple set).trans opened.size
    rw [opened.file, Option.bind_some, opened.bitmapWrite size, Option.map_some] at rest
    cases rest
    exact ⟨map, size, rfl⟩
  · cases released

/-- The map file stays open when the map and the disk change. -/
theorem MapOpen.withMap (opened : MapOpen fs start) {map : Bitmap}
    (size : map.bitCnt = fs.deviceSize) (other : Nat) :
    MapOpen (fs.withMap other map) start where
  file := opened.file
  small := opened.small
  size := size
  inode := opened.inode

/-- The loop of `inode_create` clears the sectors one by one. -/
theorem writeZeros_eq {remaining i : Nat} (onDevice : start + i + remaining ≤ fs.deviceSize)
    (small : fs.deviceSize < deviceLimit) :
    fs.writeZeros start i remaining =
      some
        (fs.setDisk
          (fs.disk.splice ((start + i) * blockSectorSize)
            (remaining * blockSectorSize) zeros)) := by
  induction remaining generalizing fs i with
  | zero =>
      rw [Fs.writeZeros, Nat.zero_mul, Memory.splice_zero]
      rfl
  | succ remaining inductionHypothesis =>
      have address : wrap (start + i) = start + i := by
        apply wrap_of_lt
        unfold deviceLimit blockSectorSize at small
        unfold unsignedModulus
        omega
      generalize written :
        fs.setDisk (fs.disk.splice ((start + i) * blockSectorSize) blockSectorSize zeros) = middle
      have step : fs.blockWrite (start + i) zeros = some middle := by
        rw [Fs.blockWrite, if_pos (by omega), written]
      have middleSize : middle.deviceSize = fs.deviceSize := by
        rw [← written]
        rfl
      have middleDisk :
          middle.disk =
            fs.disk.splice ((start + i) * blockSectorSize) blockSectorSize
              zeros := by
        rw [← written]
        rfl
      have middleSet : ∀ disk, middle.setDisk disk = fs.setDisk disk := by
        intro disk
        rw [← written]
        rfl
      have rest : zeros.drop blockSectorSize = zeros := rfl
      have joined :=
        Memory.splice_splice fs.disk zeros ((start + i) * blockSectorSize)
          blockSectorSize (remaining * blockSectorSize)
      have next :
          (start + (i + 1)) * blockSectorSize =
            (start + i) * blockSectorSize + blockSectorSize := by
        rw [← Nat.add_assoc, Nat.add_mul, Nat.one_mul]
      have whole :
          blockSectorSize + remaining * blockSectorSize = (remaining + 1) * blockSectorSize := by
        rw [Nat.add_mul, Nat.one_mul, Nat.add_comm]
      rw [Fs.writeZeros, address, step, Option.bind_some,
        inductionHypothesis (by omega) (by omega), middleSet, middleDisk,
        next, ← whole, ← joined, rest]

/-- The disk after `inode_create` has written an inode and cleared its data. -/
def newFileDisk (disk : Memory) (sector start : Nat) (length : Int) : Memory :=
  (disk.splice (sector * blockSectorSize) blockSectorSize
      (InodeDisk.bytes ⟨start, length, inodeMagic⟩)).splice
    (start * blockSectorSize) (sectorsFor length.toNat * blockSectorSize) zeros

/-- `inode_create` once the sectors have been allocated. -/
theorem inodeCreate_eq {middle : Fs} {length : Int} (nonneg : 0 ≤ length)
    (allocated : fs.freeMapAllocate (bytesToSectors length) = some (middle, some start))
    (sectors : bytesToSectors length = sectorsFor length.toNat)
    (onDevice : sector < middle.deviceSize)
    (range : start + sectorsFor length.toNat ≤ middle.deviceSize)
    (small : middle.deviceSize < deviceLimit) :
    fs.inodeCreate sector length =
      some
        (middle.setDisk (newFileDisk middle.disk sector start length), true) := by
  generalize stored :
    middle.setDisk
        (middle.disk.splice (sector * blockSectorSize) blockSectorSize
          (InodeDisk.bytes ⟨start, length, inodeMagic⟩)) =
      next
  have write :
      middle.blockWrite sector (InodeDisk.bytes ⟨start, length, inodeMagic⟩) = some next := by
    rw [Fs.blockWrite, if_pos onDevice, stored]
  have nextSize : next.deviceSize = middle.deviceSize := by
    rw [← stored]
    rfl
  have clear :=
    writeZeros_eq
      (show start + 0 + sectorsFor length.toNat ≤ next.deviceSize by omega)
      (by omega)
  rw [Fs.inodeCreate, if_neg (by omega), allocated, Option.bind_some]
  simp only [write, Option.bind_some, sectors, clear, Option.map_some]
  rw [← stored, Nat.add_zero]
  rfl

/-- A word of the bytes of a bitmap is an element. -/
theorem load32_bitmapBytes (map : Bitmap) (index : Nat) :
    (bitmapBytes map).load32 (4 * index) = (map.bits.getD index 0).toNat := by
  have byte :
      ∀ place, place < 4 →
        (bitmapBytes map (4 * index + place)).toNat =
          (map.bits.getD index 0).toNat / 256 ^ place % 256 := by
    intro place inWord
    have element : (4 * index + place) / 4 = index := by omega
    have offset : (4 * index + place) % 4 = place := by omega
    rw [bitmapBytes, element, offset, Memory.byteOf, UInt8.toNat_ofNat']
  have first := byte 0 (by omega)
  have second := byte 1 (by omega)
  have third := byte 2 (by omega)
  have fourth := byte 3 (by omega)
  have bound := (map.bits.getD index 0).isLt
  simp only [Nat.add_zero, Nat.pow_zero, Nat.div_one, Nat.reducePow]
    at first second third fourth
  rw [Memory.load32, first, second, third, fourth]
  omega

/-- Only the bytes of its elements matter for a bitmap that is read. -/
theorem bitmapOfBytes_congr {bitCnt : Nat} {buffer other : Memory}
    (agree : buffer.AgreeOn other 0 (byteCnt bitCnt)) :
    bitmapOfBytes bitCnt buffer = bitmapOfBytes bitCnt other := by
  rw [bitmapOfBytes, bitmapOfBytes, Bitmap.mk.injEq]
  constructor
  · rfl
  · apply List.map_congr_left
    intro index listed
    have inside := List.mem_range.mp listed
    rw [Memory.AgreeOn.load32_eq]
    apply agree.mono (Nat.zero_le _)
    unfold byteCnt
    omega

/-- A bitmap read from the bytes of another one of the same size. -/
theorem bit_bitmapOfBytes {map : Bitmap} {buffer : Memory}
    (agree : buffer.AgreeOn (bitmapBytes map) 0 (byteCnt map.bitCnt)) (idx : Nat) :
    (bitmapOfBytes map.bitCnt buffer).bit idx = map.bit idx := by
  have elements : (bitmapOfBytes map.bitCnt buffer).bits = map.bits := by
    apply List.ext_getElem
    · rw [(bitmapOfBytes map.bitCnt buffer).sized, map.sized]
      rfl
    · intro index here there
      have inside : index < elemCnt map.bitCnt := by
        rw [← map.sized]
        exact there
      have word : buffer.load32 (4 * index) = (map.bits.getD index 0).toNat := by
        rw [← load32_bitmapBytes]
        apply Memory.AgreeOn.load32_eq
        apply agree.mono (Nat.zero_le _)
        unfold byteCnt
        omega
      simp only [bitmapOfBytes, List.getElem_map, List.getElem_range, word]
      rw [BitVec.ofNat_toNat, BitVec.setWidth_eq,
        List.getD_eq_getElem?_getD, List.getElem?_eq_getElem there]
      rfl
  rw [Bitmap.bit, Bitmap.bit, elements]

/-- The bits of the last element that are in use. -/
theorem getLsbD_lastMask (bitCnt place : Nat) (inElement : place < 32) :
    (lastMask bitCnt).getLsbD place =
      decide (bitCnt % elemBits = 0 ∨ place < bitCnt % elemBits) := by
  unfold lastMask
  by_cases whole : bitCnt % elemBits = 0
  · rw [if_pos whole, BitVec.getLsbD_allOnes]
    simp [whole, inElement]
  · rw [if_neg whole]
    have small : bitCnt % elemBits < 32 := Nat.mod_lt bitCnt (by decide)
    generalize bitCnt % elemBits = count at *
    have value : (1#32 <<< count - 1#32).toNat = 2 ^ count - 1 := by
      have power : 2 ^ count < 2 ^ 32 := Nat.pow_lt_pow_right (by decide) small
      have positive : 0 < 2 ^ count := Nat.two_pow_pos count
      rw [BitVec.toNat_sub, BitVec.toNat_shiftLeft]
      simp only [BitVec.toNat_ofNat, Nat.shiftLeft_eq]
      omega
    rw [BitVec.getLsbD, value, Nat.testBit_two_pow_sub_one]
    simp [whole]

/-- The mask clears the bits that are not in use. -/
theorem bit_maskLast (map : Bitmap) (idx : Nat) :
    (maskLast map).bit idx = (decide (idx < map.bitCnt) && map.bit idx) := by
  have place : idx % elemBits < 32 := Nat.mod_lt idx (by decide)
  have length := map.sized
  have enough := le_divRoundUp_mul map.bitCnt (show 0 < elemBits by decide)
  have tight := divRoundUp_mul_lt map.bitCnt (show 0 < elemBits by decide)
  rw [Bitmap.bit_eq_getLsbD, Bitmap.bit_eq_getLsbD]
  by_cases beyond : map.bits.length ≤ elemIdx idx
  · have after : (maskLast map).bits.length ≤ elemIdx idx := by
      rw [(maskLast map).sized]
      rw [length] at beyond
      exact beyond
    rw [List.getD_eq_getElem?_getD, List.getD_eq_getElem?_getD,
      List.getElem?_eq_none beyond, List.getElem?_eq_none after]
    simp
  · have inside : elemCnt map.bitCnt - 1 < map.bits.length := by omega
    have modified :
        (maskLast map).bits.getD (elemIdx idx) 0 =
          if elemIdx idx = elemCnt map.bitCnt - 1 then
            map.bits.getD (elemCnt map.bitCnt - 1) 0 &&& lastMask map.bitCnt
          else map.bits.getD (elemIdx idx) 0 :=
      Bitmap.getD_modify _ inside _
    rw [modified]
    unfold elemCnt elemIdx elemBits at *
    by_cases last : idx / 32 = divRoundUp map.bitCnt 32 - 1
    · have inUse : (map.bitCnt % 32 = 0 ∨ idx % 32 < map.bitCnt % 32) ↔ idx < map.bitCnt := by
        omega
      rw [if_pos last, BitVec.getLsbD_and, getLsbD_lastMask _ _ place, ← last, Bool.and_comm]
      congr 1
      exact decide_eq_decide.mpr inUse
    · have inUse : idx < map.bitCnt := by omega
      rw [if_neg last, decide_eq_true inUse, Bool.true_and]

end Specifications

end CS162.Filesys

import CS162.Filesys.RootFiles
import CS162.Lib.Ustar

/-!
# Copying files to and from the scratch device

`fsutil_extract` and `fsutil_append` of `filesys/fsutil.c`, where memory is not
short.  A panic is `none`.  The static variables for the position on the scratch
device are arguments and results; a device has fewer sectors than `block_sector_t`
has numbers, so they do not wrap around.
-/

namespace CS162.Filesys

open CS162.Foundation
open CS162.Kernel
open CS162.Lib
open CS162.Devices (blockSectorSize)

/-- The block device with the role `BLOCK_SCRATCH`. -/
structure Scratch where
  size : Nat
  disk : Memory

namespace Scratch

/-- `block_read`. -/
def blockRead (src : Scratch) (sector : Nat) : Option Memory :=
  if sector < src.size then some (sectorBytes src.disk sector) else none

/-- `block_write`. -/
def blockWrite (dst : Scratch) (sector : Nat) (buffer : Memory) : Option Scratch :=
  if sector < dst.size then
    some
      { dst with
        disk := dst.disk.splice (sector * blockSectorSize) blockSectorSize buffer }
  else none

end Scratch

namespace Fs

/-- The loop of `fsutil_extract` that copies the data of a file. -/
def extractCopy (src : Scratch) : Nat → Fs → Nat → File → Nat → Option (Fs × Nat × File)
  | 0, fs, sector, dst, _ => some (fs, sector, dst)
  | rounds + 1, fs, sector, dst, size =>
      if size = 0 then some (fs, sector, dst)
      else
        let chunkSize :=
          if size > blockSectorSize then blockSectorSize else size
        (src.blockRead sector).bind fun data =>
          (fs.fileWrite dst true data chunkSize).bind fun
            | (fs, bytesWritten, dst) =>
                if bytesWritten ≠ chunkSize then none
                else extractCopy src rounds fs (sector + 1) dst (size - chunkSize)

/-- What `fsutil_extract` does with the header of a regular file. -/
def extractFile (src : Scratch) (fs : Fs) (sector : Nat)
    (fileName : List UInt8) (size : Nat) : Option (Fs × Nat) :=
  (fs.filesysCreate fileName size).bind fun
    | (_, false) => none
    | (fs, true) =>
        (fs.filesysOpen fileName .plenty).bind fun
          | (_, none) => none
          | (fs, some dst) =>
              (extractCopy src size fs sector dst size).bind fun
                | (fs, sector, dst) => (fs.fileClose dst always).map (·, sector)

/-- What `fsutil_extract` does with a header: it goes on, or the archive has
ended. -/
def extractEntry (src : Scratch) (fs : Fs) (sector : Nat) (header : Memory) :
    Option (Bool × Fs × Nat) :=
  match ustarParseHeader header with
  | .error _ => none
  | .ok entry =>
      match entry.type with
      | .eof => some (false, fs, sector)
      | .directory => some (true, fs, sector)
      | .regular =>
          (extractFile src fs sector (entry.fileName.getD []) entry.size).map (true, ·)

/-- The main loop of `fsutil_extract`. -/
def extractLoop (src : Scratch) : Nat → Fs → Nat → Option (Fs × Nat)
  | 0, _, _ => none
  | rounds + 1, fs, sector =>
      (src.blockRead sector).bind fun header =>
        (extractEntry src fs (sector + 1) header).bind fun
          | (false, fs, sector) => some (fs, sector)
          | (true, fs, sector) => extractLoop src rounds fs sector

/-- `fsutil_extract`.  Each round of the loop reads a sector that has not been
read before. -/
def fsutilExtract (fs : Fs) (src : Scratch) (sector : Nat) : Option (Fs × Scratch × Nat) :=
  (extractLoop src (src.size + 1) fs sector).bind fun
    | (fs, sector) =>
        (src.blockWrite 0 zeros).bind fun src =>
          (src.blockWrite 1 zeros).map fun src => (fs, src, sector)

/-- `file_length`. -/
def fileLength (fs : Fs) (file : File) : Option Int :=
  (fs.findInode file.inode).map fun inode => inode.data.length

/-- The loop of `fsutil_append` that copies the data of a file. -/
def appendCopy (fs : Fs) : Nat → File → Scratch → Nat → Memory → Int → Option (File × Scratch × Nat)
  | 0, src, dst, sector, _, _ => some (src, dst, sector)
  | rounds + 1, src, dst, sector, buffer, size =>
      if size ≤ 0 then some (src, dst, sector)
      else
        let chunkSize : Int :=
          if size > blockSectorSize then blockSectorSize else size
        if dst.size ≤ sector then none
        else
          (fs.fileRead src buffer chunkSize).bind fun
            | (buffer, bytesRead, src) =>
                if (bytesRead : Int) ≠ chunkSize then none
                else
                  let buffer := buffer.fill chunkSize.toNat (blockSectorSize - chunkSize.toNat) 0
                  (dst.blockWrite sector buffer).bind fun dst =>
                    fs.appendCopy rounds src dst (sector + 1) buffer (size - chunkSize)

/-- `fsutil_append`, with the buffer that `malloc` gives. -/
def fsutilAppend (fs : Fs) (dst : Scratch) (sector : Nat)
    (fileName : List UInt8) (buffer : Memory) : Option (Fs × Scratch × Nat) :=
  (fs.filesysOpen fileName .plenty).bind fun
    | (_, none) => none
    | (fs, some src) =>
        (fs.fileLength src).bind fun size =>
          (ustarMakeHeader fileName .regular size buffer).bind fun
            | (false, _) => none
            | (true, buffer) =>
                (dst.blockWrite sector buffer).bind fun dst =>
                  (fs.appendCopy size.toNat src dst (sector + 1) buffer
                      size).bind fun
                    | (src, dst, sector) =>
                        (dst.blockWrite sector zeros).bind fun dst =>
                          (dst.blockWrite (sector + 1) zeros).bind fun dst =>
                            (fs.fileClose src always).map fun fs =>
                              (fs, dst, sector)

/-- `fsutil_append` for one file after the other. -/
def fsutilAppends (fs : Fs) (dst : Scratch) (sector : Nat) :
    List (List UInt8 × Memory) → Option (Fs × Scratch × Nat)
  | [] => some (fs, dst, sector)
  | (fileName, buffer) :: rest =>
      (fs.fsutilAppend dst sector fileName buffer).bind fun
        | (fs, dst, sector) => fs.fsutilAppends dst sector rest

/-! ## The loops -/

/-- One chunk, and the sectors of the rest. -/
theorem sectorsFor_chunk {size : Nat} (positive : 0 < size) :
    sectorsFor size = 1 + sectorsFor (size - min size blockSectorSize) := by
  unfold sectorsFor divRoundUp blockSectorSize
  omega

/-- A sector or what is left is copied, and then the rest. -/
theorem splice_next {disk src : Memory} {start size count sector : Nat}
    (inside : count ≤ size) (whole : count = blockSectorSize ∨ count = size) :
    (disk.splice start count (sectorBytes src sector)).splice (start + count)
        (size - count) (sectorBytes src (sector + 1)) =
      disk.splice start size (sectorBytes src sector) := by
  rcases whole with full | last
  · have next : sectorBytes src (sector + 1) = (sectorBytes src sector).drop count := by
      rw [sectorBytes, sectorBytes, Memory.drop_drop, full, Nat.add_mul, Nat.one_mul]
    rw [next, Memory.splice_splice, Nat.add_sub_cancel' inside]
  · rw [last, Nat.sub_self, Memory.splice_zero]

variable {fs : Fs} {found : Inode}

/-- Copying a file is writing it at once. -/
theorem extractCopy_eq {src : Scratch} {rounds sector size : Nat} {dst : File}
    (here : fs.findInode dst.inode = some found) (allowed : found.denyWriteCnt = 0)
    (within : found.data.Within fs.deviceSize)
    (room : dst.pos + size ≤ found.data.length.toNat) (enough : size ≤ rounds)
    (onScratch : sector + sectorsFor size ≤ src.size) :
    extractCopy src rounds fs sector dst size =
      some
        (fs.setDisk
            (fs.disk.splice (found.data.start * blockSectorSize + dst.pos) size
              (sectorBytes src.disk sector)),
          sector + sectorsFor size, { dst with pos := dst.pos + size }) := by
  induction rounds generalizing fs sector size dst with
  | zero =>
      have none : size = 0 := by omega
      rw [none, Memory.splice_zero]
      rfl
  | succ rounds inductionHypothesis =>
      rw [extractCopy]
      by_cases done : size = 0
      · rw [if_pos done, done, Memory.splice_zero]
        rfl
      · have chunk : (if size > blockSectorSize then blockSectorSize else size) =
            min size blockSectorSize := by
          split <;> omega
        have sectors := sectorsFor_chunk (Nat.pos_of_ne_zero done)
        have onDevice : sector < src.size := by omega
        simp only [if_neg done, chunk, Scratch.blockRead, if_pos onDevice, Option.bind_some]
        generalize amount : min size blockSectorSize = count at *
        have whole : moveCount found.data (count : Nat) dst.pos = count := by
          unfold moveCount
          omega
        have written : fs.inodeWriteAt dst.inode true
            (sectorBytes src.disk sector) (count : Nat) dst.pos = some (fs.setDisk _, _) :=
          inodeWriteAt_eq here allowed within
        rw [whole] at written
        have positive : 0 < blockSectorSize := by decide
        generalize reached :
          fs.setDisk
            (fs.disk.splice (found.data.start * blockSectorSize + dst.pos) count
              (sectorBytes src.disk sector)) = middle at written
        have stillOpen : middle.findInode dst.inode = some found := by
          rw [← reached]
          exact here
        have stillWithin : found.data.Within middle.deviceSize := by
          rw [← reached]
          exact within
        have rest := @inductionHypothesis middle (sector + 1) (size - count)
          { dst with pos := dst.pos + count } stillOpen stillWithin
          (by show dst.pos + count + (size - count) ≤ _; omega) (by omega)
          (by omega)
        rw [fileWrite, written, Option.map_some, Option.bind_some]
        simp only [ne_eq, not_true_eq_false, if_false]
        have position : dst.pos + count + (size - count) = dst.pos + size := by
          omega
        have place : found.data.start * blockSectorSize + (dst.pos + count) =
            found.data.start * blockSectorSize + dst.pos + count := by
          omega
        simp only [position, place] at rest
        have disk : middle.disk.splice
              (found.data.start * blockSectorSize + dst.pos + count)
              (size - count) (sectorBytes src.disk (sector + 1)) =
            fs.disk.splice (found.data.start * blockSectorSize + dst.pos) size
              (sectorBytes src.disk sector) := by
          rw [← reached]
          exact splice_next (by omega) (by omega)
        have state : ∀ disk, middle.setDisk disk = fs.setDisk disk := by
          intro disk
          rw [← reached]
          rfl
        rw [rest, disk, state, sectors, Nat.add_assoc]

/-- The bytes of a file, and null bytes behind them. -/
def padded (data : Memory) (size : Nat) : Memory := fun offset =>
  if offset < size then data offset else 0

theorem padded_drop (data : Memory) (size first : Nat) :
    (padded data size).drop first = padded (data.drop first) (size - first) := by
  funext offset
  rw [Memory.drop, padded, padded, Memory.drop]
  by_cases inside : first + offset < size
  · rw [if_pos inside, if_pos (by omega)]
  · rw [if_neg inside, if_neg (by omega)]

theorem splice_congr {disk buffer other : Memory} {start size : Nat}
    (agree : buffer.AgreeOn other 0 size) :
    disk.splice start size buffer = disk.splice start size other := by
  funext place
  rw [Memory.splice, Memory.splice]
  by_cases inside : start ≤ place ∧ place < start + size
  · rw [if_pos inside, if_pos inside]
    exact agree _ (Nat.zero_le _) (by omega)
  · rw [if_neg inside, if_neg inside]

/-- A sector with bytes and null bytes behind them is written, and then the
rest. -/
theorem splice_padded {disk data buffer : Memory} {start size count : Nat}
    (positive : 0 < size) (chunk : min size blockSectorSize = count) :
    (disk.splice start blockSectorSize
          ((buffer.splice 0 count data).fill count (blockSectorSize - count) 0)).splice
        (start + blockSectorSize) (sectorsFor (size - count) * blockSectorSize)
        (padded (data.drop count) (size - count)) =
      disk.splice start (sectorsFor size * blockSectorSize) (padded data size) := by
  have sectors := sectorsFor_chunk positive
  rw [chunk] at sectors
  have front : ((buffer.splice 0 count data).fill count
      (blockSectorSize - count) 0).AgreeOn (padded data size) 0
        blockSectorSize := by
    intro offset _ inside
    rw [Memory.fill, padded]
    by_cases here : offset < count
    · rw [if_neg (by omega), if_pos (by omega)]
      exact Memory.splice_zero_agreeOn buffer data count offset (Nat.zero_le _) here
    · rw [if_pos (by omega), if_neg (by omega)]
  have whole : sectorsFor size * blockSectorSize =
      blockSectorSize + sectorsFor (size - count) * blockSectorSize := by
    rw [sectors, Nat.add_mul, Nat.one_mul]
  rw [splice_congr front, whole]
  by_cases last : size - count = 0
  · have none : sectorsFor 0 = 0 := rfl
    rw [last, none, Nat.zero_mul, Memory.splice_zero, Nat.add_zero]
  · have full : count = blockSectorSize := by omega
    rw [← padded_drop, full, Memory.splice_splice]

/-- Copying a file writes its bytes and pads them. -/
theorem appendCopy_eq {dst : Scratch} {rounds sector size : Nat} {src : File}
    {buffer : Memory} (here : fs.findInode src.inode = some found)
    (within : found.data.Within fs.deviceSize)
    (room : src.pos + size ≤ found.data.length.toNat) (enough : size ≤ rounds)
    (onScratch : sector + sectorsFor size ≤ dst.size) :
    fs.appendCopy rounds src dst sector buffer (size : Nat) =
      some
        ({ src with pos := src.pos + size },
          { dst with
            disk := dst.disk.splice (sector * blockSectorSize)
              (sectorsFor size * blockSectorSize)
              (padded (fs.disk.drop (found.data.start * blockSectorSize + src.pos)) size) },
          sector + sectorsFor size) := by
  induction rounds generalizing src sector size dst buffer with
  | zero =>
      have none : size = 0 := by omega
      have sectors : sectorsFor size = 0 := by
        rw [none]
        rfl
      rw [sectors, Nat.zero_mul, Memory.splice_zero, none]
      rfl
  | succ rounds inductionHypothesis =>
      rw [appendCopy]
      by_cases done : size = 0
      · have sectors : sectorsFor size = 0 := by
          rw [done]
          rfl
        rw [if_pos (by omega), sectors, Nat.zero_mul, Memory.splice_zero, done]
        rfl
      · have chunk : (if (size : Int) > blockSectorSize then
              (blockSectorSize : Int) else (size : Int)) =
            (min size blockSectorSize : Nat) := by
          split <;> omega
        have sectors := sectorsFor_chunk (Nat.pos_of_ne_zero done)
        have onDevice : sector < dst.size := by omega
        have positive : 0 < blockSectorSize := by decide
        have notDone : ¬(size : Int) ≤ 0 := by omega
        have notFull : ¬dst.size ≤ sector := by omega
        simp only [if_neg notDone, chunk, if_neg notFull, Int.toNat_natCast]
        generalize amount : min size blockSectorSize = count at *
        have whole : moveCount found.data (count : Nat) src.pos = count := by
          unfold moveCount
          omega
        generalize source : found.data.start * blockSectorSize + src.pos = place at *
        have moved : fs.inodeReadAt src.inode true buffer (count : Nat) src.pos =
            some (buffer.splice 0 count (fs.disk.drop place), count) := by
          rw [inodeReadAt_eq here within, whole, source]
        rw [fileRead, moved, Option.map_some, Option.bind_some]
        simp only [ne_eq, not_true_eq_false, if_false, Scratch.blockWrite,
          if_pos onDevice, Option.bind_some]
        have rest : (size : Int) - (count : Nat) = ((size - count : Nat) : Int) := by
          omega
        have stillOpen : fs.findInode
            ({ src with pos := src.pos + count } : File).inode = some found :=
          here
        rw [rest, inductionHypothesis stillOpen]
        · have position : src.pos + count + (size - count) = src.pos + size := by
            omega
          have next : found.data.start * blockSectorSize + (src.pos + count) = place + count := by
            omega
          have later : (sector + 1) * blockSectorSize =
              sector * blockSectorSize + blockSectorSize := by
            rw [Nat.add_mul, Nat.one_mul]
          have disk := @splice_padded dst.disk (fs.disk.drop place) buffer
            (sector * blockSectorSize) size count (Nat.pos_of_ne_zero done) amount
          rw [Memory.drop_drop] at disk
          simp only [position, next, later, disk, sectors]
          rw [Nat.add_assoc]
        · show src.pos + count + (size - count) ≤ _
          omega
        · omega
        · show sector + 1 + sectorsFor (size - count) ≤ dst.size
          omega

/-! ## One file -/

variable {refs : Nat → Nat} {name : List UInt8} {count sector size : Nat}

/-- An open file that the root directory names. -/
theorem findInode_named (sound : RootSound fs refs) (opened : 0 < refs sector)
    (listed : (name, sector) ∈ rootNames fs.disk) :
    ∃ found,
      fs.findInode sector = some found ∧ found.denyWriteCnt = 0 ∧
        found.data = diskInode fs.disk sector ∧
          found.data.Within fs.deviceSize := by
  rcases OpenSound.find sound.opens opened with ⟨found, there, -, -, allowed, data, -⟩
  have within := (FsSound.layout sound).within sector (RootSound.owner_of_mem listed)
  rw [← data] at within
  exact ⟨found, there, allowed, data, within⟩

/-- A file of the archive comes to those of the root directory. -/
theorem extractFile_made {src : Scratch} (sound : RootSound fs refs)
    (compact : Compact fs count) (text : 0 ∉ name) (some_name : name ≠ [])
    (short : name.length ≤ nameMax) (fresh : name ∉ (rootNames fs.disk).map Prod.fst)
    (room : (rootNames fs.disk).length < rootEntries)
    (fits : count + (1 + sectorsFor size) ≤ fs.deviceSize)
    (onScratch : sector + sectorsFor size ≤ src.size) :
    ∃ after,
      extractFile src fs sector name size = some (after, sector + sectorsFor size) ∧
        RootSound after refs ∧ after.deviceSize = fs.deviceSize ∧
          Compact after (count + (1 + sectorsFor size)) ∧
            FileMade fs after name count
              (readBytes (sectorBytes src.disk sector) 0 size) := by
  rcases sound.filesysCreate_made compact text some_name short fresh room fits
    with ⟨made, created, madeSound, madeSize, taken, isMade⟩
  have listed : (name, count) ∈ rootNames made.disk := isMade.names.mem_iff.mpr List.mem_cons_self
  rcases madeSound.filesysOpen_named text listed with
    ⟨opened, opening, held, openedSize, sameDisk, sameMap⟩
  have openedMade : FileMade fs opened name count (List.replicate size 0) := by
    constructor
    · rw [sameDisk]
      exact isMade.names
    · rw [sameDisk]
      exact isMade.contents
    · rw [sameDisk]
      exact isMade.others
  have listedThere : (name, count) ∈ rootNames opened.disk := by
    rw [sameDisk]
    exact listed
  have here : 0 < hold refs (some count) count := by
    rw [hold_self]
    omega
  rcases findInode_named held here listedThere with ⟨found, there, allowed, data, within⟩
  have length : (fileContents opened.disk count).length = size := by
    rw [openedMade.contents, List.length_replicate]
  have inodeLength : found.data.length.toNat = size := by
    rw [fileContents, length_readBytes, ← data] at length
    exact length
  have copied := @extractCopy_eq opened found src size sector size
    ⟨count, 0, false⟩ there allowed within (by show 0 + size ≤ _; omega)
    (le_refl size) onScratch
  rw [Nat.add_zero, data] at copied
  have equation : extractCopy src size opened sector ⟨count, 0, false⟩ size =
      some (opened.overwrite count size (sectorBytes src.disk sector),
        sector + sectorsFor size, ⟨count, 0 + size, false⟩) := copied
  rcases @RootSound.overwrite opened _ name size count
      (sectorBytes src.disk sector) held here listedThere length with
    ⟨kept, names, -, -⟩
  have result : FileMade fs
      (opened.overwrite count size (sectorBytes src.disk sector)) name count
      (readBytes (sectorBytes src.disk sector) 0 size) :=
    openedMade.overwrite held here List.length_replicate
  generalize written : opened.overwrite count size (sectorBytes src.disk sector) = next at *
  have nextListed : (name, count) ∈ rootNames next.disk := by
    rw [names]
    exact listedThere
  rcases RootSound.fileClose_named kept (FsSound.mapOpen sound) (0 + size)
      nextListed with
    ⟨after, closed, final, size', disk', map'⟩
  have nextSize : next.deviceSize = opened.deviceSize := by
    rw [← written]
    rfl
  have nextMap : next.freeMap = opened.freeMap := by
    rw [← written]
    rfl
  refine ⟨after, ?_, final, ?_, ?_, ?_⟩
  · rw [extractFile, created, Option.bind_some]
    show (made.filesysOpen name .plenty).bind _ = _
    rw [opening, Option.bind_some]
    show (extractCopy src size opened sector ⟨count, 0, false⟩ size).bind _ = _
    rw [equation, Option.bind_some]
    show (next.fileClose ⟨count, 0 + size, false⟩ always).map _ = _
    rw [closed, Option.map_some]
  · rw [size', nextSize, openedSize, madeSize]
  · exact taken.congr (by rw [size', nextSize, openedSize]) (by rw [map', nextMap, sameMap])
  · constructor
    · rw [disk']
      exact result.names
    · rw [disk']
      exact result.contents
    · rw [disk']
      exact result.others

/-- The bytes of a file, filled up to whole sectors with null bytes. -/
def wholeSectors (contents : List UInt8) : List UInt8 :=
  contents ++ List.replicate (sectorsFor contents.length * blockSectorSize - contents.length) 0

theorem le_wholeSectors (size : Nat) : size ≤ sectorsFor size * blockSectorSize :=
  le_divRoundUp_mul size (by decide)

theorem length_wholeSectors (contents : List UInt8) :
    (wholeSectors contents).length = sectorsFor contents.length * blockSectorSize := by
  have bound := le_wholeSectors contents.length
  rw [wholeSectors, List.length_append, List.length_replicate]
  omega

theorem readBytes_zeros (start count : Nat) :
    readBytes zeros start count = List.replicate count 0 := by
  apply List.eq_replicate_iff.mpr
  constructor
  · exact length_readBytes _ _ _
  · intro byte member
    rcases List.mem_map.mp member with ⟨offset, -, rfl⟩
    rfl

theorem readBytes_padded (data : Memory) (size : Nat) :
    readBytes (padded data size) 0 (sectorsFor size * blockSectorSize) =
      wholeSectors (readBytes data 0 size) := by
  have bound := le_wholeSectors size
  have whole : sectorsFor size * blockSectorSize =
      size + (sectorsFor size * blockSectorSize - size) := by
    omega
  rw [wholeSectors, length_readBytes, whole, readBytes_append, Nat.add_sub_cancel_left]
  congr 1
  · apply readBytes_congr
    intro offset inside
    rw [padded, if_pos (by omega)]
  · rw [Nat.zero_add, ← readBytes_zeros size]
    apply readBytes_congr
    intro offset _
    rw [padded, if_neg (by omega)]
    rfl

/-- Four buffers that are written one behind the other. -/
theorem readBytes_four (disk first second third fourth : Memory)
    {start middle later last size bytes : Nat} (one : start + size = middle)
    (two : middle + bytes = later) (three : later + size = last) :
    readBytes
      ((((disk.splice start size first).splice middle bytes second).splice later
          size third).splice last size fourth)
      start (size + bytes + (size + size)) =
    readBytes first 0 size ++ readBytes second 0 bytes ++
      (readBytes third 0 size ++ readBytes fourth 0 size) := by
  have apart : ∀ {place more other most : Nat},
      place + more ≤ other ∨ other + most ≤ place →
        Apart place (place + more) other (other + most) :=
    fun outside => outside
  rw [readBytes_append, readBytes_append, readBytes_append, ← Nat.add_assoc start, one, two, three]
  congr 1
  · congr 1
    · rw [readBytes_splice_apart (apart (by omega)), readBytes_splice_apart (apart (by omega)),
        readBytes_splice_apart (apart (by omega)), readBytes_splice]
    · rw [readBytes_splice_apart (apart (by omega)),
        readBytes_splice_apart (apart (by omega)), readBytes_splice]
  · congr 1
    · rw [readBytes_splice_apart (apart (by omega)), readBytes_splice]
    · exact readBytes_splice _ _ _ _

/-- What `fsutil_append` writes: a header, the file and the end marker. -/
def appendedDisk (disk header data : Memory) (sector size : Nat) : Memory :=
  (((disk.splice (sector * blockSectorSize) blockSectorSize header).splice
          ((sector + 1) * blockSectorSize) (sectorsFor size * blockSectorSize)
          (padded data size)).splice
        ((sector + 1 + sectorsFor size) * blockSectorSize) blockSectorSize
        zeros).splice
    ((sector + 1 + sectorsFor size + 1) * blockSectorSize) blockSectorSize zeros

theorem readBytes_appendedDisk (disk header data : Memory) (sector size : Nat) :
    readBytes (appendedDisk disk header data sector size)
      (sector * blockSectorSize)
      ((1 + sectorsFor size + 2) * blockSectorSize) =
    readBytes header 0 blockSectorSize ++ wholeSectors (readBytes data 0 size) ++
      List.replicate (2 * blockSectorSize) 0 := by
  have total : (1 + sectorsFor size + 2) * blockSectorSize =
      blockSectorSize + sectorsFor size * blockSectorSize +
        (blockSectorSize + blockSectorSize) := by
    rw [Nat.add_mul, Nat.add_mul, Nat.one_mul, Nat.two_mul]
  rw [total, appendedDisk, readBytes_four, readBytes_padded, readBytes_zeros, Nat.two_mul,
    List.replicate_add]
  · rw [Nat.add_mul, Nat.one_mul]
  · rw [← Nat.add_mul]
  · rw [Nat.add_mul _ 1, Nat.one_mul]

theorem appendedDisk_before {disk header data : Memory} {sector size place : Nat}
    (before : place < sector * blockSectorSize) :
    appendedDisk disk header data sector size place = disk place := by
  have later : ∀ more, sector * blockSectorSize ≤ (sector + more) * blockSectorSize := by
    intro more
    exact Nat.mul_le_mul_right _ (Nat.le_add_right sector more)
  have second := later 1
  have third := later (1 + sectorsFor size)
  have fourth := later (1 + sectorsFor size + 1)
  rw [← Nat.add_assoc] at third
  rw [← Nat.add_assoc, ← Nat.add_assoc] at fourth
  rw [appendedDisk, Memory.splice, if_neg (by omega), Memory.splice,
    if_neg (by omega), Memory.splice, if_neg (by omega), Memory.splice,
    if_neg (by omega)]

/-- The bytes of a file with the header that `fsutil_append` puts before
them. -/
def appendedFile (buffer : Memory) (fileName contents : List UInt8) : List UInt8 :=
  readBytes
      (madeHeader buffer (stripAntisocialPrefixes fileName) .regular contents.length)
      0 blockSectorSize ++
    wholeSectors contents

/-- `fsutil_append` has written a file behind what was there. -/
structure Appended (fs after : Fs) (dst dst' : Scratch) (sector : Nat)
    (file : List UInt8) (refs : Nat → Nat) : Prop where
  sound : RootSound after refs
  disk : after.disk = fs.disk
  size : dst'.size = dst.size
  bytes :
    readBytes dst'.disk (sector * blockSectorSize)
        (file.length + 2 * blockSectorSize) =
      file ++ List.replicate (2 * blockSectorSize) 0
  before : ∀ place, place < sector * blockSectorSize → dst'.disk place = dst.disk place

theorem length_appendedFile (buffer : Memory) (fileName contents : List UInt8) :
    (appendedFile buffer fileName contents).length =
      (1 + sectorsFor contents.length) * blockSectorSize := by
  rw [appendedFile, List.length_append, length_readBytes, length_wholeSectors,
    Nat.add_mul, Nat.one_mul]

theorem fsutilAppend_eq {dst : Scratch} {owning : Nat} (buffer : Memory)
    (sound : RootSound fs refs) (text : 0 ∉ name)
    (short : (stripAntisocialPrefixes name).length ≤ 99)
    (listed : (name, owning) ∈ rootNames fs.disk)
    (room : sector + (1 + sectorsFor (fileContents fs.disk owning).length) + 2 ≤ dst.size) :
    ∃ after dst', fs.fsutilAppend dst sector name buffer = some (after, dst',
            sector + (1 + sectorsFor (fileContents fs.disk owning).length)) ∧
        Appended fs after dst dst' sector
          (appendedFile buffer name (fileContents fs.disk owning)) refs := by
  rcases sound.filesysOpen_named text listed with ⟨opened, opening, held, openedSize, sameDisk, -⟩
  have listedThere : (name, owning) ∈ rootNames opened.disk := by
    rw [sameDisk]
    exact listed
  have here : 0 < hold refs (some owning) owning := by
    rw [hold_self]
    omega
  rcases findInode_named held here listedThere with ⟨found, there, -, data, within⟩
  rcases RootSound.fileClose_named held (FsSound.mapOpen sound)
      (0 + (fileContents fs.disk owning).length) listedThere with
    ⟨after, closed, final, -, disk', -⟩
  have contents : fileContents fs.disk owning =
      readBytes (opened.disk.drop (found.data.start * blockSectorSize + 0)) 0
        found.data.length.toNat := by
    rw [data, sameDisk, readBytes_drop, Nat.add_zero]
    rfl
  generalize bytes : fileContents fs.disk owning = file at *
  have size : found.data.length.toNat = file.length := by
    rw [contents, length_readBytes]
  have length : opened.fileLength ⟨owning, 0, false⟩ = some (file.length : Int) := by
    rw [fileLength, there, Option.map_some, ← size, Int.toNat_of_nonneg within.nonneg]
  rw [size] at contents
  generalize source : opened.disk.drop (found.data.start * blockSectorSize + 0) = moved at contents
  have made : ustarMakeHeader name .regular file.length buffer =
      some (true, madeHeader buffer (stripAntisocialPrefixes name) .regular
        file.length) := by
    rw [ustarMakeHeader, if_neg (by decide)]
    dsimp only
    rw [if_neg (by omega)]
    rfl
  have copied := @appendCopy_eq opened found
    { dst with
      disk := dst.disk.splice (sector * blockSectorSize) blockSectorSize
        (madeHeader buffer (stripAntisocialPrefixes name) .regular file.length) }
    file.length (sector + 1) file.length ⟨owning, 0, false⟩
    (madeHeader buffer (stripAntisocialPrefixes name) .regular file.length)
    there within (by show 0 + file.length ≤ _; omega) (le_refl _)
    (by show sector + 1 + sectorsFor file.length ≤ dst.size; omega)
  rw [source] at copied
  have onDevice : sector < dst.size := by omega
  have marker : sector + 1 + sectorsFor file.length < dst.size := by omega
  have marker' : sector + 1 + sectorsFor file.length + 1 < dst.size := by omega
  have moved_bytes := readBytes_appendedDisk dst.disk
    (madeHeader buffer (stripAntisocialPrefixes name) .regular file.length) moved
    sector file.length
  rw [← contents] at moved_bytes
  refine ⟨after,
      { dst with
        disk := appendedDisk dst.disk
          (madeHeader buffer (stripAntisocialPrefixes name) .regular file.length)
          moved sector file.length },
      ?_, final, disk'.trans sameDisk, rfl, ?_,
      fun place before => appendedDisk_before before⟩
  · rw [fsutilAppend, opening, Option.bind_some]
    show (opened.fileLength ⟨owning, 0, false⟩).bind _ = _
    rw [length, Option.bind_some, made, Option.bind_some, Int.toNat_natCast]
    show (dst.blockWrite sector _).bind _ = _
    rw [Scratch.blockWrite, if_pos onDevice, Option.bind_some, copied, Option.bind_some]
    show (Scratch.blockWrite _ (sector + 1 + sectorsFor file.length) zeros).bind
      _ = _
    rw [Scratch.blockWrite, if_pos marker, Option.bind_some]
    show (Scratch.blockWrite _ (sector + 1 + sectorsFor file.length + 1) zeros).bind _ = _
    rw [Scratch.blockWrite, if_pos marker', Option.bind_some]
    show (opened.fileClose ⟨owning, 0 + file.length, false⟩ always).map _ = _
    rw [closed, Option.map_some, ← Nat.add_assoc sector]
    rfl
  · have total : (appendedFile buffer name file).length + 2 * blockSectorSize =
        (1 + sectorsFor file.length + 2) * blockSectorSize := by
      rw [length_appendedFile]
      exact (Nat.add_mul (1 + sectorsFor file.length) 2 blockSectorSize).symm
    rw [total]
    exact moved_bytes

end Fs

end CS162.Filesys

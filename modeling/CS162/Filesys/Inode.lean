import CS162.Devices.Partition
import CS162.Kernel.Bitmap

/-!
# Inodes

The parts of `filesys/inode.c` and `devices/block.c` that open inodes and move
bytes between a buffer and the sectors of a file.  A failed assertion, an
access past the end of the device and the use of an inode that has been freed
are `none`.
-/

namespace CS162.Filesys

open CS162.Foundation
open CS162.Kernel
open CS162.Devices (blockSectorSize)

/-- `INODE_MAGIC`. -/
def inodeMagic : Nat := 0x494e4f44

/-- `struct inode_disk` without its unused part. -/
structure InodeDisk where
  start : Nat
  length : Int
  magic : Nat
  deriving DecidableEq, Repr

/-- `struct inode` without its list element.  Its counters are of type `int`, but each
reference that is counted is a pointer of four bytes that is kept somewhere in memory, so
that there are fewer than 2^31 of them. -/
structure Inode where
  sector : Nat
  openCnt : Nat
  removed : Bool
  denyWriteCnt : Nat
  data : InodeDisk
  deriving DecidableEq, Repr

/-- The device, the global variables of the file system, and what an
uninitialised local variable holds.  An open inode is known by its sector. -/
structure Fs where
  deviceSize : Nat
  disk : Memory
  freeMap : Bitmap
  freeMapFile : Option Nat
  openInodes : List Inode
  stack : Memory

/-- `zeros`. -/
def zeros : Memory := fun _ => 0

/-- `bytes_to_sectors`; the sum is taken in `int`. -/
def bytesToSectors (size : Int) : Nat :=
  toUnsigned ((wrapSigned (size + blockSectorSize - 1)).tdiv blockSectorSize)

/-- The bytes of an on-disk inode; `calloc` has cleared the unused part. -/
def InodeDisk.bytes (data : InodeDisk) : Memory :=
  ((zeros.store32 0 data.start).store32 4 (toUnsigned data.length)).store32 8 data.magic

/-- The on-disk inode in a buffer. -/
def InodeDisk.ofBytes (buffer : Memory) : InodeDisk where
  start := buffer.load32 0
  length := wrapSigned (buffer.load32 4)
  magic := buffer.load32 8

/-- `byte_to_sector`; -1 is the largest sector number. -/
def InodeDisk.byteToSector (data : InodeDisk) (pos : Nat) : Nat :=
  if (pos : Int) < data.length then wrap (data.start + pos / blockSectorSize)
  else unsignedModulus - 1

/-- The `chunk_size` of the loops in `inode_read_at` and `inode_write_at`. -/
def InodeDisk.chunkSize (data : InodeDisk) (size : Int) (offset : Nat) : Int :=
  let inodeLeft := data.length - offset
  let sectorLeft : Int := blockSectorSize - (offset % blockSectorSize : Nat)
  let minLeft := if inodeLeft < sectorLeft then inodeLeft else sectorLeft
  if size < minLeft then size else minLeft

/-- The contents of a sector. -/
def sectorBytes (disk : Memory) (sector : Nat) : Memory := disk.drop (sector * blockSectorSize)

/-- The on-disk inode in a sector. -/
def diskInode (disk : Memory) (sector : Nat) : InodeDisk := .ofBytes (sectorBytes disk sector)

namespace Fs

def setDisk (fs : Fs) (disk : Memory) : Fs := { fs with disk := disk }

/-- `block_read`. -/
def blockRead (fs : Fs) (sector : Nat) : Option Memory :=
  if sector < fs.deviceSize then some (sectorBytes fs.disk sector) else none

/-- `block_write`. -/
def blockWrite (fs : Fs) (sector : Nat) (buffer : Memory) : Option Fs :=
  if sector < fs.deviceSize then
    some <| fs.setDisk (fs.disk.splice (sector * blockSectorSize) blockSectorSize buffer)
  else none

/-- The open inode that a pointer points to. -/
def findInode (fs : Fs) (sector : Nat) : Option Inode := fs.openInodes.find? (·.sector = sector)

/-- Changes the open inode that a pointer points to. -/
def updateInode (fs : Fs) (sector : Nat) (change : Inode → Inode) : Fs :=
  { fs with
    openInodes :=
      fs.openInodes.map fun inode =>
        if inode.sector = sector then change inode else inode }

/-- `inode_reopen`. -/
def inodeReopen (fs : Fs) (sector : Nat) : Fs :=
  fs.updateInode sector fun inode =>
    { inode with openCnt := inode.openCnt + 1 }

/-- The state after an inode that was not open has been read. -/
def pushInode (fs : Fs) (sector : Nat) (data : InodeDisk) : Fs :=
  { fs with
    openInodes :=
      { sector := sector
        openCnt := 1
        removed := false
        denyWriteCnt := 0
        data := data } :: fs.openInodes }

/-- `inode_open`: the pointer to the inode.  It is null when the inode is not
open yet and `malloc` has no memory for it. -/
def inodeOpen (fs : Fs) (sector : Nat) (memory : Bool) : Option (Fs × Option Nat) :=
  match fs.findInode sector with
  | some _ => some (fs.inodeReopen sector, some sector)
  | none =>
      if memory then
        (fs.blockRead sector).map fun buffer =>
          (fs.pushInode sector (.ofBytes buffer), some sector)
      else some (fs, none)

/-- `inode_remove`. -/
def inodeRemove (fs : Fs) (sector : Nat) : Fs :=
  fs.updateInode sector fun inode => { inode with removed := true }

/-- `inode_deny_write`. -/
def inodeDenyWrite (fs : Fs) (sector : Nat) : Option Fs :=
  (fs.findInode sector).bind fun inode =>
    if inode.denyWriteCnt + 1 ≤ inode.openCnt then
      some <| fs.updateInode sector fun inode =>
          { inode with denyWriteCnt := inode.denyWriteCnt + 1 }
    else none

/-- `inode_allow_write`. -/
def inodeAllowWrite (fs : Fs) (sector : Nat) : Option Fs :=
  (fs.findInode sector).bind fun inode =>
    if 0 < inode.denyWriteCnt ∧ inode.denyWriteCnt ≤ inode.openCnt then
      some <| fs.updateInode sector fun inode =>
          { inode with denyWriteCnt := inode.denyWriteCnt - 1 }
    else none

/-- The loop of `inode_read_at`, with the buffer and the number of bytes read
so far; `bounce` says whether `malloc` has memory for the bounce buffer. -/
def inodeReadLoop (fs : Fs) (data : InodeDisk) (bounce : Bool) :
    Nat → Memory → Int → Nat → Nat → Option (Memory × Nat)
  | 0, buffer, _, _, bytesRead => some (buffer, bytesRead)
  | rounds + 1, buffer, size, offset, bytesRead =>
      let chunkSize := data.chunkSize size offset
      if size ≤ 0 ∨ chunkSize ≤ 0 then some (buffer, bytesRead)
      else if
          (offset % blockSectorSize ≠ 0 ∨ chunkSize ≠ blockSectorSize) ∧
            bounce = false then
        some (buffer, bytesRead)
      else
        (fs.blockRead (data.byteToSector offset)).bind fun sector =>
          fs.inodeReadLoop data bounce rounds
            (buffer.splice bytesRead chunkSize.toNat (sector.drop (offset % blockSectorSize)))
            (size - chunkSize) (offset + chunkSize.toNat)
            (bytesRead + chunkSize.toNat)

/-- `inode_read_at`: the buffer and the number of bytes read. -/
def inodeReadAt (fs : Fs) (inode : Nat) (bounce : Bool) (buffer : Memory)
    (size : Int) (offset : Nat) : Option (Memory × Nat) :=
  (fs.findInode inode).bind fun inode =>
    fs.inodeReadLoop inode.data bounce size.toNat buffer size offset 0

/-- What the loop of `inode_write_at` writes to a sector. -/
def writeChunk (fs : Fs) (sectorIdx offset : Nat) (chunkSize : Nat) (buffer : Memory) : Option Fs :=
  if offset % blockSectorSize = 0 ∧ chunkSize = blockSectorSize then
    fs.blockWrite sectorIdx buffer
  else
    (if offset % blockSectorSize > 0 ∨
        chunkSize < blockSectorSize - offset % blockSectorSize then
      fs.blockRead sectorIdx
    else some zeros).bind fun bounce =>
      fs.blockWrite sectorIdx (bounce.splice (offset % blockSectorSize) chunkSize buffer)

/-- The loop of `inode_write_at`, with the number of bytes written so far. -/
def inodeWriteLoop (data : InodeDisk) (bounce : Bool) (buffer : Memory) :
    Nat → Fs → Int → Nat → Nat → Option (Fs × Nat)
  | 0, fs, _, _, bytesWritten => some (fs, bytesWritten)
  | rounds + 1, fs, size, offset, bytesWritten =>
      let chunkSize := data.chunkSize size offset
      if size ≤ 0 ∨ chunkSize ≤ 0 then some (fs, bytesWritten)
      else if
          (offset % blockSectorSize ≠ 0 ∨ chunkSize ≠ blockSectorSize) ∧
            bounce = false then
        some (fs, bytesWritten)
      else
        (fs.writeChunk (data.byteToSector offset) offset chunkSize.toNat
            (buffer.drop bytesWritten)).bind fun fs =>
          inodeWriteLoop data bounce buffer rounds fs (size - chunkSize)
            (offset + chunkSize.toNat) (bytesWritten + chunkSize.toNat)

/-- `inode_write_at`: the number of bytes written. -/
def inodeWriteAt (fs : Fs) (inode : Nat) (bounce : Bool) (buffer : Memory)
    (size : Int) (offset : Nat) : Option (Fs × Nat) :=
  (fs.findInode inode).bind fun inode =>
    if inode.denyWriteCnt ≠ 0 then some (fs, 0)
    else
      inodeWriteLoop inode.data bounce buffer size.toNat fs size offset 0

end Fs

section Arithmetic

/-- IDE disks of a gigabyte or more are ignored. -/
def deviceLimit : Nat := 1024 * 1024 * 1024 / blockSectorSize

/-- The number of sectors that a file of this length needs. -/
def sectorsFor (length : Nat) : Nat := divRoundUp length blockSectorSize

/-- `bytes_to_sectors` rounds up, and when the sum overflows both numbers are
beyond every device. -/
theorem bytesToSectors_natCast {length : Nat} (bounded : length < 2147483648) :
    bytesToSectors length = sectorsFor length ∨
      deviceLimit ≤ bytesToSectors length ∧
        deviceLimit ≤ sectorsFor length := by
  unfold bytesToSectors sectorsFor deviceLimit divRoundUp blockSectorSize
  by_cases small : length < 2147483137
  · left
    have sum :
        wrapSigned ((length : Int) + (512 : Nat) - 1) = ((length + 512 - 1 : Nat) : Int) := by
      rw [wrapSigned_of_lt] <;> omega
    rw [sum, Int.tdiv_eq_ediv_of_nonneg (by omega)]
    unfold toUnsigned
    omega
  · right
    have sum :
        wrapSigned ((length : Int) + (512 : Nat) - 1) =
          -((4294967296 - (length + 511) : Nat) : Int) := by
      unfold wrapSigned
      omega
    rw [sum, Int.neg_tdiv, Int.tdiv_eq_ediv_of_nonneg (by omega)]
    unfold toUnsigned
    omega

/-- An on-disk inode whose sectors are all on the device. -/
structure InodeDisk.Within (data : InodeDisk) (deviceSize : Nat) : Prop where
  nonneg : 0 ≤ data.length
  onDevice : data.start + sectorsFor data.length.toNat ≤ deviceSize
  addressable : deviceSize ≤ deviceLimit

variable {data : InodeDisk} {deviceSize offset : Nat} {size : Int}

theorem InodeDisk.Within.byteToSector (within : data.Within deviceSize)
    (inside : offset < data.length.toNat) :
    data.byteToSector offset = data.start + offset / blockSectorSize ∧
      data.start + offset / blockSectorSize < deviceSize := by
  have bound := le_divRoundUp_mul data.length.toNat (show 0 < blockSectorSize by decide)
  rcases within with ⟨nonneg, onDevice, addressable⟩
  unfold sectorsFor at onDevice
  have less : data.start + offset / blockSectorSize < deviceSize := by
    unfold blockSectorSize at *
    omega
  refine ⟨?_, less⟩
  rw [InodeDisk.byteToSector, if_pos (by omega)]
  apply wrap_of_lt
  unfold deviceLimit blockSectorSize at *
  unfold unsignedModulus
  omega

/-- One round of the loops moves something unless all is done. -/
theorem InodeDisk.chunkSize_le (offset : Nat) (nonneg : 0 ≤ data.length) (positive : 0 < size) :
    (data.chunkSize size offset ≤ 0 ↔ data.length.toNat ≤ offset) ∧
      data.chunkSize size offset ≤ size ∧
      (data.chunkSize size offset).toNat ≤ data.length.toNat - offset ∧
      (data.chunkSize size offset).toNat ≤ blockSectorSize - offset % blockSectorSize := by
  have rest : offset % blockSectorSize < blockSectorSize := Nat.mod_lt offset (by decide)
  unfold InodeDisk.chunkSize
  simp only
  split <;> split <;> omega

end Arithmetic

/-- Where a byte of a file is on the disk. -/
theorem sector_add_offset (start offset : Nat) :
    (start + offset / blockSectorSize) * blockSectorSize +
        offset % blockSectorSize =
      start * blockSectorSize + offset := by
  unfold blockSectorSize
  omega

/-! ## The loops of inodes -/

/-- A call of `block_read` or `block_write` on the device. -/
inductive SectorAccess where
  | read (sector : Nat)
  | write (sector : Nat)
  deriving DecidableEq

def SectorAccess.sector : SectorAccess → Nat
  | read sector => sector
  | write sector => sector

/-- How far a loop has come: whether it has ended, what it has accessed, what it
has made and the number of bytes moved. -/
structure IoRun (Value : Type) where
  ended : Bool
  accesses : List SectorAccess
  value : Value
  moved : Nat

/-- The result of the loop alone. -/
def IoRun.result {Value : Type} (run : IoRun Value) : Value × Nat := (run.value, run.moved)

/-- An access to a sector of a file. -/
def SectorAccess.InExtent (access : SectorAccess) (data : InodeDisk) : Prop :=
  data.start ≤ access.sector ∧ access.sector < data.start + sectorsFor data.length.toNat

namespace Fs

/-- The loop of `inode_read_at` with the sectors it reads. -/
def inodeReadRun (fs : Fs) (data : InodeDisk) (bounce : Bool) :
    Nat → List SectorAccess → Memory → Int → Nat → Nat → Option (IoRun Memory)
  | 0, accesses, buffer, _, _, bytesRead =>
      some ⟨false, accesses, buffer, bytesRead⟩
  | rounds + 1, accesses, buffer, size, offset, bytesRead =>
      let chunkSize := data.chunkSize size offset
      if size ≤ 0 ∨ chunkSize ≤ 0 then
        some ⟨true, accesses, buffer, bytesRead⟩
      else if
          (offset % blockSectorSize ≠ 0 ∨ chunkSize ≠ blockSectorSize) ∧
            bounce = false then
        some ⟨true, accesses, buffer, bytesRead⟩
      else
        (fs.blockRead (data.byteToSector offset)).bind fun sector =>
          fs.inodeReadRun data bounce rounds
            (accesses ++ [.read (data.byteToSector offset)])
            (buffer.splice bytesRead chunkSize.toNat (sector.drop (offset % blockSectorSize)))
            (size - chunkSize) (offset + chunkSize.toNat)
            (bytesRead + chunkSize.toNat)

/-- The accesses of `writeChunk`. -/
def chunkAccesses (sectorIdx offset chunkSize : Nat) : List SectorAccess :=
  if offset % blockSectorSize = 0 ∧ chunkSize = blockSectorSize then
    [.write sectorIdx]
  else if offset % blockSectorSize > 0 ∨
      chunkSize < blockSectorSize - offset % blockSectorSize then
    [.read sectorIdx, .write sectorIdx]
  else [.write sectorIdx]

/-- The loop of `inode_write_at` with the sectors it reads and writes. -/
def inodeWriteRun (data : InodeDisk) (bounce : Bool) (buffer : Memory) :
    Nat → List SectorAccess → Fs → Int → Nat → Nat → Option (IoRun Fs)
  | 0, accesses, fs, _, _, bytesWritten =>
      some ⟨false, accesses, fs, bytesWritten⟩
  | rounds + 1, accesses, fs, size, offset, bytesWritten =>
      let chunkSize := data.chunkSize size offset
      if size ≤ 0 ∨ chunkSize ≤ 0 then
        some ⟨true, accesses, fs, bytesWritten⟩
      else if
          (offset % blockSectorSize ≠ 0 ∨ chunkSize ≠ blockSectorSize) ∧
            bounce = false then
        some ⟨true, accesses, fs, bytesWritten⟩
      else
        (fs.writeChunk (data.byteToSector offset) offset chunkSize.toNat
            (buffer.drop bytesWritten)).bind fun fs =>
          inodeWriteRun data bounce buffer rounds
            (accesses ++ chunkAccesses (data.byteToSector offset) offset chunkSize.toNat)
            fs (size - chunkSize) (offset + chunkSize.toNat)
            (bytesWritten + chunkSize.toNat)

variable {fs : Fs} {data : InodeDisk} {bounce : Bool} {buffer : Memory}
variable {size : Int} {rounds offset moved inode : Nat}
variable {accesses : List SectorAccess}

/-- Without the accesses the loop is the one of `inode_read_at`. -/
theorem inodeReadRun_result :
    (fs.inodeReadRun data bounce rounds accesses buffer size offset moved).map
        IoRun.result =
      fs.inodeReadLoop data bounce rounds buffer size offset moved := by
  induction rounds generalizing accesses buffer size offset moved with
  | zero => rfl
  | succ rounds inductionHypothesis =>
      rw [inodeReadRun, inodeReadLoop]
      split
      · rfl
      · split
        · rfl
        · rw [Option.map_bind]
          congr 1
          funext sector
          exact inductionHypothesis

theorem inodeWriteRun_result :
    (inodeWriteRun data bounce buffer rounds accesses fs size offset moved).map
        IoRun.result =
      inodeWriteLoop data bounce buffer rounds fs size offset moved := by
  induction rounds generalizing accesses fs size offset moved with
  | zero => rfl
  | succ rounds inductionHypothesis =>
      rw [inodeWriteRun, inodeWriteLoop]
      split
      · rfl
      · split
        · rfl
        · rw [Option.map_bind]
          congr 1
          funext fs
          exact inductionHypothesis

/-- The bytes that the loops move in all. -/
def moveCount (data : InodeDisk) (size : Int) (offset : Nat) : Nat :=
  min size.toNat (data.length.toNat - offset)

/-- The bytes that the loops move: all, or without a bounce buffer only whole
sectors from the start of a sector. -/
def movedCount (data : InodeDisk) (bounce : Bool) (size : Int) (offset : Nat) :
    Nat :=
  if bounce then moveCount data size offset
  else if offset % blockSectorSize = 0 then
    moveCount data size offset / blockSectorSize * blockSectorSize
  else 0

theorem movedCount_le : movedCount data bounce size offset ≤ moveCount data size offset := by
  rw [movedCount]
  split
  · exact Nat.le_refl _
  · split
    · exact Nat.div_mul_le_self _ _
    · exact Nat.zero_le _

/-- One round moves what is left, to the end of the sector. -/
theorem chunkSize_eq (nonneg : 0 ≤ data.length) (positive : 0 < size) :
    (data.chunkSize size offset).toNat =
      min (moveCount data size offset)
        (blockSectorSize - offset % blockSectorSize) := by
  have rest : offset % blockSectorSize < blockSectorSize := Nat.mod_lt offset (by decide)
  unfold InodeDisk.chunkSize moveCount
  dsimp only
  split <;> split <;> omega

/-- A round that moves nothing is the last. -/
theorem movedCount_of_stop (nonneg : 0 ≤ data.length)
    (stop : (size ≤ 0 ∨ data.chunkSize size offset ≤ 0) ∨
      (offset % blockSectorSize ≠ 0 ∨
        data.chunkSize size offset ≠ blockSectorSize) ∧ bounce = false) :
    movedCount data bounce size offset = 0 := by
  have bound := @movedCount_le data bounce size offset
  by_cases positive : 0 < size
  · have chunk := @chunkSize_eq _ _ offset nonneg positive
    have rest : offset % blockSectorSize < blockSectorSize := Nat.mod_lt offset (by decide)
    rcases stop with (empty | zero) | ⟨part, noBounce⟩
    · omega
    · omega
    · rw [movedCount, noBounce, if_neg Bool.false_ne_true]
      split
      · rename_i aligned
        have short : moveCount data size offset < blockSectorSize := by
          rcases part with notAligned | notWhole
          · exact absurd aligned notAligned
          · omega
        rw [Nat.div_eq_of_lt short, Nat.zero_mul]
      · rfl
  · unfold moveCount at bound
    omega

/-- A round that moves a chunk leaves the rest to the next. -/
theorem movedCount_of_chunk (nonneg : 0 ≤ data.length) (positive : 0 < size)
    (some_bytes : 0 < data.chunkSize size offset)
    (possible : ¬((offset % blockSectorSize ≠ 0 ∨
      data.chunkSize size offset ≠ blockSectorSize) ∧ bounce = false)) :
    movedCount data bounce size offset =
      (data.chunkSize size offset).toNat +
        movedCount data bounce (size - data.chunkSize size offset)
          (offset + (data.chunkSize size offset).toNat) := by
  have chunk := @chunkSize_eq _ _ offset nonneg positive
  have rest : offset % blockSectorSize < blockSectorSize := Nat.mod_lt offset (by decide)
  generalize data.chunkSize size offset = chunkSize at *
  have later : moveCount data (size - chunkSize) (offset + chunkSize.toNat) =
      moveCount data size offset - chunkSize.toNat := by
    unfold moveCount
    omega
  rw [movedCount, movedCount, later]
  cases bounce with
  | true =>
      rw [if_pos rfl, if_pos rfl]
      omega
  | false =>
      have whole : offset % blockSectorSize = 0 ∧
          chunkSize = blockSectorSize := by
        by_contra part
        apply possible
        constructor
        · by_contra neither
          apply part
          omega
        · rfl
      rw [if_neg Bool.false_ne_true, if_neg Bool.false_ne_true, if_pos whole.1, if_pos]
      · unfold blockSectorSize at *
        omega
      · unfold blockSectorSize at *
        omega

theorem byteToSector_inExtent (within : data.Within fs.deviceSize)
    (inside : offset < data.length.toNat) {access : SectorAccess}
    (here : access.sector = data.byteToSector offset) :
    access.InExtent data := by
  rcases within.byteToSector inside with ⟨sector, _⟩
  have enough := le_divRoundUp_mul data.length.toNat (show 0 < blockSectorSize by decide)
  rw [SectorAccess.InExtent, here, sector]
  unfold sectorsFor blockSectorSize at *
  omega

/-- A round of the loops in which they end. -/
abbrev Stops (data : InodeDisk) (bounce : Bool) (size : Int) (offset : Nat) : Prop :=
  (size ≤ 0 ∨ data.chunkSize size offset ≤ 0) ∨
    (offset % blockSectorSize ≠ 0 ∨ data.chunkSize size offset ≠ blockSectorSize) ∧ bounce = false

/-- A round of the loops moves nothing and is the last, or it moves a chunk inside a sector
of the file and leaves the rest to the next. -/
theorem stops_or_moves (bounce : Bool) (size : Int) (offset : Nat)
    (within : data.Within fs.deviceSize) :
    Stops data bounce size offset ∧ movedCount data bounce size offset = 0 ∨
      ¬Stops data bounce size offset ∧ offset < data.length.toNat ∧
        data.byteToSector offset = data.start + offset / blockSectorSize ∧
        data.start + offset / blockSectorSize < fs.deviceSize ∧
        (data.chunkSize size offset).toNat ≤ blockSectorSize - offset % blockSectorSize ∧
        (size - data.chunkSize size offset).toNat < size.toNat ∧
        movedCount data bounce size offset =
          (data.chunkSize size offset).toNat +
            movedCount data bounce (size - data.chunkSize size offset)
              (offset + (data.chunkSize size offset).toNat) := by
  by_cases stop : Stops data bounce size offset
  · exact Or.inl ⟨stop, movedCount_of_stop within.nonneg stop⟩
  · have going := not_or.mp stop
    have positive : 0 < size := by omega
    rcases InodeDisk.chunkSize_le offset within.nonneg positive with ⟨zero, most, left, inSector⟩
    have inside : offset < data.length.toNat := by omega
    rcases within.byteToSector inside with ⟨sector, onDevice⟩
    have count := movedCount_of_chunk within.nonneg positive (by omega) going.2
    exact Or.inr ⟨stop, inside, sector, onDevice, inSector, by omega, count⟩

theorem movedCount_of_nonpos (within : data.Within fs.deviceSize) (none : size ≤ 0) :
    movedCount data bounce size offset = 0 :=
  movedCount_of_stop within.nonneg (Or.inl (Or.inl none))

/-- The end of the loop of `inode_read_at`: what it has read, from where. -/
theorem inodeReadRun_moves (within : data.Within fs.deviceSize) (enough : size.toNat ≤ rounds) :
    ∃ run, fs.inodeReadRun data bounce rounds accesses buffer size offset moved = some run ∧
      (size.toNat < rounds → run.ended = true) ∧
      run.value = buffer.splice moved (movedCount data bounce size offset)
        (fs.disk.drop (data.start * blockSectorSize + offset)) ∧
      run.moved = moved + movedCount data bounce size offset ∧
      ∀ access ∈ run.accesses, access ∈ accesses ∨
        (∃ sector, access = .read sector) ∧ access.InExtent data := by
  induction rounds generalizing accesses buffer size offset moved with
  | zero =>
      rw [movedCount_of_nonpos within (by omega)]
      exact ⟨_, rfl, fun more => absurd more (Nat.not_lt_zero _),
        (Memory.splice_zero ..).symm, rfl, fun access member => Or.inl member⟩
  | succ rounds inductionHypothesis =>
      rw [inodeReadRun, ← ite_or]
      rcases stops_or_moves bounce size offset within with
        ⟨stop, none⟩ | ⟨going, inside, sector, onDevice, _, fewer, count⟩
      · rw [none]
        exact ⟨⟨true, accesses, buffer, moved⟩, if_pos stop, fun _ => rfl,
          (Memory.splice_zero ..).symm, rfl, fun access member => Or.inl member⟩
      · have extent : (SectorAccess.read (data.byteToSector offset)).InExtent
            data := byteToSector_inExtent within inside rfl
        rw [if_neg going, count]
        rw [sector] at extent ⊢
        simp only [blockRead, if_pos onDevice, Option.bind_some]
        generalize data.chunkSize size offset = chunk at *
        rcases inductionHypothesis (show (size - chunk).toNat ≤ rounds by omega) with
          ⟨run, runs, ended, value, count', listed⟩
        refine ⟨run, runs, fun more => ended (by omega), ?_, ?_, ?_⟩
        · have next :
              fs.disk.drop (data.start * blockSectorSize + (offset + chunk.toNat)) =
                (fs.disk.drop (data.start * blockSectorSize + offset)).drop
                  chunk.toNat := by
            rw [Memory.drop_drop, Nat.add_assoc]
          rw [value, sectorBytes, Memory.drop_drop, sector_add_offset, next, Memory.splice_splice]
        · rw [count', Nat.add_assoc]
        · intro access member
          rcases listed access member with before | new
          · rcases List.mem_append.mp before with first | here
            · exact Or.inl first
            · rw [List.mem_singleton.mp here]
              exact Or.inr ⟨⟨_, rfl⟩, extent⟩
          · exact Or.inr new

/-- One round of `inode_write_at` changes the bytes of the chunk only. -/
theorem writeChunk_eq {sectorIdx chunkSize : Nat} (onDevice : sectorIdx < fs.deviceSize)
    (inSector : chunkSize ≤ blockSectorSize - offset % blockSectorSize) :
    fs.writeChunk sectorIdx offset chunkSize buffer =
      some
        (fs.setDisk
          (fs.disk.splice
            (sectorIdx * blockSectorSize + offset % blockSectorSize)
            chunkSize buffer)) := by
  have rest : offset % blockSectorSize < blockSectorSize := Nat.mod_lt offset (by decide)
  unfold writeChunk
  by_cases full : offset % blockSectorSize = 0 ∧ chunkSize = blockSectorSize
  · rw [if_pos full, blockWrite, if_pos onDevice, full.1, full.2, Nat.add_zero]
  · have partly :
        offset % blockSectorSize > 0 ∨
          chunkSize < blockSectorSize - offset % blockSectorSize := by
      omega
    rw [if_neg full, if_pos partly, blockRead, if_pos onDevice,
      Option.bind_some, blockWrite, if_pos onDevice, sectorBytes,
      Memory.splice_splice_drop _ _ (by omega)]

theorem mem_chunkAccesses {sectorIdx chunkSize : Nat} {access : SectorAccess}
    (member : access ∈ chunkAccesses sectorIdx offset chunkSize) :
    access.sector = sectorIdx := by
  rw [chunkAccesses] at member
  split at member
  · rw [List.mem_singleton.mp member]
    rfl
  · split at member
    · rcases List.mem_pair.mp member with first | second
      · rw [first]
        rfl
      · rw [second]
        rfl
    · rw [List.mem_singleton.mp member]
      rfl

/-- The end of the loop of `inode_write_at`: what it has written, and where. -/
theorem inodeWriteRun_moves (within : data.Within fs.deviceSize) (enough : size.toNat ≤ rounds) :
    ∃ run, inodeWriteRun data bounce buffer rounds accesses fs size offset moved = some run ∧
      (size.toNat < rounds → run.ended = true) ∧
      run.value = fs.setDisk
        (fs.disk.splice (data.start * blockSectorSize + offset)
          (movedCount data bounce size offset) (buffer.drop moved)) ∧
      run.moved = moved + movedCount data bounce size offset ∧
      ∀ access ∈ run.accesses, access ∈ accesses ∨ access.InExtent data := by
  induction rounds generalizing accesses fs size offset moved with
  | zero =>
      rw [movedCount_of_nonpos within (by omega), Memory.splice_zero]
      exact ⟨_, rfl, fun more => absurd more (Nat.not_lt_zero _), rfl, rfl,
        fun access member => Or.inl member⟩
  | succ rounds inductionHypothesis =>
      rw [inodeWriteRun, ← ite_or]
      rcases stops_or_moves bounce size offset within with
        ⟨stop, none⟩ | ⟨going, inside, sector, onDevice, inSector, fewer, count⟩
      · rw [none, Memory.splice_zero]
        exact ⟨⟨true, accesses, fs, moved⟩, if_pos stop, fun _ => rfl, rfl, rfl,
          fun access member => Or.inl member⟩
      · have extent : ∀ access : SectorAccess,
            access.sector = data.byteToSector offset → access.InExtent data :=
          fun access here => byteToSector_inExtent within inside here
        rw [if_neg going, count]
        rw [sector] at extent ⊢
        generalize data.chunkSize size offset = chunk at *
        rw [writeChunk_eq onDevice inSector, sector_add_offset, Option.bind_some]
        have sameWithin : data.Within (fs.setDisk
            (fs.disk.splice (data.start * blockSectorSize + offset) chunk.toNat
              (buffer.drop moved))).deviceSize := within
        rcases inductionHypothesis sameWithin
            (show (size - chunk).toNat ≤ rounds by omega) with
          ⟨run, runs, ended, value, count', listed⟩
        refine ⟨run, runs, fun more => ended (by omega), ?_, ?_, ?_⟩
        · have whole := Memory.splice_splice fs.disk (buffer.drop moved)
            (data.start * blockSectorSize + offset) chunk.toNat
            (movedCount data bounce (size - chunk) (offset + chunk.toNat))
          rw [value, ← Memory.drop_drop, ← Nat.add_assoc (data.start * _)]
          exact congrArg fs.setDisk whole
        · rw [count', Nat.add_assoc]
        · intro access member
          rcases listed access member with before | new
          · rcases List.mem_append.mp before with first | here
            · exact Or.inl first
            · exact Or.inr (extent access (mem_chunkAccesses here))
          · exact Or.inr new

/-- `inode_read_at` reads what is left of the file from the offset on. -/
theorem inodeReadLoop_eq (within : data.Within fs.deviceSize) (enough : size.toNat ≤ rounds) :
    fs.inodeReadLoop data true rounds buffer size offset moved =
      some
        (buffer.splice moved (moveCount data size offset)
            (fs.disk.drop (data.start * blockSectorSize + offset)),
          moved + moveCount data size offset) := by
  rcases @inodeReadRun_moves _ _ true buffer _ _ offset moved [] within enough with
    ⟨run, runs, _, value, count, _⟩
  rw [← inodeReadRun_result, runs, Option.map_some, IoRun.result, value, count]
  rfl

/-- `inode_write_at` writes to what is left of the file from the offset
on. -/
theorem inodeWriteLoop_eq (within : data.Within fs.deviceSize) (enough : size.toNat ≤ rounds) :
    inodeWriteLoop data true buffer rounds fs size offset moved =
      some
        (fs.setDisk
            (fs.disk.splice (data.start * blockSectorSize + offset)
              (moveCount data size offset) (buffer.drop moved)),
          moved + moveCount data size offset) := by
  rcases @inodeWriteRun_moves _ _ true buffer _ _ offset moved [] within enough with
    ⟨run, runs, _, value, count, _⟩
  rw [← inodeWriteRun_result, runs, Option.map_some, IoRun.result, value, count]
  rfl

theorem inodeReadAt_eq {found : Inode} (here : fs.findInode inode = some found)
    (within : found.data.Within fs.deviceSize) :
    fs.inodeReadAt inode true buffer size offset =
      some
        (buffer.splice 0 (moveCount found.data size offset)
            (fs.disk.drop (found.data.start * blockSectorSize + offset)),
          moveCount found.data size offset) := by
  rw [inodeReadAt, here, Option.bind_some,
    inodeReadLoop_eq within (le_refl size.toNat), Nat.zero_add]

theorem inodeWriteAt_eq {found : Inode} (here : fs.findInode inode = some found)
    (allowed : found.denyWriteCnt = 0) (within : found.data.Within fs.deviceSize) :
    fs.inodeWriteAt inode true buffer size offset =
      some
        (fs.setDisk
            (fs.disk.splice (found.data.start * blockSectorSize + offset)
              (moveCount found.data size offset) buffer),
          moveCount found.data size offset) := by
  have whole : buffer.drop 0 = buffer := by
    funext place
    rw [Memory.drop, Nat.zero_add]
  rw [inodeWriteAt, here, Option.bind_some, if_neg (not_not_intro allowed),
    inodeWriteLoop_eq within (le_refl size.toNat), whole, Nat.zero_add]

theorem findInode_updateInode (fs : Fs) {change : Inode → Inode}
    (keeps : ∀ inode, (change inode).sector = inode.sector) (sector other : Nat) :
    (fs.updateInode sector change).findInode other = (fs.findInode other).map fun inode =>
        if inode.sector = sector then change inode else inode := by
  have same : ((fun inode : Inode => decide (inode.sector = other)) ∘ fun inode =>
          if inode.sector = sector then change inode else inode) =
        fun inode => decide (inode.sector = other) := by
    funext inode
    by_cases this : inode.sector = sector
    · simp only [Function.comp_apply, if_pos this, keeps]
    · simp only [Function.comp_apply, if_neg this]
  unfold findInode updateInode
  rw [List.find?_map, same]

theorem findInode_pushInode (fs : Fs) (sector other : Nat) (data : InodeDisk) :
    (fs.pushInode sector data).findInode other =
      if sector = other then
        some
          { sector := sector
            openCnt := 1
            removed := false
            denyWriteCnt := 0
            data := data }
      else fs.findInode other := by
  unfold findInode pushInode
  by_cases this : sector = other
  · rw [if_pos this, List.find?_cons_of_pos (by simpa using this)]
  · rw [if_neg this, List.find?_cons_of_neg (by simpa using this)]

/-- Opening an inode gives a pointer to it and leaves the rest of what is open
as it was. -/
theorem inodeOpen_eq {sector : Nat} {after : Fs} {pointer : Option Nat}
    (opened : fs.inodeOpen sector true = some (after, pointer)) :
    pointer = some sector ∧ after.deviceSize = fs.deviceSize ∧
      after.disk = fs.disk ∧ after.freeMap = fs.freeMap ∧
        after.freeMapFile = fs.freeMapFile ∧ after.stack = fs.stack ∧
          ∀ other found, fs.findInode other = some found →
            ∃ later, after.findInode other = some later ∧
              later.data = found.data ∧
                later.denyWriteCnt = found.denyWriteCnt := by
  unfold inodeOpen at opened
  cases here : fs.findInode sector with
  | some inode =>
      rw [here] at opened
      cases opened
      refine ⟨rfl, rfl, rfl, rfl, rfl, rfl, ?_⟩
      intro other found there
      rw [inodeReopen, findInode_updateInode, there]
      · refine ⟨_, rfl, ?_⟩
        by_cases this : found.sector = sector
        · simp only [if_pos this, and_self]
        · simp only [if_neg this, and_self]
      · intro inode
        rfl
  | none =>
      rw [here] at opened
      simp only [if_true] at opened
      rcases Option.map_eq_some_iff.mp opened with ⟨buffer, read, result⟩
      cases result
      refine ⟨rfl, rfl, rfl, rfl, rfl, rfl, ?_⟩
      intro other found there
      have different : sector ≠ other := by
        intro same
        rw [same, there] at here
        cases here
      rw [findInode_pushInode, if_neg different]
      exact ⟨found, there, rfl, rfl⟩

end Fs

end CS162.Filesys

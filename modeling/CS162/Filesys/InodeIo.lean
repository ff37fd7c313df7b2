import CS162.Filesys.Inode

/-!
# Byte access to files

`inode_read_at` and `inode_write_at` for every outcome of the allocation of the
bounce buffer: which bytes they move, which sectors they read and write on the
way, and that their loops come to an end.
-/

namespace CS162.Filesys

open CS162.Foundation
open CS162.Devices (blockSectorSize)

namespace Fs

variable {fs : Fs} {data : InodeDisk} {bounce : Bool} {buffer : Memory}
variable {size : Int} {rounds offset moved inode : Nat}
variable {accesses : List SectorAccess}

/-! ## The guarantee -/

/-- The byte of a file at an offset. -/
def fileByte (disk : Memory) (data : InodeDisk) (offset : Nat) : UInt8 :=
  disk (data.start * blockSectorSize + offset)

/-- The number of bytes moved is at most what the buffer and the file have, and
that many with a bounce buffer. -/
def CountRight (data : InodeDisk) (bounce : Bool) (size : Int) (offset n : Nat) :
    Prop :=
  (n : Int) ≤ max 0 (min size (data.length - offset)) ∧
    (bounce = true → (n : Int) = max 0 (min size (data.length - offset)))

theorem movedCount_right (nonneg : 0 ≤ data.length) :
    CountRight data bounce size offset (movedCount data bounce size offset) := by
  have bound := @movedCount_le data bounce size offset
  unfold moveCount at bound
  constructor
  · omega
  · intro memory
    rw [movedCount, if_pos memory, moveCount]
    omega

/-- What a call of `inode_read_at` and one of `inode_write_at` do.  The sums of
an offset and a size that `off_t` can hold are not beyond it in any round. -/
structure ByteIo (fs : Fs) (inode : Nat) (found : Inode) (bounce : Bool)
    (buffer : Memory) (size : Int) (offset : Nat) : Prop where
  read : ∃ after n,
    fs.inodeReadAt inode bounce buffer size offset = some (after, n) ∧
    CountRight found.data bounce size offset n ∧
    ∀ j, after j = if j < n then fileByte fs.disk found.data (offset + j) else buffer j
  readEnds : ∀ rounds, size.toNat < rounds →
    ∃ run, fs.inodeReadRun found.data bounce rounds [] buffer size offset 0 = some run ∧
      run.ended = true ∧
      fs.inodeReadAt inode bounce buffer size offset = some run.result ∧
      ∀ access ∈ run.accesses, (∃ sector, access = .read sector) ∧ access.InExtent found.data
  denied : found.denyWriteCnt ≠ 0 → fs.inodeWriteAt inode bounce buffer size offset = some (fs, 0)
  write : found.denyWriteCnt = 0 → ∃ disk n,
    fs.inodeWriteAt inode bounce buffer size offset = some (fs.setDisk disk, n) ∧
    CountRight found.data bounce size offset n ∧
    (∀ j, fileByte disk found.data j = if offset ≤ j ∧ j < offset + n then buffer (j - offset)
      else fileByte fs.disk found.data j) ∧
    ∀ address, Apart address (address + 1)
      (found.data.start * blockSectorSize)
      ((found.data.start + sectorsFor found.data.length.toNat) *
        blockSectorSize) → disk address = fs.disk address
  writeEnds : found.denyWriteCnt = 0 → ∀ rounds, size.toNat < rounds →
    ∃ run, inodeWriteRun found.data bounce buffer rounds [] fs size offset 0 = some run ∧
      run.ended = true ∧
      fs.inodeWriteAt inode bounce buffer size offset = some run.result ∧
      ∀ access ∈ run.accesses, access.InExtent found.data

/-- What is left of a file is in its sectors. -/
theorem moved_inside {n : Nat} (nonneg : 0 ≤ data.length)
    (count : CountRight data bounce size offset n) (some_bytes : 0 < n) :
    data.start * blockSectorSize + offset + n ≤
      (data.start + sectorsFor data.length.toNat) * blockSectorSize := by
  have bound := count.1
  have enough := le_divRoundUp_mul data.length.toNat (show 0 < blockSectorSize by decide)
  have inside : offset + n ≤ data.length.toNat := by omega
  unfold sectorsFor
  rw [Nat.add_mul]
  omega

theorem inodeReadAt_run {found : Inode}
    (within : found.data.Within fs.deviceSize) (enough : size.toNat ≤ rounds) :
    ∃ run, fs.inodeReadRun found.data bounce rounds [] buffer size offset 0 = some run ∧
      (size.toNat < rounds → run.ended = true) ∧
      run.result = (buffer.splice 0 (movedCount found.data bounce size offset)
          (fs.disk.drop (found.data.start * blockSectorSize + offset)),
        movedCount found.data bounce size offset) ∧
      ∀ access ∈ run.accesses, (∃ sector, access = .read sector) ∧ access.InExtent found.data := by
  rcases inodeReadRun_moves within enough with ⟨run, runs, ended, value, count, listed⟩
  refine ⟨run, runs, ended, ?_, ?_⟩
  · rw [IoRun.result, value, count, Nat.zero_add]
  · intro access member
    rcases listed access member with never | new
    · cases never
    · exact new

theorem inodeReadAt_moved {found : Inode} (here : fs.findInode inode = some found)
    (within : found.data.Within fs.deviceSize) :
    fs.inodeReadAt inode bounce buffer size offset =
      some (buffer.splice 0 (movedCount found.data bounce size offset)
          (fs.disk.drop (found.data.start * blockSectorSize + offset)),
        movedCount found.data bounce size offset) := by
  rcases inodeReadAt_run within (Nat.le_refl _) with ⟨run, runs, _, result, _⟩
  rw [inodeReadAt, here, Option.bind_some, ← inodeReadRun_result, runs, Option.map_some, result]

theorem inodeWriteAt_run {found : Inode}
    (within : found.data.Within fs.deviceSize) (enough : size.toNat ≤ rounds) :
    ∃ run, inodeWriteRun found.data bounce buffer rounds [] fs size offset 0 = some run ∧
      (size.toNat < rounds → run.ended = true) ∧
      run.result = (fs.setDisk
          (fs.disk.splice (found.data.start * blockSectorSize + offset)
            (movedCount found.data bounce size offset) buffer),
        movedCount found.data bounce size offset) ∧
      ∀ access ∈ run.accesses, access.InExtent found.data := by
  rcases inodeWriteRun_moves within enough with ⟨run, runs, ended, value, count, listed⟩
  have whole : buffer.drop 0 = buffer := by
    funext place
    rw [Memory.drop, Nat.zero_add]
  refine ⟨run, runs, ended, ?_, ?_⟩
  · rw [IoRun.result, value, count, Nat.zero_add, whole]
  · intro access member
    rcases listed access member with never | new
    · cases never
    · exact new

theorem inodeWriteAt_moved {found : Inode} (here : fs.findInode inode = some found)
    (allowed : found.denyWriteCnt = 0) (within : found.data.Within fs.deviceSize) :
    fs.inodeWriteAt inode bounce buffer size offset =
      some (fs.setDisk
          (fs.disk.splice (found.data.start * blockSectorSize + offset)
            (movedCount found.data bounce size offset) buffer),
        movedCount found.data bounce size offset) := by
  rcases inodeWriteAt_run within (Nat.le_refl _) with ⟨run, runs, _, result, _⟩
  rw [inodeWriteAt, here, Option.bind_some, if_neg (not_not_intro allowed),
    ← inodeWriteRun_result, runs, Option.map_some, result]

/-- Byte access is right for every outcome of the allocation. -/
theorem inode_byte_io (fs : Fs) (inode : Nat) {found : Inode} (bounce : Bool)
    (buffer : Memory) (size : Int) (offset : Nat) (here : fs.findInode inode = some found)
    (within : found.data.Within fs.deviceSize) :
    ByteIo fs inode found bounce buffer size offset := by
  have reads := @inodeReadAt_moved _ bounce buffer size offset _ _ here within
  have count := @movedCount_right _ bounce size offset within.nonneg
  constructor
  · refine ⟨_, _, reads, count, ?_⟩
    intro j
    rw [Memory.splice, Memory.drop, fileByte, Nat.sub_zero, Nat.zero_add, Nat.add_assoc]
    simp only [Nat.zero_le, true_and]
  · intro rounds enough
    rcases inodeReadAt_run within (Nat.le_of_lt enough) with ⟨run, runs, ended, result, listed⟩
    exact ⟨run, runs, ended enough, by rw [reads, result], listed⟩
  · intro denied
    rw [inodeWriteAt, here, Option.bind_some, if_pos denied]
  · intro allowed
    have writes := @inodeWriteAt_moved _ bounce buffer size offset _ _ here allowed within
    refine ⟨_, _, writes, count, ?_, ?_⟩
    · intro j
      rw [fileByte, fileByte, Memory.splice]
      by_cases inside : offset ≤ j ∧ j < offset + movedCount found.data bounce size offset
      · rw [if_pos inside, if_pos (by omega)]
        congr 1
        omega
      · rw [if_neg inside, if_neg (by omega)]
    · intro address outside
      rw [Memory.splice, if_neg]
      intro inside
      have bound := moved_inside within.nonneg count (by omega)
      unfold Apart at outside
      omega
  · intro allowed rounds enough
    have writes := @inodeWriteAt_moved _ bounce buffer size offset _ _ here allowed within
    rcases inodeWriteAt_run within (Nat.le_of_lt enough) with ⟨run, runs, ended, result, listed⟩
    exact ⟨run, runs, ended enough, by rw [writes, result], listed⟩

/-- A device with an open file of 700 bytes in sectors 3 and 4. -/
def twoSectorFile : Fs where
  deviceSize := 8
  disk := fun address => UInt8.ofNat address
  freeMap := ⟨0, [], rfl⟩
  freeMapFile := none
  openInodes := [⟨2, 1, false, 0, ⟨3, 700, inodeMagic⟩⟩]
  stack := zeros

theorem inode_byte_io_two :
    ByteIo twoSectorFile 2 ⟨2, 1, false, 0, ⟨3, 700, inodeMagic⟩⟩ false zeros
      600 100 :=
  inode_byte_io twoSectorFile 2 false zeros 600 100 rfl ⟨by decide, by decide, by decide⟩

end Fs

end CS162.Filesys

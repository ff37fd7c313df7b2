import CS162.Filesys.FreeMap
import CS162.Foundation.Ownership

/-!
# The sectors of files

A file has the sector of its inode and the sectors of its data.  The files that
matter own theirs: the sectors are marked in the free map, and no other file
has them.
-/

namespace CS162.Filesys

open CS162.Foundation
open CS162.Kernel
open CS162.Devices (blockSectorSize)

/-- The data sectors of a file. -/
def inExtent (data : InodeDisk) (place : Nat) : Prop :=
  data.start ≤ place ∧ place < data.start + sectorsFor data.length.toNat

/-- The sectors of the file whose inode is in a sector. -/
def region (disk : Memory) (sector place : Nat) : Prop :=
  place = sector ∨ inExtent (diskInode disk sector) place

/-- A sector of the device that the free map marks. -/
def used (fs : Fs) (place : Nat) : Prop := place < fs.deviceSize ∧ fs.freeMap.bit place = true

/-- The files of the owners have their sectors to themselves. -/
structure Layout (fs : Fs) (owners : Nat → Prop) : Prop where
  small : fs.deviceSize < deviceLimit
  size : fs.freeMap.bitCnt = fs.deviceSize
  owned : Owned owners (region fs.disk) (used fs)
  within : ∀ sector, owners sector → (diskInode fs.disk sector).Within fs.deviceSize
  plain : ∀ sector, owners sector → ¬inExtent (diskInode fs.disk sector) sector

section Sectors

variable {disk disk' buffer : Memory} {data : InodeDisk}
variable {sector offset count : Nat}

/-- The disks agree on a sector. -/
def SectorAgree (disk disk' : Memory) (sector : Nat) : Prop :=
  disk.AgreeOn disk' (sector * blockSectorSize) (sector * blockSectorSize + blockSectorSize)

/-- The inode that `inode_create` writes can be read back. -/
theorem ofBytes_bytes {start : Nat} {length : Int}
    (small : start < unsignedModulus) (lower : -2147483648 ≤ length) (upper : length < 2147483648) :
    InodeDisk.ofBytes (InodeDisk.bytes ⟨start, length, inodeMagic⟩) =
      ⟨start, length, inodeMagic⟩ := by
  have bits : toUnsigned length < unsignedModulus := by
    unfold toUnsigned unsignedModulus
    omega
  have back : wrapSigned (toUnsigned length) = length := by
    unfold toUnsigned wrapSigned
    omega
  unfold InodeDisk.ofBytes InodeDisk.bytes
  rw [Memory.load32_store32_of_apart (by decide),
    Memory.load32_store32_of_apart (by decide), Memory.load32_store32 small,
    Memory.load32_store32_of_apart (by decide), Memory.load32_store32 bits,
    Memory.load32_store32 (show inodeMagic < unsignedModulus by decide), back]

theorem ofBytes_congr {first second : Memory} (agree : first.AgreeOn second 0 blockSectorSize) :
    InodeDisk.ofBytes first = InodeDisk.ofBytes second := by
  have start : first.load32 0 = second.load32 0 := (agree.mono (le_refl 0) (by decide)).load32_eq
  have length : first.load32 4 = second.load32 4 :=
    (agree.mono (Nat.zero_le 4) (by decide)).load32_eq
  have magic : first.load32 8 = second.load32 8 :=
    (agree.mono (Nat.zero_le 8) (by decide)).load32_eq
  rw [InodeDisk.ofBytes, InodeDisk.ofBytes, start, length, magic]

theorem diskInode_congr (agree : SectorAgree disk disk' sector) :
    diskInode disk sector = diskInode disk' sector := by
  have bytes :
      (sectorBytes disk sector).AgreeOn (sectorBytes disk' sector) 0
        blockSectorSize := by
    intro place lower upper
    apply agree <;> omega
  exact ofBytes_congr bytes

/-- A sector that does not meet the bytes written is as it was. -/
theorem sectorAgree_splice {start size : Nat}
    (outside :
      Apart (sector * blockSectorSize)
        (sector * blockSectorSize + blockSectorSize) start (start + size)) :
    SectorAgree (disk.splice start size buffer) disk sector :=
  Memory.splice_agreeOn outside

/-- Writing to a file changes its data sectors only. -/
theorem sectorAgree_write (inside : count ≤ data.length.toNat - offset)
    (outside : ¬inExtent data sector) :
    SectorAgree
      (disk.splice (data.start * blockSectorSize + offset) count buffer) disk
      sector := by
  by_cases none : count = 0
  · rw [none, Memory.splice_zero]
    intro place lower upper
    rfl
  · apply sectorAgree_splice
    have bound := le_divRoundUp_mul data.length.toNat (show 0 < blockSectorSize by decide)
    unfold inExtent sectorsFor at outside
    unfold Apart blockSectorSize at *
    omega

/-- Writing a sector changes no other. -/
theorem sectorAgree_sector {written : Nat} (different : sector ≠ written) :
    SectorAgree
      (disk.splice (written * blockSectorSize) blockSectorSize buffer) disk
      sector := by
  apply sectorAgree_splice
  unfold Apart blockSectorSize
  omega

end Sectors

section NewFile

variable {disk : Memory} {sector start place : Nat} {length : Int}

/-- Creating a file changes the sectors of the file only. -/
theorem sectorAgree_newFileDisk (different : place ≠ sector)
    (outside : ¬(start ≤ place ∧ place < start + sectorsFor length.toNat)) :
    SectorAgree (newFileDisk disk sector start length) disk place := by
  apply Memory.AgreeOn.trans
  · apply sectorAgree_splice
    unfold Apart blockSectorSize
    omega
  · exact sectorAgree_sector different

theorem diskInode_newFileDisk (small : start < unsignedModulus)
    (nonneg : 0 ≤ length) (bounded : length < 2147483648)
    (apart : ¬(start ≤ sector ∧ sector < start + sectorsFor length.toNat)) :
    diskInode (newFileDisk disk sector start length) sector = ⟨start, length, inodeMagic⟩ := by
  rw [diskInode, ← ofBytes_bytes small (by omega) bounded]
  apply ofBytes_congr
  intro place lower upper
  rw [sectorBytes, Memory.drop, newFileDisk, Memory.splice, if_neg]
  · exact Memory.splice_apply_add upper
  · unfold blockSectorSize at *
    omega

end NewFile

/-- A file whose sectors are as they were has the data it had. -/
theorem agreeOn_of_extent {disk disk' : Memory} {data : InodeDisk}
    (agree : ∀ place, inExtent data place → SectorAgree disk disk' place) :
    disk.AgreeOn disk' (data.start * blockSectorSize)
      (data.start * blockSectorSize + data.length.toNat) := by
  intro address lower upper
  have bound := le_divRoundUp_mul data.length.toNat (show 0 < blockSectorSize by decide)
  have inside : inExtent data (address / blockSectorSize) := by
    unfold inExtent sectorsFor blockSectorSize at *
    omega
  have whole := Nat.div_add_mod' address blockSectorSize
  have small := Nat.mod_lt address (show blockSectorSize > 0 by decide)
  apply agree _ inside <;> omega

namespace Layout

variable {fs : Fs} {owners owners' : Nat → Prop} {sector other : Nat}

theorem mono (layout : Layout fs owners) (fewer : ∀ sector, owners' sector → owners sector) :
    Layout fs owners' where
  small := layout.small
  size := layout.size
  owned := layout.owned.mono fewer fun _ here => here
  within := fun sector here => layout.within sector (fewer sector here)
  plain := fun sector here => layout.plain sector (fewer sector here)

theorem used (layout : Layout fs owners) (here : owners sector) : used fs sector :=
  layout.owned.covered sector here sector (Or.inl rfl)

/-- The inode of a file is not among the data of another one, nor among its
own. -/
theorem outside (layout : Layout fs owners) (here : owners sector)
    (there : owners other) : ¬inExtent (diskInode fs.disk other) sector := by
  by_cases same : sector = other
  · rw [same]
    exact layout.plain other there
  · intro inside
    exact layout.owned.disjoint sector other here there same sector (Or.inl rfl) (Or.inr inside)

/-- The inodes and the free map are as good as they were. -/
theorem change (layout : Layout fs owners) {after : Fs}
    (sameSize : after.deviceSize = fs.deviceSize) (mapSize : after.freeMap.bitCnt = fs.deviceSize)
    (inodes : ∀ sector, owners sector → SectorAgree after.disk fs.disk sector)
    (bits :
      ∀ sector, owners sector → ∀ place, region fs.disk sector place →
        after.freeMap.bit place = true) :
    Layout after owners := by
  have same :
      ∀ sector, owners sector →
        diskInode after.disk sector = diskInode fs.disk sector :=
    fun sector here => diskInode_congr (inodes sector here)
  constructor
  · rw [sameSize]
    exact layout.small
  · rw [mapSize, sameSize]
  · have kept : Owned owners (region fs.disk) (Filesys.used after) := by
      apply layout.owned.release (fun _ here => here)
      intro sector here place inside before
      exact ⟨sameSize ▸ before.1, bits sector here place inside⟩
    apply kept.congr
    intro sector here place
    unfold region
    rw [same sector here]
  · intro sector here
    rw [same sector here, sameSize]
    exact layout.within sector here
  · intro sector here
    rw [same sector here]
    exact layout.plain sector here

/-- A file whose sectors nobody owns becomes an owner. -/
theorem insert (layout : Layout fs owners)
    (within : (diskInode fs.disk sector).Within fs.deviceSize)
    (plain : ¬inExtent (diskInode fs.disk sector) sector)
    (taken : ∀ place, region fs.disk sector place → Filesys.used fs place)
    (free :
      ∀ other, owners other → ∀ place, region fs.disk other place → ¬region fs.disk sector place) :
    Layout fs fun other => other = sector ∨ owners other where
  small := layout.small
  size := layout.size
  owned :=
    layout.owned.insert sector (fun _ here => here) taken
      fun other here _ => free other here
  within := by
    intro other here
    rcases here with rfl | old
    · exact within
    · exact layout.within other old
  plain := by
    intro other here
    rcases here with rfl | old
    · exact plain
    · exact layout.plain other old

/-- The number of sectors that closing a removed file frees. -/
theorem bytesToSectors_eq (layout : Layout fs owners) (here : owners sector) :
    bytesToSectors (diskInode fs.disk sector).length =
      sectorsFor (diskInode fs.disk sector).length.toNat := by
  have within := layout.within sector here
  have small := layout.small
  have bound : (diskInode fs.disk sector).length < 2147483648 := wrapSigned_lt _
  have nonneg := within.nonneg
  have onDevice := within.onDevice
  have rounded :=
    bytesToSectors_natCast (show (diskInode fs.disk sector).length.toNat < 2147483648 by omega)
  rw [Int.toNat_of_nonneg nonneg] at rounded
  omega

end Layout

end CS162.Filesys

import CS162.Foundation.Memory

/-!
# Partitions

`devices/partition.c`, and what `devices/block.c` does with a sector number on
its way to the device.  A panic is an error value.  The search of the partition
tables gives what it has registered also where it does not come to an end.
-/

namespace CS162.Devices

open CS162.Foundation

/-! ## Block devices -/

/-- `enum block_type`. -/
inductive BlockType where
  | kernel
  | filesys
  | scratch
  | swap
  | raw
  | foreign
  deriving DecidableEq

/-- A block device that `found_partition` has registered: what it knows of the
sectors, and the number at the end of its name. -/
structure Partition where
  partNr : Nat
  type : BlockType
  start : Nat
  size : Nat
  deriving DecidableEq

/-- `struct block`: a disk, or a partition of a block device. -/
inductive Block where
  | device (size : Nat)
  | partition (block : Block) (part : Partition)

/-- `block_size`. -/
def Block.size : Block → Nat
  | device size => size
  | partition _ part => part.size

/-- `block_type`. -/
def Block.type : Block → BlockType
  | device _ => .raw
  | partition _ part => part.type

/-- What stops an access. -/
inductive AccessPanic where
  | pastEnd (block : Block) (sector : Nat)
  | foreign (block : Block)

/-- `check_sector`. -/
def checkSector (block : Block) (sector : Nat) : Except AccessPanic Unit :=
  if sector ≥ block.size then .error (.pastEnd block sector) else .ok ()

/-- `block_read` and `partition_read`: the sector of the disk that is read. -/
def blockRead : Block → Nat → Except AccessPanic Nat
  | .device size, sector => do
      checkSector (.device size) sector
      .ok sector
  | .partition block part, sector => do
      checkSector (.partition block part) sector
      blockRead block (wrap (part.start + sector))

/-- `block_write` and `partition_write`: the sector of the disk that is
written. -/
def blockWrite : Block → Nat → Except AccessPanic Nat
  | .device size, sector => do
      checkSector (.device size) sector
      .ok sector
  | .partition block part, sector => do
      checkSector (.partition block part) sector
      if part.type ≠ .foreign then
        blockWrite block (wrap (part.start + sector))
      else .error (.foreign (.partition block part))

/-! ## Partition tables -/

/-- `BLOCK_SECTOR_SIZE`. -/
def blockSectorSize : Nat := 512

/-- `struct partition_table_entry`: the fields that are read. -/
structure PartitionTableEntry where
  type : Nat
  offset : Nat
  size : Nat
  deriving DecidableEq

/-- `pt->partitions[i]` of the table at an address. -/
def partitionTableEntry (image : Memory) (table i : Nat) : PartitionTableEntry where
  type := (image (table + 446 + 16 * i + 4)).toNat
  offset := image.load32 (table + 446 + 16 * i + 8)
  size := image.load32 (table + 446 + 16 * i + 12)

/-- `pt->partitions`. -/
def partitionTableEntries (image : Memory) (table : Nat) : List PartitionTableEntry :=
  (List.range 4).map (partitionTableEntry image table)

/-- `pt->signature`. -/
def partitionTableSignature (image : Memory) (table : Nat) : Nat :=
  (image (table + 510)).toNat + 256 * (image (table + 511)).toNat

/-- An entry that is not used. -/
def PartitionTableEntry.isEmpty (e : PartitionTableEntry) : Bool := e.size == 0 || e.type == 0

/-- An entry for more partition tables. -/
def PartitionTableEntry.isExtended (e : PartitionTableEntry) : Bool :=
  e.type == 0x05 || e.type == 0x0f || e.type == 0x85 || e.type == 0xc5

/-- The type of the block device for a type of partition. -/
def partitionBlockType (partType : Nat) : BlockType :=
  if partType = 0x20 then .kernel
  else if partType = 0x21 then .filesys
  else if partType = 0x22 then .scratch
  else if partType = 0x23 then .swap
  else .foreign

/-! ## The search -/

/-- What the search has come to: `*part_nr`, the block devices it has
registered, and how often it has called `malloc`. -/
structure Scan where
  partNr : Nat
  registered : List Partition
  mallocs : Nat

/-- How a part of the search has ended, if it has. -/
inductive Ending where
  | returned
  | panicked
  | running
  deriving DecidableEq

/-- The next part of the search. -/
def Scan.andThen (part : Scan × Ending) (next : Scan → Scan × Ending) : Scan × Ending :=
  if part.2 = .returned then next part.1 else part

/-- The device, its contents, and which calls of `malloc` succeed. -/
structure ScanSetting where
  block : Block
  image : Memory
  malloc : Nat → Bool

section Code

variable (setting : ScanSetting)

/-- `malloc`, with a panic where it fails. -/
def Scan.allocate (scan : Scan) (next : Scan → Scan × Ending) : Scan × Ending :=
  if setting.malloc scan.mallocs then
    next { scan with mallocs := scan.mallocs + 1 }
  else ({ scan with mallocs := scan.mallocs + 1 }, .panicked)

/-- `block_register`. -/
def blockRegister (part : Partition) (scan : Scan) : Scan × Ending :=
  scan.allocate setting fun scan =>
    ({ scan with registered := scan.registered ++ [part] }, .returned)

/-- `found_partition`. -/
def foundPartition (partType start size partNr : Nat) (scan : Scan) : Scan × Ending :=
  if start ≥ setting.block.size then (scan, .returned)
  else if wrap (start + size) < start ∨
      wrap (start + size) > setting.block.size then (scan, .returned)
  else scan.allocate setting fun scan =>
    blockRegister setting ⟨partNr, partitionBlockType partType, start, size⟩ scan

/-- The loop of `read_partition_table` over the entries of a table. -/
def readPartitionTableEntries (nested : Nat → Nat → Scan → Scan × Ending)
    (sector primaryExtendedSector : Nat) :
    List PartitionTableEntry → Scan → Scan × Ending
  | [], scan => (scan, .returned)
  | e :: rest, scan =>
      if e.isEmpty then
        readPartitionTableEntries nested sector primaryExtendedSector rest scan
      else if e.isExtended then
        Scan.andThen
          (if sector = 0 then nested e.offset e.offset scan
          else nested (wrap (e.offset + primaryExtendedSector)) primaryExtendedSector scan)
          (readPartitionTableEntries nested sector primaryExtendedSector rest)
      else
        Scan.andThen
          (foundPartition setting e.type (wrap (e.offset + sector)) e.size
            (scan.partNr + 1) { scan with partNr := scan.partNr + 1 })
          (readPartitionTableEntries nested sector primaryExtendedSector rest)

/-- `read_partition_table`, to a bound on the depth of its calls. -/
def readPartitionTable : Nat → Nat → Nat → Scan → Scan × Ending
  | 0, _, _, scan => (scan, .running)
  | fuel + 1, sector, primaryExtendedSector, scan =>
      if sector ≥ setting.block.size then (scan, .returned)
      else scan.allocate setting fun scan =>
        -- the sector that is read is not the argument of the function
        match blockRead setting.block 0 with
        | .error _ => (scan, .panicked)
        | .ok place =>
            if partitionTableSignature setting.image
                (blockSectorSize * place) ≠ 0xaa55 then (scan, .returned)
            else
              readPartitionTableEntries setting (readPartitionTable fuel) sector
                primaryExtendedSector
                (partitionTableEntries setting.image (blockSectorSize * place))
                scan

/-- `partition_scan`. -/
def partitionScan (fuel : Nat) : Scan × Ending := readPartitionTable setting fuel 0 0 ⟨0, [], 0⟩

end Code

/-! ## The partitions of a disk -/

section Confinement

variable {setting : ScanSetting} {scan : Scan}

/-- A partition that ends where the device does or before. -/
def Partition.Inside (size : Nat) (part : Partition) : Prop := part.start + part.size ≤ size

/-- Every partition that is registered lies inside the device. -/
def Scan.Inside (size : Nat) (scan : Scan) : Prop := ∀ part ∈ scan.registered, part.Inside size

theorem Scan.Inside.andThen {size : Nat} {part : Scan × Ending}
    {next : Scan → Scan × Ending} (first : part.1.Inside size)
    (second : ∀ scan, scan.Inside size → (next scan).1.Inside size) :
    (Scan.andThen part next).1.Inside size := by
  rw [Scan.andThen]
  split
  · exact second part.1 first
  · exact first

theorem Scan.Inside.allocate {size : Nat} {next : Scan → Scan × Ending}
    (first : scan.Inside size) (second : ∀ scan, scan.Inside size → (next scan).1.Inside size) :
    (scan.allocate setting next).1.Inside size := by
  rw [Scan.allocate]
  split
  · exact second _ first
  · exact first

/-- The two tests of `found_partition` together: the partition fits, and its end
does not wrap around. -/
theorem fits_iff {start size limit : Nat} (startSmall : start < unsignedModulus)
    (sizeSmall : size < unsignedModulus) (limitSmall : limit < unsignedModulus) :
    (start < limit ∧ ¬(wrap (start + size) < start ∨
      wrap (start + size) > limit)) ↔ start < limit ∧ start + size ≤ limit := by
  unfold wrap unsignedModulus at *
  omega

theorem foundPartition_inside {partType start size partNr : Nat}
    (limitSmall : setting.block.size < unsignedModulus)
    (startSmall : start < unsignedModulus) (sizeSmall : size < unsignedModulus)
    (inside : scan.Inside setting.block.size) :
    (foundPartition setting partType start size partNr scan).1.Inside
      setting.block.size := by
  rw [foundPartition]
  split
  · exact inside
  · rename_i starts
    split
    · exact inside
    · rename_i ends
      have fits := (fits_iff startSmall sizeSmall limitSmall).mp ⟨Nat.lt_of_not_le starts, ends⟩
      apply inside.allocate
      intro scan inside
      apply inside.allocate
      intro scan inside part member
      rcases List.mem_append.mp member with before | new
      · exact inside part before
      · rw [List.mem_singleton.mp new]
        exact fits.2

theorem readPartitionTableEntries_inside {nested : Nat → Nat → Scan → Scan × Ending}
    (limitSmall : setting.block.size < unsignedModulus)
    (nestedInside : ∀ sector primary scan, scan.Inside setting.block.size →
      (nested sector primary scan).1.Inside setting.block.size)
    {sector primary : Nat} {entries : List PartitionTableEntry}
    (sizes : ∀ e ∈ entries, e.size < unsignedModulus) (inside : scan.Inside setting.block.size) :
    (readPartitionTableEntries setting nested sector primary entries
      scan).1.Inside setting.block.size := by
  induction entries generalizing scan with
  | nil => exact inside
  | cons e rest inductionHypothesis =>
      have later : ∀ scan : Scan, scan.Inside setting.block.size →
          (readPartitionTableEntries setting nested sector primary rest
            scan).1.Inside setting.block.size := by
        intro scan inside
        apply inductionHypothesis _ inside
        intro other member
        exact sizes other (List.mem_cons_of_mem e member)
      rw [readPartitionTableEntries]
      split
      · exact later scan inside
      · split
        · apply Scan.Inside.andThen _ later
          split
          · exact nestedInside _ _ scan inside
          · exact nestedInside _ _ scan inside
        · apply Scan.Inside.andThen _ later
          apply foundPartition_inside limitSmall (wrap_lt _) (sizes e List.mem_cons_self)
          exact inside

theorem mem_partitionTableEntries {image : Memory} {table : Nat}
    {e : PartitionTableEntry} (member : e ∈ partitionTableEntries image table) :
    e.offset < unsignedModulus ∧ e.size < unsignedModulus := by
  rcases List.mem_map.mp member with ⟨i, _, here⟩
  rw [← here]
  constructor
  · exact Memory.load32_lt image _
  · exact Memory.load32_lt image _

theorem readPartitionTable_inside
    (limitSmall : setting.block.size < unsignedModulus) {fuel sector primary : Nat}
    (inside : scan.Inside setting.block.size) :
    (readPartitionTable setting fuel sector primary scan).1.Inside
      setting.block.size := by
  induction fuel generalizing sector primary scan with
  | zero => exact inside
  | succ fuel inductionHypothesis =>
      rw [readPartitionTable]
      split
      · exact inside
      · apply inside.allocate
        intro scan inside
        split
        · exact inside
        · split
          · exact inside
          · apply readPartitionTableEntries_inside limitSmall _ _ inside
            · intro sector primary scan inside
              exact inductionHypothesis inside
            · intro e member
              exact (mem_partitionTableEntries member).2

theorem checkSector_of_lt {block : Block} {sector : Nat}
    (inside : sector < block.size) : checkSector block sector = .ok () :=
  if_neg (Nat.not_le_of_lt inside)

theorem checkSector_of_le {block : Block} {sector : Nat} (outside : block.size ≤ sector) :
    checkSector block sector = .error (.pastEnd block sector) :=
  if_pos outside

/-- What a partition of a disk can do with the disk. -/
structure Confined (size : Nat) (part : Partition) : Prop where
  inside : part.Inside size
  noWrap : part.start + part.size < unsignedModulus
  read : ∀ sector, sector < part.size →
    blockRead (.partition (.device size) part) sector = .ok (part.start + sector)
  write : ∀ sector, sector < part.size → part.type ≠ .foreign →
    blockWrite (.partition (.device size) part) sector = .ok (part.start + sector)
  reached : ∀ sector, sector < part.size →
    part.start ≤ part.start + sector ∧ part.start + sector < part.start + part.size
  readPast : ∀ sector, part.size ≤ sector →
    blockRead (.partition (.device size) part) sector =
      .error (.pastEnd (.partition (.device size) part) sector)
  writePast : ∀ sector, part.size ≤ sector →
    blockWrite (.partition (.device size) part) sector =
      .error (.pastEnd (.partition (.device size) part) sector)

theorem Partition.Inside.confined {size : Nat} {part : Partition}
    (small : size < unsignedModulus) (inside : part.Inside size) :
    Confined size part := by
  have within : part.start + part.size ≤ size := inside
  constructor
  · exact inside
  · omega
  · intro sector lower
    have here : part.start + sector < size := by omega
    rw [blockRead, checkSector_of_lt lower, wrap_of_lt (by omega), blockRead,
      checkSector_of_lt here]
    rfl
  · intro sector lower notForeign
    have here : part.start + sector < size := by omega
    rw [blockWrite, checkSector_of_lt lower, if_pos notForeign,
      wrap_of_lt (by omega), blockWrite, checkSector_of_lt here]
    rfl
  · omega
  · intro sector past
    rw [blockRead, checkSector_of_le past]
    rfl
  · intro sector past
    rw [blockWrite, checkSector_of_le past]
    rfl

/-- Whatever a disk contains, its partitions stay on the disk and within
themselves. -/
theorem partitions_confined {size : Nat} (small : size < unsignedModulus)
    (image : Memory) (malloc : Nat → Bool) (fuel : Nat) :
    ∀ part ∈ (partitionScan ⟨.device size, image, malloc⟩ fuel).1.registered,
      Confined size part := by
  intro part member
  have inside : Scan.Inside size ⟨0, [], 0⟩ := fun part member => by
    cases member
  have scanned := @readPartitionTable_inside ⟨.device size, image, malloc⟩ _ small fuel 0 0 inside
  exact (scanned part member).confined small

/-- A disk with one entry in its table: ten sectors from sector 1. -/
def kernelDisk : Memory := fun address =>
  if address = 450 then 0x20
  else if address = 454 then 1
  else if address = 458 then 10
  else if address = 510 then 0x55
  else if address = 511 then 0xaa
  else 0

theorem partitions_confined_kernel : Confined 20 ⟨1, .kernel, 1, 10⟩ :=
  partitions_confined (by decide) kernelDisk (fun _ => true) 1 ⟨1, .kernel, 1, 10⟩
    (by decide)

example :
    (partitionScan ⟨.device 20, kernelDisk, fun _ => true⟩ 1).1.registered =
      [⟨1, .kernel, 1, 10⟩] := by decide

end Confinement

end CS162.Devices

import Mathlib.Data.List.TakeDrop
import CS162.Foundation.Pack
import CS162.Devices.PartitionTables

/-!
# Assembling a virtual disk

`assemble_disk` of `utils/Pintos.pm` for a partitioned disk, the packing of its
partition table, and `interpret_partition_table`.  Numbers of sectors and bytes
are below the size from which Perl divides them with rounding.  A `die` is
`none`.
-/

namespace CS162.Utils

open CS162.Foundation CS162.Devices

/-! ## The parts of a disk -/

/-- The keys of `%role2type`. -/
inductive Role where
  | kernel
  | filesys
  | scratch
  | swap
  deriving DecidableEq

/-- `%role2type` -/
def role2type : Role → Nat
  | .kernel => 0x20
  | .filesys => 0x21
  | .scratch => 0x22
  | .swap => 0x23

/-- `%type2role` -/
def type2role (type : Nat) : Option Role :=
  if type = 0x20 then some .kernel
  else if type = 0x21 then some .filesys
  else if type = 0x22 then some .scratch
  else if type = 0x23 then some .swap
  else none

/-- `@role_order` -/
def roleOrder : List Role := [.kernel, .filesys, .scratch, .swap]

/-- The type of the kernel's block device for a role. -/
def Role.blockType : Role → BlockType
  | .kernel => .kernel
  | .filesys => .filesys
  | .scratch => .scratch
  | .swap => .swap

/-- The input for one role: the contents of `FILE`, `OFFSET` and `BYTES`. -/
structure Part where
  file : List UInt8
  offset : Nat
  bytes : Nat

/-- `{H => heads, S => sectors}` -/
structure Geometry where
  heads : Nat
  sectors : Nat

/-- `ALIGN` -/
inductive Alignment where
  | bochs
  | full
  | none
  deriving DecidableEq

/-- `%args` -/
structure DiskArgs where
  parts : Role → Option Part
  geometry : Geometry
  align : Alignment
  loader : Option (List UInt8)
  args : List (List UInt8)

/-- A role with its `START` and `SECTORS`. -/
structure PlacedPart where
  role : Role
  part : Part
  start : Nat
  sectors : Nat

/-- `cyl_sectors`. -/
def cylSectors (geometry : Geometry) : Nat := geometry.heads * geometry.sectors

/-- `round_up`. -/
def roundUp (x y : Nat) : Nat := divRoundUp x y * y

/-! ## The layout -/

/-- The loop of `assemble_disk` that calculates the size of the disk. -/
def placeParts (align : Bool) (geometry : Geometry)
    (parts : Role → Option Part) : List Role → Nat → List PlacedPart × Nat
  | [], total => ([], total)
  | role :: rest, total =>
      match parts role with
      | none => placeParts align geometry parts rest total
      | some p =>
          let last := total + divRoundUp p.bytes 512
          let last := if align then roundUp last (cylSectors geometry) else last
          let later := placeParts align geometry parts rest last
          (⟨role, p, total, last - total⟩ :: later.1, later.2)

/-- The partitions of a disk, and `$total_sectors`. -/
def diskLayout (args : DiskArgs) : List PlacedPart × Nat :=
  placeParts (args.align = .full) args.geometry args.parts roleOrder
    (if args.align = .full then args.geometry.sectors else 1)

/-! ## The partition table -/

/-- `lba_to_chs`. -/
def lbaToChs (lba : Nat) (geometry : Geometry) : Nat × Nat × Nat :=
  let hpc := geometry.heads
  let spt := geometry.sectors
  let cyl := lba / (hpc * spt)
  let temp := lba % (hpc * spt)
  let head := temp / spt
  let sect := temp % spt + 1
  if cyl ≤ 1023 then (cyl, head, sect) else (1023, 254, 63)

/-- `pack_chs`. -/
def packChs (lba : Nat) (geometry : Geometry) : List UInt8 :=
  let (cyl, head, sect) := lbaToChs lba geometry
  [packC head, packC (sect ||| ((cyl >>> 2) &&& 0xc0)), packC (cyl &&& 0xff)]

/-- One entry of `make_partition_table`. -/
def packPartition (geometry : Geometry) (p : PlacedPart) : List UInt8 :=
  let last := p.start + p.sectors - 1
  let bootable := decide (p.role = .kernel)
  [packC (if bootable then 0x80 else 0)] ++ packChs p.start geometry ++
    [packC (role2type p.role)] ++ packChs last geometry ++ packV p.start ++ packV p.sectors

/-- The loop of `make_partition_table`. -/
def packPartitions (geometry : Geometry) : List PlacedPart → List UInt8 → Option (List UInt8)
  | [], table => some table
  | p :: rest, table =>
      let table := table ++ packPartition geometry p
      if table.length % 16 ≠ 0 then none
      else packPartitions geometry rest table

/-- `make_partition_table`. -/
def makePartitionTable (geometry : Geometry) (placed : List PlacedPart) : Option (List UInt8) :=
  (packPartitions geometry placed []).map (packA 64)

/-! ## Writing the disk -/

/-- `$LOADER_SIZE` -/
def loaderSize : Nat := 314

/-- `$args{LOADER} || "\xcd\x18"`: the empty string and `"0"` are false. -/
def loaderBytes (loader : Option (List UInt8)) : List UInt8 :=
  if loader = none ∨ loader = some [] ∨ loader = some [48] then [0xcd, 0x18]
  else loader.getD []

/-- `make_kernel_command_line`. -/
def makeKernelCommandLine (args : List (List UInt8)) : Option (List UInt8) :=
  let line := args.flatMap fun arg => arg ++ [0]
  if 128 < line.length then none
  else some (packV args.length ++ packA 128 line)

/-- `read_fully`: what is read, and what is not read yet. -/
def readFully (source : List UInt8) (bytes : Nat) : Option (List UInt8 × List UInt8) :=
  if source.length < bytes then none
  else some (source.take bytes, source.drop bytes)

/-- `$chunk_size`, of what remains. -/
def chunkSize (size : Nat) : Nat :=
  if 4096 > size then size else 4096

theorem chunkSize_le (size : Nat) : chunkSize size ≤ size := by
  rw [chunkSize]
  split
  · exact Nat.le_refl _
  · omega

theorem chunkSize_pos {size : Nat} (positive : size ≠ 0) : 0 < chunkSize size := by
  rw [chunkSize]
  split
  · omega
  · decide

/-- `copy_file`: what is written. -/
def copyFile (source : List UInt8) (size : Nat) : Option (List UInt8) :=
  if size = 0 then some []
  else
    (readFully source (chunkSize size)).bind fun data =>
      (copyFile data.2 (size - chunkSize size)).map (data.1 ++ ·)
termination_by size
decreasing_by
  rename_i notZero
  have some_bytes := chunkSize_pos notZero
  omega

/-- `write_zeros`. -/
def writeZeros (size : Nat) : List UInt8 :=
  if size = 0 then []
  else
    List.replicate (chunkSize size) 0 ++ writeZeros (size - chunkSize size)
termination_by size
decreasing_by
  rename_i notZero
  have some_bytes := chunkSize_pos notZero
  omega

/-- The loop of `assemble_disk` that writes the partitions. -/
def writeParts : List PlacedPart → Option (List UInt8)
  | [] => some []
  | p :: rest =>
      (copyFile (p.part.file.drop p.part.offset) p.part.bytes).bind fun data =>
        (writeParts rest).map fun later =>
          data ++ writeZeros (p.sectors * 512 - p.part.bytes) ++ later

/-- The master boot record of `assemble_disk`. -/
def packMbr (args : DiskArgs) (placed : List PlacedPart) : Option (List UInt8) :=
  (makeKernelCommandLine args.args).bind fun commandLine =>
    (makePartitionTable args.geometry placed).bind fun table =>
      let mbr := packA loaderSize (loaderBytes args.loader) ++ commandLine ++
        table ++ packShort 0xaa55
      if mbr.length ≠ 512 then none else some mbr

/-- `assemble_disk`: the bytes that are written. -/
def assembleDisk (args : DiskArgs) : Option (List UInt8) :=
  let layout := diskLayout args
  (packMbr args layout.1).bind fun mbr =>
    (writeParts layout.1).map fun parts =>
      mbr ++
        (if args.align = .full then
          writeZeros (512 * (args.geometry.sectors - 1)) else []) ++
        parts ++
        (if args.align = .bochs then
          writeZeros ((roundUp layout.2 (cylSectors args.geometry) - layout.2) * 512) else [])

/-! ## Reading the partition table -/

/-- `unpack ("C X V C x3 V V", ...)` -/
structure UnpackedPartition where
  bootable : Nat
  valid : Nat
  type : Nat
  lbaStart : Nat
  lbaLength : Nat

/-- An entry unpacked: the second field begins where the first does. -/
def unpackPartition (entry : Memory) : UnpackedPartition where
  bootable := (entry 0).toNat
  valid := entry.load32 0
  type := (entry 4).toNat
  lbaStart := entry.load32 8
  lbaLength := entry.load32 12

/-- The body of the loop of `interpret_partition_table`. -/
def interpretPartition (parts : Role → Option (Nat × Nat))
    (entry : UnpackedPartition) : Role → Option (Nat × Nat) :=
  if entry.valid = 0 then parts
  else if entry.bootable ≠ 0 ∧ entry.bootable ≠ 0x80 then parts
  else
    match type2role entry.type with
    | none => parts
    | some role =>
        if (parts role).isSome then parts
        else Function.update parts role (some (entry.lbaStart, entry.lbaLength))

/-- `interpret_partition_table`: `START` and `SECTORS` of every role. -/
def interpretPartitionTable (mbr : Memory) : Role → Option (Nat × Nat) :=
  ((List.range 4).map fun i =>
    unpackPartition (mbr.drop (446 + 16 * i))).foldl interpretPartition fun _ => none

end CS162.Utils

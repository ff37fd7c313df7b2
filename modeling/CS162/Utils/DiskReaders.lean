import CS162.Utils.AssembleDisk

/-!
# The readers of an assembled disk

Every partition of an assembled disk contains its bytes and zeros, and both the
scripts and the kernel find the partitions where they were written.
-/

namespace CS162.Utils

open CS162.Foundation CS162.Devices

/-! ## The layout -/

section Layout

variable {align : Bool} {geometry : Geometry} {parts : Role → Option Part}
variable {roles : List Role} {first total : Nat} {placed : List PlacedPart}
variable {p : PlacedPart}

/-- The partitions follow each other from one sector to another, and each has
room for its bytes. -/
def Contiguous : Nat → List PlacedPart → Nat → Prop
  | first, [], total => total = first
  | first, p :: rest, total =>
      p.start = first ∧ 0 < p.sectors ∧ p.part.bytes ≤ 512 * p.sectors ∧
        Contiguous (first + p.sectors) rest total

theorem Contiguous.le (contiguous : Contiguous first placed total) : first ≤ total := by
  induction placed generalizing first with
  | nil => exact Nat.le_of_eq contiguous.symm
  | cons p rest inductionHypothesis =>
      have later := inductionHypothesis contiguous.2.2.2
      omega

theorem Contiguous.bounds (contiguous : Contiguous first placed total) (member : p ∈ placed) :
    first ≤ p.start ∧ p.start + p.sectors ≤ total ∧ 0 < p.sectors ∧
      p.part.bytes ≤ 512 * p.sectors := by
  induction placed generalizing first with
  | nil => cases member
  | cons q rest inductionHypothesis =>
      rcases contiguous with ⟨start, positive, room, later⟩
      have after := Contiguous.le later
      rcases List.mem_cons.mp member with same | inRest
      · subst same
        omega
      · have bounds := inductionHypothesis later inRest
        omega

theorem Contiguous.apart (contiguous : Contiguous first placed total) :
    placed.Pairwise fun p q => p.start + p.sectors ≤ q.start := by
  induction placed generalizing first with
  | nil => exact List.Pairwise.nil
  | cons p rest inductionHypothesis =>
      rcases contiguous with ⟨start, _, _, later⟩
      apply List.pairwise_cons.mpr
      constructor
      · intro q member
        have bounds := Contiguous.bounds later member
        omega
      · exact inductionHypothesis later

theorem divRoundUp_pos {bytes : Nat} (positive : 0 < bytes) : 0 < divRoundUp bytes 512 := by
  have enough := @le_divRoundUp_mul 512 bytes (by decide)
  omega

theorem placeParts_contiguous
    (positive : ∀ role p, parts role = some p → 0 < p.bytes)
    (cylinder : 0 < cylSectors geometry) (roles : List Role) (first : Nat) :
    Contiguous first (placeParts align geometry parts roles first).1
      (placeParts align geometry parts roles first).2 := by
  induction roles generalizing first with
  | nil => rfl
  | cons role rest inductionHypothesis =>
      rw [placeParts]
      cases defined : parts role with
      | none => exact inductionHypothesis first
      | some p =>
          have bytes := positive role p defined
          have some_sectors := divRoundUp_pos bytes
          have room := @le_divRoundUp_mul 512 p.bytes (by decide)
          have rounded := le_divRoundUp_mul (first + divRoundUp p.bytes 512) cylinder
          dsimp only
          generalize lastIs : (if align = true then
            roundUp (first + divRoundUp p.bytes 512) (cylSectors geometry)
            else first + divRoundUp p.bytes 512) = last
          have enough : first + divRoundUp p.bytes 512 ≤ last := by
            rw [← lastIs]
            split
            · exact rounded
            · exact Nat.le_refl _
          have whole : first + (last - first) = last := by omega
          have later := inductionHypothesis last
          rw [← whole] at later
          refine ⟨rfl, ?_, ?_, ?_⟩
          · change 0 < last - first
            omega
          · change p.bytes ≤ 512 * (last - first)
            omega
          · rw [whole] at later ⊢
            exact later

theorem placeParts_roles (roles : List Role) (first : Nat) :
    (placeParts align geometry parts roles first).1.map (·.role) =
      roles.filter fun role => (parts role).isSome := by
  induction roles generalizing first with
  | nil => rfl
  | cons role rest inductionHypothesis =>
      rw [placeParts, List.filter_cons]
      cases defined : parts role with
      | none => exact inductionHypothesis first
      | some p =>
          dsimp only
          rw [List.map_cons, inductionHypothesis]
          rfl

theorem placeParts_source (roles : List Role) (first : Nat)
    (member : p ∈ (placeParts align geometry parts roles first).1) :
    parts p.role = some p.part := by
  induction roles generalizing first with
  | nil => cases member
  | cons role rest inductionHypothesis =>
      rw [placeParts] at member
      cases defined : parts role with
      | none =>
          rw [defined] at member
          exact inductionHypothesis first member
      | some part =>
          rw [defined] at member
          rcases List.mem_cons.mp member with same | inRest
          · rw [same]
            exact defined
          · exact inductionHypothesis _ inRest

end Layout

/-! ## The written bytes -/

section Written

variable {first total : Nat} {placed : List PlacedPart} {p : PlacedPart}

theorem writeZeros_eq (size : Nat) : writeZeros size = List.replicate size 0 := by
  induction size using writeZeros.induct with
  | case1 => rw [writeZeros, if_pos rfl, List.replicate_zero]
  | case2 size notZero inductionHypothesis =>
      rw [writeZeros, if_neg notZero, inductionHypothesis,
        List.replicate_append_replicate, Nat.add_sub_of_le (chunkSize_le size)]

theorem copyFile_eq_some {source : List UInt8} {size : Nat} {data : List UInt8}
    (copied : copyFile source size = some data) :
    data = source.take size ∧ size ≤ source.length := by
  induction source, size using copyFile.induct generalizing data with
  | case1 source =>
      rw [copyFile, if_pos rfl] at copied
      cases copied
      exact ⟨rfl, Nat.zero_le _⟩
  | case2 source size notZero inductionHypothesis =>
      rw [copyFile, if_neg notZero] at copied
      have small := chunkSize_le size
      rcases Option.bind_eq_some_iff.mp copied with ⟨chunk, chunkRead, copied⟩
      rcases Option.map_eq_some_iff.mp copied with ⟨later, laterCopied, whole⟩
      rw [readFully] at chunkRead
      split at chunkRead
      · cases chunkRead
      · rename_i enough
        cases chunkRead
        have rest := inductionHypothesis _ laterCopied
        have room := rest.2
        rw [List.length_drop] at room
        constructor
        · have total : size = chunkSize size + (size - chunkSize size) := by
            omega
          rw [← whole, rest.1]
          conv_rhs => rw [total]
          rw [List.take_add]
        · omega

/-- The sectors of a partition: its bytes, and zeros. -/
def region (p : PlacedPart) : List UInt8 :=
  (p.part.file.drop p.part.offset).take p.part.bytes ++
    List.replicate (512 * p.sectors - p.part.bytes) 0

theorem writeParts_eq_some {bytes : List UInt8} (written : writeParts placed = some bytes) :
    bytes = placed.flatMap region ∧
      ∀ p ∈ placed, p.part.bytes ≤ p.part.file.length - p.part.offset := by
  induction placed generalizing bytes with
  | nil =>
      cases written
      exact ⟨rfl, fun p member => by cases member⟩
  | cons p rest inductionHypothesis =>
      rw [writeParts] at written
      rcases Option.bind_eq_some_iff.mp written with ⟨data, copied, written⟩
      rcases Option.map_eq_some_iff.mp written with ⟨later, laterWritten, whole⟩
      rcases copyFile_eq_some copied with ⟨dataIs, enough⟩
      rcases inductionHypothesis laterWritten with ⟨laterIs, laterEnough⟩
      constructor
      · rw [← whole, laterIs, dataIs, writeZeros_eq, List.flatMap_cons, region,
          Nat.mul_comm p.sectors]
      · intro q member
        rcases List.mem_cons.mp member with same | inRest
        · rw [same, ← List.length_drop]
          exact enough
        · exact laterEnough q inRest

theorem length_region (room : p.part.bytes ≤ 512 * p.sectors)
    (enough : p.part.bytes ≤ p.part.file.length - p.part.offset) :
    (region p).length = 512 * p.sectors := by
  rw [region, List.length_append, List.length_take, List.length_drop, List.length_replicate]
  omega

/-- The sectors of every partition are where it starts. -/
theorem Contiguous.region_at (contiguous : Contiguous first placed total)
    (enough : ∀ p ∈ placed, p.part.bytes ≤ p.part.file.length - p.part.offset)
    {front : List UInt8} (length : front.length = 512 * first)
    (behind : List UInt8) (member : p ∈ placed) :
    ((front ++ placed.flatMap region ++ behind).drop (512 * p.start)).take
        (512 * p.sectors) = region p := by
  induction placed generalizing first front with
  | nil => cases member
  | cons q rest inductionHypothesis =>
      rcases contiguous with ⟨start, _, room, later⟩
      have here := length_region room (enough q List.mem_cons_self)
      rw [List.flatMap_cons, ← List.append_assoc]
      rcases List.mem_cons.mp member with same | inRest
      · rw [same, List.append_assoc, List.append_assoc, start, ← length,
          List.drop_left, ← here, List.take_left]
      · apply inductionHypothesis later
        · intro other there
          exact enough other (List.mem_cons_of_mem q there)
        · rw [List.length_append, length, here, Nat.mul_add]
        · exact inRest

end Written

/-! ## The partition table -/

section Table

variable {geometry : Geometry} {placed : List PlacedPart} {p : PlacedPart}

theorem length_packPartition (geometry : Geometry) (p : PlacedPart) :
    (packPartition geometry p).length = 16 := rfl

theorem packPartitions_eq_some {table result : List UInt8}
    (packed : packPartitions geometry placed table = some result) :
    result = table ++ placed.flatMap (packPartition geometry) := by
  induction placed generalizing table with
  | nil =>
      cases packed
      exact (List.append_nil _).symm
  | cons p rest inductionHypothesis =>
      rw [packPartitions] at packed
      split at packed
      · cases packed
      · rw [inductionHypothesis packed, List.flatMap_cons, List.append_assoc]

/-- The four entries of the table: those that are used, and null bytes. -/
def tableBlocks (geometry : Geometry) (placed : List PlacedPart) : List (List UInt8) :=
  placed.map (packPartition geometry) ++ List.replicate (4 - placed.length) (List.replicate 16 0)

theorem length_tableBlocks (few : placed.length ≤ 4) :
    (tableBlocks geometry placed).length = 4 := by
  rw [tableBlocks, List.length_append, List.length_map, List.length_replicate]
  omega

theorem tableBlocks_length : ∀ block ∈ tableBlocks geometry placed, block.length = 16 := by
  intro block member
  rcases List.mem_append.mp member with used | free
  · rcases List.mem_map.mp used with ⟨p, _, same⟩
    rw [← same]
    exact length_packPartition geometry p
  · rw [List.eq_of_mem_replicate free, List.length_replicate]

theorem length_flatMap_packPartition (geometry : Geometry) (placed : List PlacedPart) :
    (placed.flatMap (packPartition geometry)).length = 16 * placed.length := by
  induction placed with
  | nil => rfl
  | cons p rest inductionHypothesis =>
      rw [List.flatMap_cons, List.length_append, inductionHypothesis,
        length_packPartition, List.length_cons]
      omega

theorem makePartitionTable_eq_some (few : placed.length ≤ 4) {table : List UInt8}
    (packed : makePartitionTable geometry placed = some table) :
    table = (tableBlocks geometry placed).flatten := by
  rcases Option.map_eq_some_iff.mp packed with ⟨entries, packs, padded⟩
  have length := length_flatMap_packPartition geometry placed
  have entriesAre := packPartitions_eq_some packs
  rw [List.nil_append] at entriesAre
  rw [← padded, entriesAre, packA_of_le (by omega), tableBlocks,
    List.flatten_append, List.flatten_replicate_replicate, length, List.flatMap_def]
  congr 2
  omega

/-- The parts of the master boot record. -/
theorem packMbr_eq_some {args : DiskArgs} (few : placed.length ≤ 4)
    {mbr : List UInt8} (packed : packMbr args placed = some mbr) :
    mbr.length = 512 ∧ ∃ code : List UInt8, code.length = 446 ∧
      mbr = code ++ ((tableBlocks args.geometry placed).flatten ++
        packShort 0xaa55) := by
  rcases Option.bind_eq_some_iff.mp packed with ⟨line, lines, packed⟩
  rcases Option.bind_eq_some_iff.mp packed with ⟨table, tables, packed⟩
  dsimp only at packed
  split at packed
  · cases packed
  · rename_i whole
    cases packed
    constructor
    · exact not_not.mp whole
    · refine ⟨packA loaderSize (loaderBytes args.loader) ++ line, ?_, ?_⟩
      · rw [makeKernelCommandLine] at lines
        split at lines
        · cases lines
        · cases lines
          rw [List.length_append, List.length_append, length_packA, length_packA]
          rfl
      · rw [makePartitionTable_eq_some few tables, List.append_assoc, List.append_assoc]

/-! ## One entry -/

theorem packPartition_type (geometry : Geometry) (p : PlacedPart) :
    (Memory.ofBytes (packPartition geometry p) 4).toNat = role2type p.role := by
  have place : Memory.ofBytes (packPartition geometry p) 4 = packC (role2type p.role) := rfl
  rw [place]
  cases p.role <;> rfl

theorem packPartition_start (geometry : Geometry) (p : PlacedPart)
    (small : p.start < unsignedModulus) :
    (Memory.ofBytes (packPartition geometry p)).load32 8 = p.start := by
  apply Memory.load32_of_packed small
  intro index inWord
  rcases (by omega : index = 0 ∨ index = 1 ∨ index = 2 ∨ index = 3) with
    first | second | third | fourth
  · rw [first]; rfl
  · rw [second]; rfl
  · rw [third]; rfl
  · rw [fourth]; rfl

theorem packPartition_sectors (geometry : Geometry) (p : PlacedPart)
    (small : p.sectors < unsignedModulus) :
    (Memory.ofBytes (packPartition geometry p)).load32 12 = p.sectors := by
  apply Memory.load32_of_packed small
  intro index inWord
  rcases (by omega : index = 0 ∨ index = 1 ∨ index = 2 ∨ index = 3) with
    first | second | third | fourth
  · rw [first]; rfl
  · rw [second]; rfl
  · rw [third]; rfl
  · rw [fourth]; rfl

theorem packPartition_bootable (geometry : Geometry) (p : PlacedPart) :
    (Memory.ofBytes (packPartition geometry p) 0).toNat = 0 ∨
      (Memory.ofBytes (packPartition geometry p) 0).toNat = 0x80 := by
  have place : Memory.ofBytes (packPartition geometry p) 0 =
      packC (if decide (p.role = .kernel) then 0x80 else 0) := rfl
  rw [place]
  split
  · exact Or.inr rfl
  · exact Or.inl rfl

/-- The number of a sector in its track is never 0. -/
theorem lbaToChs_sector (lba : Nat) {geometry : Geometry}
    (sectorsPos : 1 ≤ geometry.sectors) (sectorsSmall : geometry.sectors ≤ 63) :
    1 ≤ (lbaToChs lba geometry).2.2 ∧ (lbaToChs lba geometry).2.2 ≤ 63 := by
  have inTrack := Nat.mod_lt (lba % (geometry.heads * geometry.sectors)) sectorsPos
  rw [lbaToChs]
  split
  · constructor
    · exact Nat.succ_le_succ (Nat.zero_le _)
    · change _ % geometry.sectors + 1 ≤ 63
      omega
  · decide

/-- The field that tells a used entry from a free one covers the sector number,
so that it is not 0. -/
theorem packPartition_valid (p : PlacedPart)
    (sectorsPos : 1 ≤ geometry.sectors) (sectorsSmall : geometry.sectors ≤ 63) :
    (Memory.ofBytes (packPartition geometry p)).load32 0 ≠ 0 := by
  have place : Memory.ofBytes (packPartition geometry p) 2 =
      packC ((lbaToChs p.start geometry).2.2 |||
        (((lbaToChs p.start geometry).1 >>> 2) &&& 0xc0)) := rfl
  have bounds := lbaToChs_sector p.start sectorsPos sectorsSmall
  have lower := Nat.left_le_or (n := (lbaToChs p.start geometry).2.2)
    (m := ((lbaToChs p.start geometry).1 >>> 2) &&& 0xc0)
  have upper : ((lbaToChs p.start geometry).2.2 |||
      (((lbaToChs p.start geometry).1 >>> 2) &&& 0xc0)) < 2 ^ 8 := by
    apply Nat.or_lt_two_pow
    · omega
    · exact Nat.lt_of_le_of_lt Nat.and_le_right (by decide)
  have byte : (Memory.ofBytes (packPartition geometry p) 2).toNat ≠ 0 := by
    rw [place, packC, UInt8.toNat_ofNat']
    omega
  intro zero
  simp only [Memory.load32, Nat.zero_add] at zero
  omega

end Table

/-! ## The readers -/

section Readers

variable {args : DiskArgs} {geometry : Geometry} {placed : List PlacedPart}
variable {p : PlacedPart} {disk : List UInt8}

/-- A disk whose first sector is packed for these partitions. -/
structure HasTable (geometry : Geometry) (placed : List PlacedPart)
    (disk : List UInt8) : Prop where
  parts : ∃ code rest : List UInt8, code.length = 446 ∧
    disk = code ++ ((tableBlocks geometry placed).flatten ++ (packShort 0xaa55 ++ rest))

theorem length_flatten_tableBlocks (few : placed.length ≤ 4) :
    (tableBlocks geometry placed).flatten.length = 64 := by
  rw [List.length_flatten]
  have widths : (tableBlocks geometry placed).map List.length = List.replicate 4 16 := by
    rw [← length_tableBlocks few]
    apply List.eq_replicate_iff.mpr
    constructor
    · rw [List.length_map]
    · intro width member
      rcases List.mem_map.mp member with ⟨block, inTable, same⟩
      rw [← same]
      exact tableBlocks_length block inTable
  rw [widths]
  rfl

theorem HasTable.signature (has : HasTable geometry placed disk) (few : placed.length ≤ 4) :
    partitionTableSignature (Memory.ofBytes disk) 0 = 0xaa55 := by
  rcases has.parts with ⟨code, rest, length, whole⟩
  have before : (code ++ (tableBlocks geometry placed).flatten).length = 510 := by
    rw [List.length_append, length, length_flatten_tableBlocks few]
  have behind : (Memory.ofBytes disk).drop 510 = Memory.ofBytes (packShort 0xaa55 ++ rest) := by
    rw [whole, ← List.append_assoc]
    exact Memory.ofBytes_drop_of_length before
  have low : Memory.ofBytes disk 510 = 0x55 := congrFun behind 0
  have high : Memory.ofBytes disk 511 = 0xaa := congrFun behind 1
  rw [partitionTableSignature, Nat.zero_add, Nat.zero_add, low, high]
  rfl

/-- What is read from the four entries of the table. -/
theorem HasTable.read_entries (has : HasTable geometry placed disk)
    (few : placed.length ≤ 4) {Value : Type} {read : Memory → Value}
    (ofFirst : ∀ memory other : Memory, memory.AgreeOn other 0 16 → read memory = read other) :
    ((List.range 4).map fun i =>
        read ((Memory.ofBytes disk).drop (446 + 16 * i))) =
      placed.map (fun p => read (Memory.ofBytes (packPartition geometry p))) ++
        List.replicate (4 - placed.length) (read fun _ => 0) := by
  rcases has.parts with ⟨code, rest, length, whole⟩
  have entries := Memory.map_range_flatten ofFirst
    (@tableBlocks_length geometry placed)
    (packShort 0xaa55 ++ rest)
  rw [length_tableBlocks few] at entries
  have places : ∀ i, (Memory.ofBytes disk).drop (446 + 16 * i) =
      (Memory.ofBytes ((tableBlocks geometry placed).flatten ++
        (packShort 0xaa55 ++ rest))).drop (16 * i) := by
    intro i
    rw [← Memory.drop_drop, whole, Memory.ofBytes_drop_of_length length]
  simp only [places]
  rw [entries, tableBlocks, List.map_append, List.map_map, List.map_replicate,
    Memory.ofBytes_replicate]
  rfl

/-! ### The kernel -/

/-- The entry that the kernel reads. -/
def entryOf (entry : Memory) : PartitionTableEntry where
  type := (entry 4).toNat
  offset := entry.load32 8
  size := entry.load32 12

theorem partitionTableEntries_eq (image : Memory) :
    partitionTableEntries image 0 =
      (List.range 4).map fun i => entryOf (image.drop (446 + 16 * i)) := by
  apply List.map_congr_left
  intro i _
  simp only [partitionTableEntry, entryOf, Memory.load32, Memory.drop, Nat.zero_add, Nat.add_assoc]

theorem entryOf_congr (memory other : Memory)
    (agree : memory.AgreeOn other 0 16) : entryOf memory = entryOf other := by
  have offset := (agree.mono (by omega) (by omega) : memory.AgreeOn other 8 (8 + 4)).load32_eq
  have size := (agree.mono (by omega) (by omega) : memory.AgreeOn other 12 (12 + 4)).load32_eq
  rw [entryOf, entryOf, offset, size, agree 4 (by omega) (by omega)]

/-- The partition of a role as an entry of the table. -/
def placedEntry (p : PlacedPart) : PartitionTableEntry := ⟨role2type p.role, p.start, p.sectors⟩

theorem HasTable.entries (has : HasTable geometry placed disk) (few : placed.length ≤ 4)
    (small : ∀ p ∈ placed, p.start < unsignedModulus ∧ p.sectors < unsignedModulus) :
    partitionTableEntries (Memory.ofBytes disk) 0 =
      placed.map placedEntry ++
        List.replicate (4 - placed.length) ⟨0, 0, 0⟩ := by
  rw [partitionTableEntries_eq, has.read_entries few entryOf_congr]
  congr 1
  apply List.map_congr_left
  intro p member
  have bounds := small p member
  rw [entryOf, packPartition_type, packPartition_start geometry p bounds.1,
    packPartition_sectors geometry p bounds.2]
  rfl

theorem placedEntry_plain (p : PlacedPart) (positive : 0 < p.sectors) :
    (placedEntry p).isEmpty = false ∧ (placedEntry p).isExtended = false := by
  have notZero : (p.sectors == 0) = false := by
    rw [beq_eq_false_iff_ne]
    omega
  constructor
  · rw [PartitionTableEntry.isEmpty, placedEntry, notZero]
    cases p.role <;> rfl
  · rw [PartitionTableEntry.isExtended, placedEntry]
    cases p.role <;> rfl

/-- The tree of a table without nested tables. -/
theorem placed_tree (image : Memory) (size free : Nat)
    (bounds : ∀ p ∈ placed, p.start < unsignedModulus ∧ 0 < p.sectors) :
    TableTree image size 0 0
      (placed.map placedEntry ++ List.replicate free ⟨0, 0, 0⟩)
      (placed.map fun p => (placedEntry p).within 0) := by
  induction placed with
  | nil =>
      rw [List.map_nil, List.map_nil, List.nil_append]
      induction free with
      | zero => exact .nil 0 0
      | succ free inductionHypothesis => exact .empty rfl inductionHypothesis
  | cons p rest inductionHypothesis =>
      have here := bounds p List.mem_cons_self
      have plain := placedEntry_plain p here.2
      apply TableTree.partition plain.1 plain.2 here.1
      exact inductionHypothesis (fun q member => bounds q (List.mem_cons_of_mem p member))

theorem extendedEntries_placed (free : Nat) (positive : ∀ p ∈ placed, 0 < p.sectors) :
    extendedEntries (placed.map placedEntry ++ List.replicate free ⟨0, 0, 0⟩) = [] := by
  apply List.filter_eq_nil_iff.mpr
  intro e member
  rcases List.mem_append.mp member with used | unused
  · rcases List.mem_map.mp used with ⟨p, inPlaced, same⟩
    rw [← same, (placedEntry_plain p (positive p inPlaced)).2, Bool.and_false]
    exact Bool.false_ne_true
  · rw [List.eq_of_mem_replicate unused]
    decide

theorem numbered_placed {size total first : Nat} (fits : total ≤ size)
    (contiguous : Contiguous first placed total) (before : Nat) :
    numbered size before (placed.map fun p => (placedEntry p).within 0) = placed.mapIdx fun i p =>
        ⟨before + i + 1, p.role.blockType, p.start, p.sectors⟩ := by
  induction placed generalizing first before with
  | nil => rfl
  | cons p rest inductionHypothesis =>
      have bounds := contiguous.bounds List.mem_cons_self
      have inside : p.start + p.sectors ≤ size := by omega
      have later := inductionHypothesis contiguous.2.2.2 (before + 1)
      have type : partitionBlockType (role2type p.role) = p.role.blockType := by
        cases p.role <;> rfl
      rw [List.map_cons, numbered, List.mapIdx_cons, later]
      rw [if_pos]
      · congr 1
        · change (⟨before + 1, partitionBlockType (role2type p.role), p.start,
            p.sectors⟩ : Partition) = _
          rw [type]
        · congr 1
          funext i q
          congr 1
          omega
      · exact inside

/-- The kernel's search of the disk. -/
theorem HasTable.scan (has : HasTable geometry placed disk)
    (few : placed.length ≤ 4) {first total size : Nat}
    (contiguous : Contiguous first placed total) (firstPos : 0 < first)
    (fits : total ≤ size) (small : size < unsignedModulus) (fuel : Nat) :
    (partitionScan (diskSetting size (Memory.ofBytes disk)) (fuel + 1)).2 = .returned ∧
      (partitionScan (diskSetting size (Memory.ofBytes disk))
          (fuel + 1)).1.registered =
        placed.mapIdx fun i p =>
          ⟨i + 1, p.role.blockType, p.start, p.sectors⟩ := by
  have inside : 0 < size := by
    have order := contiguous.le
    omega
  have bounds : ∀ p ∈ placed, p.start < unsignedModulus ∧
      p.sectors < unsignedModulus ∧ 0 < p.sectors := by
    intro p member
    have within := contiguous.bounds member
    omega
  have entries := has.entries few fun p member =>
    ⟨(bounds p member).1, (bounds p member).2.1⟩
  have plain := extendedEntries_placed (4 - placed.length) fun p member => (bounds p member).2.2
  have tree := placed_tree (Memory.ofBytes disk) size (4 - placed.length)
    fun p member => ⟨(bounds p member).1, (bounds p member).2.2⟩
  rw [← entries] at plain tree
  rw [partitionScan, readPartitionTable_signed inside (has.signature few)]
  constructor
  · apply readPartitionTableEntries_returns (entries_small _ 0)
    rw [plain]
    intro e member
    cases member
  · rw [readPartitionTableEntries_plain small
      (fun e member => mem_partitionTableEntries member) plain tree,
      numbered_placed fits contiguous]
    simp only [Nat.zero_add, List.nil_append]

/-! ### The scripts -/

theorem unpackPartition_congr (memory other : Memory) (agree : memory.AgreeOn other 0 16) :
    unpackPartition memory = unpackPartition other := by
  have valid := (agree.mono (by omega) (by omega) : memory.AgreeOn other 0 (0 + 4)).load32_eq
  have start := (agree.mono (by omega) (by omega) : memory.AgreeOn other 8 (8 + 4)).load32_eq
  have length := (agree.mono (by omega) (by omega) : memory.AgreeOn other 12 (12 + 4)).load32_eq
  rw [unpackPartition, unpackPartition, valid, start, length,
    agree 0 (by omega) (by omega), agree 4 (by omega) (by omega)]

theorem interpretPartition_free (parts : Role → Option (Nat × Nat)) :
    interpretPartition parts (unpackPartition fun _ => 0) = parts :=
  if_pos rfl

theorem interpretPartition_placed (parts : Role → Option (Nat × Nat))
    (sectorsPos : 1 ≤ geometry.sectors) (sectorsSmall : geometry.sectors ≤ 63)
    (small : p.start < unsignedModulus ∧ p.sectors < unsignedModulus) (new : parts p.role = none) :
    interpretPartition parts
        (unpackPartition (Memory.ofBytes (packPartition geometry p))) =
      Function.update parts p.role (some (p.start, p.sectors)) := by
  have valid := packPartition_valid p sectorsPos sectorsSmall
  have bootable := packPartition_bootable geometry p
  have role : type2role (role2type p.role) = some p.role := by
    cases p.role <;> rfl
  rw [interpretPartition, unpackPartition, if_neg valid, if_neg (by tauto),
    packPartition_type, role]
  dsimp only
  rw [new, packPartition_start geometry p small.1, packPartition_sectors geometry p small.2]
  rfl

/-- The roles are interpreted one after another. -/
theorem foldl_interpretPartition (sectorsPos : 1 ≤ geometry.sectors)
    (sectorsSmall : geometry.sectors ≤ 63)
    (small : ∀ p ∈ placed, p.start < unsignedModulus ∧ p.sectors < unsignedModulus)
    (once : (placed.map (·.role)).Nodup) (parts : Role → Option (Nat × Nat))
    (new : ∀ p ∈ placed, parts p.role = none) (role : Role) (place : Nat × Nat) :
    (placed.map fun p =>
        unpackPartition (Memory.ofBytes (packPartition geometry p))).foldl
          interpretPartition parts role = some place ↔
      parts role = some place ∨
        ∃ p ∈ placed, p.role = role ∧ (p.start, p.sectors) = place := by
  induction placed generalizing parts with
  | nil => simp
  | cons p rest inductionHypothesis =>
      have distinct := List.nodup_cons.mp once
      have absent : parts p.role = none := new p List.mem_cons_self
      have others : ∀ q ∈ rest, q.role ≠ p.role := by
        intro q member same
        have listed : q.role ∈ rest.map (·.role) := List.mem_map_of_mem member
        rw [same] at listed
        exact distinct.1 listed
      rw [List.map_cons, List.foldl_cons, interpretPartition_placed parts
        sectorsPos sectorsSmall (small p List.mem_cons_self) absent,
        inductionHypothesis (fun q member => small q (List.mem_cons_of_mem p member)) distinct.2]
      · by_cases here : role = p.role
        · subst here
          rw [Function.update_self, absent]
          simp only [Option.some.injEq, List.mem_cons, exists_eq_or_imp,
            true_and, reduceCtorEq, false_or]
        · rw [Function.update_of_ne here]
          simp only [List.mem_cons, exists_eq_or_imp, Ne.symm here, false_and, false_or]
      · intro q member
        rw [Function.update_of_ne (others q member)]
        exact new q (List.mem_cons_of_mem p member)

theorem HasTable.interpret (has : HasTable geometry placed disk)
    (few : placed.length ≤ 4) (sectorsPos : 1 ≤ geometry.sectors)
    (sectorsSmall : geometry.sectors ≤ 63)
    (small : ∀ p ∈ placed, p.start < unsignedModulus ∧ p.sectors < unsignedModulus)
    (once : (placed.map (·.role)).Nodup) (role : Role) (place : Nat × Nat) :
    interpretPartitionTable (Memory.ofBytes disk) role = some place ↔
      ∃ p ∈ placed, p.role = role ∧ (p.start, p.sectors) = place := by
  have unchanged : ∀ (count : Nat) (parts : Role → Option (Nat × Nat)),
      (List.replicate count (unpackPartition fun _ => 0)).foldl
        interpretPartition parts = parts := by
    intro count parts
    induction count with
    | zero => rfl
    | succ count inductionHypothesis =>
        rw [List.replicate_succ, List.foldl_cons, interpretPartition_free, inductionHypothesis]
  have placedRoles := foldl_interpretPartition sectorsPos sectorsSmall small once
    (fun _ => none) (fun _ _ => rfl) role place
  rw [interpretPartitionTable, has.read_entries few unpackPartition_congr,
    List.foldl_append, unchanged, placedRoles]
  simp only [reduceCtorEq, false_or]

/-! ### The disk -/

/-- What the builder of a disk and its readers agree about. -/
structure ReadersAgree (args : DiskArgs) (disk : List UInt8) : Prop where
  /-- Every role that is given has one partition, and no other role has one. -/
  roles : ∀ role, (∃ p ∈ (diskLayout args).1, p.role = role) ↔ (args.parts role).isSome = true
  once : ((diskLayout args).1.map (·.role)).Nodup
  source : ∀ p ∈ (diskLayout args).1, args.parts p.role = some p.part
  complete : ∀ p ∈ (diskLayout args).1, p.part.bytes ≤ p.part.file.length - p.part.offset
  /-- The bytes of a role, and zeros to the end of its partition. -/
  data : ∀ p ∈ (diskLayout args).1,
    (disk.drop (512 * p.start)).take (512 * p.sectors) =
      (p.part.file.drop p.part.offset).take p.part.bytes ++
        List.replicate (512 * p.sectors - p.part.bytes) 0
  room : ∀ p ∈ (diskLayout args).1, p.part.bytes ≤ 512 * p.sectors
  apart : (diskLayout args).1.Pairwise fun p q => p.start + p.sectors ≤ q.start
  behindTable : ∀ p ∈ (diskLayout args).1, 0 < p.start
  scripts : ∀ role place,
    interpretPartitionTable (Memory.ofBytes (disk.take 512)) role = some place ↔
      ∃ p ∈ (diskLayout args).1, p.role = role ∧ (p.start, p.sectors) = place
  kernel : ∀ size fuel, (diskLayout args).2 ≤ size → size < unsignedModulus →
    (partitionScan (diskSetting size (Memory.ofBytes disk)) (fuel + 1)).2 = .returned ∧
      (partitionScan (diskSetting size (Memory.ofBytes disk))
          (fuel + 1)).1.registered =
        (diskLayout args).1.mapIdx fun i p =>
          ⟨i + 1, p.role.blockType, p.start, p.sectors⟩

theorem diskLayout_roles (args : DiskArgs) :
    (diskLayout args).1.map (·.role) = roleOrder.filter fun role => (args.parts role).isSome :=
  placeParts_roles roleOrder _

theorem diskLayout_few (args : DiskArgs) : (diskLayout args).1.length ≤ 4 := by
  have roles := congrArg List.length (diskLayout_roles args)
  rw [List.length_map] at roles
  rw [roles]
  exact List.length_filter_le _ roleOrder

/-- The first partition comes behind the boot record. -/
def firstSector (args : DiskArgs) : Nat :=
  if args.align = .full then args.geometry.sectors else 1

/-- The disk: the boot record, the rest of its track, the partitions, and what
fills the last cylinder. -/
theorem assembleDisk_eq_some (sectorsPos : 1 ≤ args.geometry.sectors)
    (assembled : assembleDisk args = some disk) :
    ∃ mbr gap parts behind : List UInt8,
      packMbr args (diskLayout args).1 = some mbr ∧
      writeParts (diskLayout args).1 = some parts ∧
      disk = mbr ++ gap ++ parts ++ behind ∧
      512 + gap.length = 512 * firstSector args := by
  rcases Option.bind_eq_some_iff.mp assembled with ⟨mbr, packed, written⟩
  rcases Option.map_eq_some_iff.mp written with ⟨parts, writes, whole⟩
  refine ⟨mbr, _, parts, _, packed, writes, whole.symm, ?_⟩
  rw [firstSector]
  split
  · rw [writeZeros_eq, List.length_replicate]
    omega
  · rfl

/-- What `assemble_disk` is given. -/
structure ValidArgs (args : DiskArgs) : Prop where
  nonempty : ∃ role, (args.parts role).isSome = true
  positive : ∀ role p, args.parts role = some p → 0 < p.bytes
  headsPos : 1 ≤ args.geometry.heads
  headsSmall : args.geometry.heads ≤ 255
  sectorsPos : 1 ≤ args.geometry.sectors
  sectorsSmall : args.geometry.sectors ≤ 63
  small : (diskLayout args).2 < unsignedModulus

theorem ValidArgs.contiguous (valid : ValidArgs args) :
    Contiguous (firstSector args) (diskLayout args).1 (diskLayout args).2 :=
  placeParts_contiguous valid.positive (Nat.mul_pos valid.headsPos valid.sectorsPos) roleOrder _

/-- The builder of a disk, the scripts and the kernel agree about its
partitions. -/
theorem disk_readers_agree (valid : ValidArgs args)
    (assembled : assembleDisk args = some disk) : ReadersAgree args disk := by
  rcases assembleDisk_eq_some valid.sectorsPos assembled with
    ⟨mbr, gap, parts, behind, packed, writes, whole, length⟩
  rcases writeParts_eq_some writes with ⟨partsAre, complete⟩
  have few := diskLayout_few args
  rcases packMbr_eq_some few packed with ⟨mbrLength, code, codeLength, mbrIs⟩
  have contiguous := valid.contiguous
  have roles := diskLayout_roles args
  have once : ((diskLayout args).1.map (·.role)).Nodup := by
    rw [roles]
    exact List.Nodup.sublist List.filter_sublist (by decide)
  have first : 0 < firstSector args := by
    rw [firstSector]
    split
    · exact valid.sectorsPos
    · decide
  have bounds : ∀ p ∈ (diskLayout args).1,
      p.start < unsignedModulus ∧ p.sectors < unsignedModulus := by
    intro p member
    have within := contiguous.bounds member
    have small := valid.small
    omega
  have table : HasTable args.geometry (diskLayout args).1 disk := by
    refine ⟨code, gap ++ parts ++ behind, codeLength, ?_⟩
    rw [whole, mbrIs]
    simp only [List.append_assoc]
  have sectorZero : disk.take 512 = mbr := by
    rw [whole, List.append_assoc, List.append_assoc, ← mbrLength, List.take_left]
  have mbrTable : HasTable args.geometry (diskLayout args).1
      (disk.take 512) := by
    refine ⟨code, [], codeLength, ?_⟩
    rw [sectorZero, mbrIs, List.append_nil]
  constructor
  · intro role
    have listed : role ∈ (diskLayout args).1.map (·.role) ↔ (args.parts role).isSome = true := by
      rw [roles, List.mem_filter]
      have every : role ∈ roleOrder := by
        cases role <;> decide
      simp only [every, true_and]
    rw [← listed, List.mem_map]
  · exact once
  · intro p member
    exact placeParts_source roleOrder _ member
  · exact complete
  · intro p member
    have front : (mbr ++ gap).length = 512 * firstSector args := by
      rw [List.length_append, mbrLength]
      exact length
    rw [whole, partsAre]
    exact contiguous.region_at complete front behind member
  · intro p member
    exact (contiguous.bounds member).2.2.2
  · exact contiguous.apart
  · intro p member
    have within := contiguous.bounds member
    omega
  · intro role place
    exact mbrTable.interpret few valid.sectorsPos valid.sectorsSmall bounds once role place
  · intro size fuel fits small
    exact table.scan few contiguous first fits small fuel

end Readers

/-- A kernel of three bytes and an empty sector for swapping. -/
def smallDisk : DiskArgs where
  parts role :=
    if role = .kernel then some ⟨[1, 2, 3], 0, 3⟩
    else if role = .swap then some ⟨List.replicate 512 0, 0, 512⟩
    else none
  geometry := ⟨16, 63⟩
  align := .none
  loader := none
  args := []

theorem disk_readers_agree_small :
    (assembleDisk smallDisk).isSome = true ∧
      ∀ disk, assembleDisk smallDisk = some disk →
        ReadersAgree smallDisk disk := by
  constructor
  · decide +kernel
  · intro disk
    apply disk_readers_agree
    constructor
    · exact ⟨.kernel, rfl⟩
    · intro role p defined
      cases role <;> cases defined <;> decide
    · decide
    · decide
    · decide
    · decide
    · decide +kernel

end CS162.Utils

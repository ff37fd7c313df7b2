import CS162.Devices.Partition

/-!
# Nested partition tables

What `partition_scan` is to find: an extended partition leads to one more table,
and the tables of a disk form a tree.  The search reads sector 0 in place of
every table of the tree, so that it is right only where sector 0 leads to no
other table.
-/

namespace CS162.Devices

open CS162.Foundation

/-! ## The tree of tables -/

/-- A partition of a table, wherever it lies. -/
structure TablePartition where
  partType : Nat
  start : Nat
  size : Nat
  deriving DecidableEq

/-- The partition of an entry of the table in a sector. -/
def PartitionTableEntry.within (e : PartitionTableEntry) (sector : Nat) :
    TablePartition :=
  ⟨e.type, e.offset + sector, e.size⟩

/-- The sector of the table that an entry for more tables leads to. -/
def nestedSector (sector primary : Nat) (e : PartitionTableEntry) : Nat :=
  if sector = 0 then e.offset else e.offset + primary

/-- The sector of the extended partition of sector 0 that contains it. -/
def nestedPrimary (sector primary : Nat) (e : PartitionTableEntry) : Nat :=
  if sector = 0 then e.offset else primary

/-- The entries of a table are the root of a finite tree of valid tables, with
these partitions in the order of the tables. -/
inductive TableTree (image : Memory) (size : Nat) :
    Nat → Nat → List PartitionTableEntry → List TablePartition → Prop
  | nil (sector primary : Nat) : TableTree image size sector primary [] []
  | empty {sector primary : Nat} {e : PartitionTableEntry}
      {rest : List PartitionTableEntry} {found : List TablePartition}
      (isEmpty : e.isEmpty = true)
      (later : TableTree image size sector primary rest found) :
      TableTree image size sector primary (e :: rest) found
  | partition {sector primary : Nat} {e : PartitionTableEntry}
      {rest : List PartitionTableEntry} {found : List TablePartition}
      (notEmpty : e.isEmpty = false) (notExtended : e.isExtended = false)
      (noWrap : e.offset + sector < unsignedModulus)
      (later : TableTree image size sector primary rest found) :
      TableTree image size sector primary (e :: rest) (e.within sector :: found)
  | extended {sector primary : Nat} {e : PartitionTableEntry}
      {rest : List PartitionTableEntry} {inner found : List TablePartition}
      (notEmpty : e.isEmpty = false) (isExtended : e.isExtended = true)
      (inside : nestedSector sector primary e < size)
      (signature : partitionTableSignature image
        (blockSectorSize * nestedSector sector primary e) = 0xaa55)
      (nested : TableTree image size (nestedSector sector primary e)
        (nestedPrimary sector primary e)
        (partitionTableEntries image (blockSectorSize * nestedSector sector primary e)) inner)
      (later : TableTree image size sector primary rest found) :
      TableTree image size sector primary (e :: rest) (inner ++ found)

/-- The partitions that lie wholly inside the device, numbered by their places
among all. -/
def numbered (size : Nat) : Nat → List TablePartition → List Partition
  | _, [] => []
  | before, part :: rest =>
      if part.start + part.size ≤ size then
        ⟨before + 1, partitionBlockType part.partType, part.start, part.size⟩ ::
          numbered size (before + 1) rest
      else numbered size (before + 1) rest

/-- A disk, where memory for the search is never short. -/
def diskSetting (size : Nat) (image : Memory) : ScanSetting := ⟨.device size, image, fun _ => true⟩

/-- The search comes to an end, and where the tables form a tree it has then
registered the partitions of the tree. -/
def FindsTree (size : Nat) (image : Memory) : Prop :=
  (∃ fuel, (partitionScan (diskSetting size image) fuel).2 = .returned) ∧
    ∀ fuel found,
      (partitionScan (diskSetting size image) fuel).2 = .returned →
      0 < size → partitionTableSignature image 0 = 0xaa55 →
      TableTree image size 0 0 (partitionTableEntries image 0) found →
      (partitionScan (diskSetting size image) fuel).1.registered = numbered size 0 found

/-- The entries of a table that are for more tables. -/
def extendedEntries (entries : List PartitionTableEntry) : List PartitionTableEntry :=
  entries.filter fun e => !e.isEmpty && e.isExtended

/-- Sector 0 does not make the search read a table again: it has no table, or
no extended partition, or its extended partitions cannot be searched because one
is past the end of the device, and no other leads back into the device. -/
def NoNestedTable (size : Nat) (image : Memory) : Prop :=
  size = 0 ∨ partitionTableSignature image 0 ≠ 0xaa55 ∨
    extendedEntries (partitionTableEntries image 0) = [] ∨
    ((∃ e ∈ extendedEntries (partitionTableEntries image 0), size ≤ e.offset) ∧
      ∀ e ∈ extendedEntries (partitionTableEntries image 0), e.offset < size →
        e.offset ≠ 0 ∧
          ∀ other ∈ extendedEntries (partitionTableEntries image 0),
            size ≤ wrap (other.offset + e.offset))

/-! ## One table -/

section OneTable

variable {setting : ScanSetting} {nested : Nat → Nat → Scan → Scan × Ending}
variable {size fuel sector primary : Nat} {image image' : Memory}
variable {e : PartitionTableEntry} {entries : List PartitionTableEntry}
variable {scan : Scan}

theorem mem_extendedEntries :
    e ∈ extendedEntries entries ↔ e ∈ entries ∧ e.isEmpty = false ∧ e.isExtended = true := by
  simp [extendedEntries]

/-- The search of the table that an entry leads to. -/
theorem nested_call (nested : Nat → Nat → Scan → Scan × Ending)
    (sector primary : Nat) (e : PartitionTableEntry) (scan : Scan)
    (small : e.offset < unsignedModulus) :
    (if sector = 0 then nested e.offset e.offset scan
      else nested (wrap (e.offset + primary)) primary scan) =
      nested (wrap (nestedSector sector primary e))
        (nestedPrimary sector primary e) scan := by
  rw [nestedSector, nestedPrimary]
  split
  · rw [wrap_of_lt small]
  · rfl

theorem foundPartition_returns (size : Nat) (image : Memory)
    (partType start count partNr : Nat) (scan : Scan) :
    (foundPartition (diskSetting size image) partType start count partNr
      scan).2 = .returned := by
  rw [foundPartition]
  split
  · rfl
  · split
    · rfl
    · rfl

/-- A table is read to its end when the tables it leads to are. -/
theorem readPartitionTableEntries_returns
    (small : ∀ e ∈ entries, e.offset < unsignedModulus)
    (nestedReturns : ∀ e ∈ extendedEntries entries, ∀ scan,
      (nested (wrap (nestedSector sector primary e))
        (nestedPrimary sector primary e) scan).2 = .returned)
    (scan : Scan) :
    (readPartitionTableEntries (diskSetting size image) nested sector primary
      entries scan).2 = .returned := by
  induction entries generalizing scan with
  | nil => rfl
  | cons e rest inductionHypothesis =>
      have later := inductionHypothesis
        (fun other member => small other (List.mem_cons_of_mem e member))
        (fun other member => by
          have inRest := mem_extendedEntries.mp member
          apply nestedReturns
          exact mem_extendedEntries.mpr ⟨List.mem_cons_of_mem e inRest.1, inRest.2⟩)
      rw [readPartitionTableEntries]
      cases empty : e.isEmpty with
      | true => exact later scan
      | false =>
          rw [if_neg Bool.false_ne_true]
          cases extended : e.isExtended with
          | true =>
              have member : e ∈ extendedEntries (e :: rest) :=
                mem_extendedEntries.mpr ⟨List.mem_cons_self, empty, extended⟩
              rw [if_pos rfl, nested_call _ _ _ _ _ (small e List.mem_cons_self),
                Scan.andThen, if_pos (nestedReturns e member scan)]
              exact later _
          | false =>
              rw [if_neg Bool.false_ne_true, Scan.andThen,
                if_pos (foundPartition_returns size image _ _ _ _ _)]
              exact later _

/-- A table is not read to its end when one that it leads to is not. -/
theorem readPartitionTableEntries_stuck
    (small : ∀ e ∈ entries, e.offset < unsignedModulus) (member : e ∈ extendedEntries entries)
    (nestedStuck : ∀ scan, (nested (wrap (nestedSector sector primary e))
        (nestedPrimary sector primary e) scan).2 ≠ .returned)
    (scan : Scan) :
    (readPartitionTableEntries (diskSetting size image) nested sector primary
      entries scan).2 ≠ .returned := by
  induction entries generalizing scan with
  | nil => cases member
  | cons first rest inductionHypothesis =>
      have smallRest : ∀ e ∈ rest, e.offset < unsignedModulus :=
        fun other there => small other (List.mem_cons_of_mem first there)
      have here := mem_extendedEntries.mp member
      rw [readPartitionTableEntries]
      rcases List.mem_cons.mp here.1 with same | inRest
      · subst same
        rw [here.2.1, if_neg Bool.false_ne_true, here.2.2, if_pos rfl,
          nested_call _ _ _ _ _ (small e List.mem_cons_self), Scan.andThen,
          if_neg (nestedStuck scan)]
        exact nestedStuck scan
      · have later := inductionHypothesis smallRest (mem_extendedEntries.mpr ⟨inRest, here.2⟩)
        cases first.isEmpty with
        | true => exact later scan
        | false =>
            rw [if_neg Bool.false_ne_true, nested_call _ _ _ _ _ (small first List.mem_cons_self),
              Scan.andThen, Scan.andThen]
            cases first.isExtended with
            | true =>
                rw [if_pos rfl]
                split
                · exact later _
                · assumption
            | false =>
                rw [if_neg Bool.false_ne_true, if_pos (foundPartition_returns size image _ _ _ _ _)]
                exact later _

theorem readPartitionTable_past (past : size ≤ sector) :
    readPartitionTable (diskSetting size image) (fuel + 1) sector primary scan =
      (scan, .returned) := by
  rw [readPartitionTable]
  exact if_pos past

/-- Every table that is read is the one in sector 0. -/
theorem readPartitionTable_read (inside : sector < size) :
    readPartitionTable (diskSetting size image) (fuel + 1) sector primary scan =
      if partitionTableSignature image 0 ≠ 0xaa55 then
        ({ scan with mallocs := scan.mallocs + 1 }, .returned)
      else
        readPartitionTableEntries (diskSetting size image)
          (readPartitionTable (diskSetting size image) fuel) sector primary
          (partitionTableEntries image 0)
          { scan with mallocs := scan.mallocs + 1 } := by
  have outside : ¬sector ≥ (diskSetting size image).block.size := Nat.not_le_of_lt inside
  have first : blockRead (diskSetting size image).block 0 = .ok 0 := by
    rw [diskSetting, blockRead, checkSector_of_lt (Nat.zero_lt_of_lt inside)]
    rfl
  rw [readPartitionTable, if_neg outside, Scan.allocate, diskSetting, if_pos rfl, ← diskSetting]
  simp only [first, Nat.mul_zero]
  rfl

theorem readPartitionTable_unsigned (inside : sector < size)
    (unsigned : partitionTableSignature image 0 ≠ 0xaa55) :
    readPartitionTable (diskSetting size image) (fuel + 1) sector primary scan =
      ({ scan with mallocs := scan.mallocs + 1 }, .returned) := by
  rw [readPartitionTable_read inside, if_pos unsigned]

theorem readPartitionTable_signed (inside : sector < size)
    (signed : partitionTableSignature image 0 = 0xaa55) :
    readPartitionTable (diskSetting size image) (fuel + 1) sector primary scan =
      readPartitionTableEntries (diskSetting size image)
        (readPartitionTable (diskSetting size image) fuel) sector primary
        (partitionTableEntries image 0)
        { scan with mallocs := scan.mallocs + 1 } := by
  rw [readPartitionTable_read inside, if_neg (not_not.mpr signed)]

theorem entries_small (image : Memory) (table : Nat) :
    ∀ e ∈ partitionTableEntries image table, e.offset < unsignedModulus :=
  fun _ member => (mem_partitionTableEntries member).1

/-- Sectors that each lead to another keep the search from an end. -/
theorem readPartitionTable_never (signed : partitionTableSignature image 0 = 0xaa55)
    {Again : Nat → Nat → Prop}
    (again : ∀ sector primary, Again sector primary → sector < size ∧
      ∃ e ∈ extendedEntries (partitionTableEntries image 0),
        Again (wrap (nestedSector sector primary e)) (nestedPrimary sector primary e))
    (fuel : Nat) (here : Again sector primary) (scan : Scan) :
    (readPartitionTable (diskSetting size image) fuel sector primary scan).2 ≠
      .returned := by
  induction fuel generalizing sector primary scan with
  | zero =>
      intro returned
      cases returned
  | succ fuel inductionHypothesis =>
      rcases again sector primary here with ⟨inside, e, member, next⟩
      rw [readPartitionTable_signed inside signed]
      apply readPartitionTableEntries_stuck (entries_small image 0) member
      exact inductionHypothesis next

/-! ## Sector 0 decides -/

theorem partitionTableEntries_congr (agree : image.AgreeOn image' 0 512) :
    partitionTableEntries image 0 = partitionTableEntries image' 0 := by
  apply List.map_congr_left
  intro i member
  have small := List.mem_range.mp member
  have offset : image.AgreeOn image' (0 + 446 + 16 * i + 8)
      (0 + 446 + 16 * i + 8 + 4) := agree.mono (by omega) (by omega)
  have size : image.AgreeOn image' (0 + 446 + 16 * i + 12)
      (0 + 446 + 16 * i + 12 + 4) := agree.mono (by omega) (by omega)
  rw [partitionTableEntry, partitionTableEntry, offset.load32_eq, size.load32_eq,
    agree (0 + 446 + 16 * i + 4) (by omega) (by omega)]

theorem partitionTableSignature_congr (agree : image.AgreeOn image' 0 512) :
    partitionTableSignature image 0 = partitionTableSignature image' 0 := by
  rw [partitionTableSignature, partitionTableSignature,
    agree (0 + 510) (by omega) (by omega), agree (0 + 511) (by omega) (by omega)]

theorem partitionTableEntries_drop (image : Memory) (table : Nat) :
    partitionTableEntries image table = partitionTableEntries (image.drop table) 0 := by
  apply List.map_congr_left
  intro i _
  simp only [partitionTableEntry, Memory.load32, Memory.drop, Nat.zero_add, Nat.add_assoc]

theorem partitionTableSignature_drop (image : Memory) (table : Nat) :
    partitionTableSignature image table = partitionTableSignature (image.drop table) 0 := by
  simp only [partitionTableSignature, Memory.drop, Nat.zero_add]

theorem readPartitionTableEntries_congr
    {nested' : Nat → Nat → Scan → Scan × Ending}
    (same : ∀ sector primary scan,
      nested sector primary scan = nested' sector primary scan) (scan : Scan) :
    readPartitionTableEntries (diskSetting size image) nested sector primary
        entries scan =
      readPartitionTableEntries (diskSetting size image') nested' sector primary
        entries scan := by
  have functions : nested = nested' := by
    funext sector primary scan
    exact same sector primary scan
  subst functions
  induction entries generalizing scan with
  | nil => rfl
  | cons e rest inductionHypothesis =>
      have later : readPartitionTableEntries (diskSetting size image) nested
          sector primary rest =
        readPartitionTableEntries (diskSetting size image') nested sector primary
          rest := funext inductionHypothesis
      rw [readPartitionTableEntries, readPartitionTableEntries, later]
      rfl

theorem readPartitionTable_congr (agree : image.AgreeOn image' 0 512) :
    readPartitionTable (diskSetting size image) fuel sector primary scan =
      readPartitionTable (diskSetting size image') fuel sector primary scan := by
  induction fuel generalizing sector primary scan with
  | zero => rfl
  | succ fuel inductionHypothesis =>
      by_cases inside : sector < size
      · have signature := partitionTableSignature_congr agree
        by_cases signed : partitionTableSignature image 0 = 0xaa55
        · have signed' := signature ▸ signed
          rw [readPartitionTable_signed inside signed, readPartitionTable_signed inside signed',
            partitionTableEntries_congr agree]
          apply readPartitionTableEntries_congr
          intro sector primary scan
          exact inductionHypothesis
        · have signed' := signature ▸ signed
          rw [readPartitionTable_unsigned inside signed, readPartitionTable_unsigned inside signed']
      · rw [readPartitionTable_past (Nat.le_of_not_lt inside),
          readPartitionTable_past (Nat.le_of_not_lt inside)]

/-! ## Where sector 0 leads to no other table -/

theorem foundPartition_numbered (limitSmall : size < unsignedModulus)
    {part : TablePartition} (startSmall : part.start < unsignedModulus)
    (sizeSmall : part.size < unsignedModulus) (notEmpty : part.size ≠ 0) :
    ∃ mallocs, foundPartition (diskSetting size image) part.partType part.start
        part.size (scan.partNr + 1) { scan with partNr := scan.partNr + 1 } =
      (⟨scan.partNr + 1, scan.registered ++ numbered size scan.partNr [part],
        mallocs⟩, .returned) := by
  have fits := fits_iff startSmall sizeSmall limitSmall
  have width : (diskSetting size image).block.size = size := rfl
  rw [foundPartition, numbered, numbered, width]
  by_cases inside : part.start + part.size ≤ size
  · have starts : part.start < size := by omega
    have tests := fits.mpr ⟨starts, inside⟩
    refine ⟨scan.mallocs + 1 + 1, ?_⟩
    rw [if_neg (Nat.not_le_of_lt starts), if_neg tests.2, if_pos inside]
    rfl
  · refine ⟨scan.mallocs, ?_⟩
    rw [if_neg inside, List.append_nil]
    split
    · rfl
    · rename_i starts
      rw [if_pos]
      by_contra ends
      exact inside (fits.mp ⟨Nat.lt_of_not_le starts, ends⟩).2

theorem numbered_cons (size before : Nat) (part : TablePartition) (rest : List TablePartition) :
    numbered size before (part :: rest) =
      numbered size before [part] ++ numbered size (before + 1) rest := by
  rw [numbered, numbered, numbered]
  split
  · rfl
  · rfl

/-- A table without entries for more tables is read as it is. -/
theorem readPartitionTableEntries_plain (limitSmall : size < unsignedModulus)
    (small : ∀ e ∈ entries, e.offset < unsignedModulus ∧ e.size < unsignedModulus)
    (plain : extendedEntries entries = []) {found : List TablePartition}
    (tree : TableTree image' size 0 primary entries found) (scan : Scan) :
    (readPartitionTableEntries (diskSetting size image) nested 0 primary entries
        scan).1.registered =
      scan.registered ++ numbered size scan.partNr found := by
  induction entries generalizing found scan with
  | nil =>
      cases tree
      rw [numbered, List.append_nil]
      rfl
  | cons e rest inductionHypothesis =>
      have smallRest : ∀ e ∈ rest, e.offset < unsignedModulus ∧ e.size < unsignedModulus :=
        fun other member => small other (List.mem_cons_of_mem e member)
      have here := small e List.mem_cons_self
      have plainRest : extendedEntries rest = [] := by
        apply List.eq_nil_iff_forall_not_mem.mpr
        intro other member
        have inRest := mem_extendedEntries.mp member
        have inAll : other ∈ extendedEntries (e :: rest) :=
          mem_extendedEntries.mpr ⟨List.mem_cons_of_mem e inRest.1, inRest.2⟩
        rw [plain] at inAll
        cases inAll
      rw [readPartitionTableEntries]
      cases tree with
      | empty isEmpty later =>
          rw [if_pos isEmpty]
          exact inductionHypothesis smallRest plainRest later scan
      | partition notEmpty notExtended noWrap later =>
          have sizeNotZero : e.size ≠ 0 := by
            simp only [PartitionTableEntry.isEmpty, Bool.or_eq_false_iff,
              beq_eq_false_iff_ne] at notEmpty
            exact notEmpty.1
          rcases @foundPartition_numbered _ _ _ limitSmall (e.within 0) noWrap
              here.2 sizeNotZero with
            ⟨mallocs, registers⟩
          rw [notEmpty, if_neg Bool.false_ne_true, notExtended,
            if_neg Bool.false_ne_true, wrap_of_lt noWrap]
          have result : foundPartition (diskSetting size image) e.type
              (e.offset + 0) e.size (scan.partNr + 1)
              { scan with partNr := scan.partNr + 1 } = _ := registers
          rw [result, Scan.andThen, if_pos rfl,
            inductionHypothesis smallRest plainRest later, List.append_assoc,
            ← numbered_cons]
      | extended notEmpty isExtended inside signature below later =>
          have member : e ∈ extendedEntries (e :: rest) :=
            mem_extendedEntries.mpr ⟨List.mem_cons_self, notEmpty, isExtended⟩
          rw [plain] at member
          cases member

/-- A table that leads past the end of the device is in no tree. -/
theorem TableTree.inside {found : List TablePartition}
    (tree : TableTree image size 0 primary entries found)
    (member : e ∈ extendedEntries entries) : e.offset < size := by
  induction entries generalizing found with
  | nil => cases member
  | cons first rest inductionHypothesis =>
      have here := mem_extendedEntries.mp member
      rcases List.mem_cons.mp here.1 with same | inRest
      · subst same
        cases tree with
        | empty isEmpty later =>
            rw [here.2.1] at isEmpty
            cases isEmpty
        | partition notEmpty notExtended noWrap later =>
            rw [here.2.2] at notExtended
            cases notExtended
        | extended notEmpty isExtended inside signature below later =>
            exact inside
      · have memberRest := mem_extendedEntries.mpr ⟨inRest, here.2⟩
        cases tree with
        | empty isEmpty later => exact inductionHypothesis later memberRest
        | partition notEmpty notExtended noWrap later =>
            exact inductionHypothesis later memberRest
        | extended notEmpty isExtended inside signature below later =>
            exact inductionHypothesis later memberRest

end OneTable

/-! ## Which disks are searched to the end -/

section Ends

variable {size : Nat} {image : Memory}

theorem partitionScan_of_unsigned
    (none : size = 0 ∨ partitionTableSignature image 0 ≠ 0xaa55) (fuel : Nat) :
    (partitionScan (diskSetting size image) (fuel + 1)).2 = .returned := by
  rw [partitionScan]
  by_cases inside : 0 < size
  · have unsigned : partitionTableSignature image 0 ≠ 0xaa55 := by
      rcases none with empty | unsigned
      · omega
      · exact unsigned
    rw [readPartitionTable_unsigned inside unsigned]
  · rw [readPartitionTable_past (Nat.le_of_not_lt inside)]

/-- The search ends when no table that sector 0 leads to inside the device leads
back into it. -/
theorem partitionScan_returns (inside : 0 < size)
    (signed : partitionTableSignature image 0 = 0xaa55)
    (away : ∀ e ∈ extendedEntries (partitionTableEntries image 0),
      e.offset < size → e.offset ≠ 0 ∧
        ∀ other ∈ extendedEntries (partitionTableEntries image 0),
          size ≤ wrap (other.offset + e.offset)) :
    (partitionScan (diskSetting size image) 3).2 = .returned := by
  rw [partitionScan, readPartitionTable_signed inside signed]
  apply readPartitionTableEntries_returns (entries_small image 0)
  intro e member scan
  have offsetSmall := entries_small image 0 e (mem_extendedEntries.mp member).1
  rw [nestedSector, nestedPrimary, if_pos rfl, if_pos rfl, wrap_of_lt offsetSmall]
  by_cases within : e.offset < size
  · rcases away e member within with ⟨notFirst, outside⟩
    rw [readPartitionTable_signed within signed]
    apply readPartitionTableEntries_returns (entries_small image 0)
    intro other memberOther scan
    rw [nestedSector, nestedPrimary, if_neg notFirst, if_neg notFirst,
      readPartitionTable_past (outside other memberOther)]
  · rw [readPartitionTable_past (Nat.le_of_not_lt within)]

/-- A table in the device that leads back into it keeps the search from an
end. -/
theorem partitionScan_never
    (signed : partitionTableSignature image 0 = 0xaa55) {e : PartitionTableEntry}
    (member : e ∈ extendedEntries (partitionTableEntries image 0)) (within : e.offset < size)
    (back : e.offset = 0 ∨
      ∃ other ∈ extendedEntries (partitionTableEntries image 0),
        wrap (other.offset + e.offset) < size) (fuel : Nat) :
    (partitionScan (diskSetting size image) fuel).2 ≠ .returned := by
  have offsetSmall := entries_small image 0 e (mem_extendedEntries.mp member).1
  rcases back with first | ⟨other, memberOther, again⟩
  · apply @readPartitionTable_never _ _ _ _ signed (fun sector _ => sector = 0)
    · intro sector primary here
      refine ⟨by omega, e, member, ?_⟩
      rw [nestedSector, if_pos here, first]
      rfl
    · rfl
  · -- from sector 0 to the table, and from there to the same one again
    apply @readPartitionTable_never _ _ _ _ signed (fun sector primary =>
      sector = 0 ∨ primary = e.offset ∧
        (sector = e.offset ∨ sector = wrap (other.offset + e.offset)))
    · intro sector primary here
      have sectorInside : sector < size := by
        rcases here with first | ⟨_, one | two⟩
        · omega
        · omega
        · omega
      refine ⟨sectorInside, ?_⟩
      by_cases first : sector = 0
      · refine ⟨e, member, Or.inr ?_⟩
        rw [nestedSector, nestedPrimary, if_pos first, if_pos first, wrap_of_lt offsetSmall]
        exact ⟨rfl, Or.inl rfl⟩
      · refine ⟨other, memberOther, Or.inr ?_⟩
        rcases here with again | ⟨samePrimary, _⟩
        · exact absurd again first
        · rw [nestedSector, nestedPrimary, if_neg first, if_neg first, samePrimary]
          exact ⟨rfl, Or.inr rfl⟩
    · exact Or.inl rfl

theorem FindsTree.of_noNestedTable (small : size < unsignedModulus)
    (condition : NoNestedTable size image) : FindsTree size image := by
  by_cases unsigned : size = 0 ∨ partitionTableSignature image 0 ≠ 0xaa55
  · constructor
    · exact ⟨1, partitionScan_of_unsigned unsigned 0⟩
    · intro fuel found _ inside signed
      rcases unsigned with empty | unsigned
      · omega
      · exact absurd signed unsigned
  · have inside : 0 < size := by
      by_contra empty
      exact unsigned (Or.inl (by omega))
    have signed : partitionTableSignature image 0 = 0xaa55 := by
      by_contra notSigned
      exact unsigned (Or.inr notSigned)
    rcases condition with empty | notSigned | plain | ⟨⟨e, member, past⟩, away⟩
    · omega
    · exact absurd signed notSigned
    · constructor
      · refine ⟨3, partitionScan_returns inside signed ?_⟩
        rw [plain]
        intro e member
        cases member
      · intro fuel found returned _ _ tree
        cases fuel with
        | zero => cases returned
        | succ fuel =>
            rw [partitionScan, readPartitionTable_signed inside signed]
            exact readPartitionTableEntries_plain small
              (fun e member => mem_partitionTableEntries member) plain tree _
    · constructor
      · exact ⟨3, partitionScan_returns inside signed away⟩
      · intro fuel found _ _ _ tree
        have within := tree.inside member
        omega

/-! ## What the other sectors may contain -/

/-- A sector with a table that is empty or has one partition of one sector. -/
def tableSector (part : Bool) : Memory := fun index =>
  if index = 510 then 0x55
  else if index = 511 then 0xaa
  else if part && (index == 450) then 0x20
  else if part && (index == 458) then 1
  else 0

/-- The device with the same sector 0 and such a table in every other. -/
def withTables (image : Memory) (part : Bool) : Memory := fun address =>
  if address < 512 then image address else tableSector part (address % 512)

/-- The partitions of the tables that sector 0 leads to. -/
def tablePartitions (part : Bool) (sector : Nat) : List TablePartition :=
  if part then [⟨0x20, sector, 1⟩] else []

theorem withTables_agree (image : Memory) (part : Bool) :
    (withTables image part).AgreeOn image 0 512 := by
  intro address _ inside
  exact if_pos inside

theorem withTables_sector (image : Memory) (part : Bool) {sector : Nat} (notFirst : sector ≠ 0) :
    ((withTables image part).drop (blockSectorSize * sector)).AgreeOn
      (tableSector part) 0 512 := by
  intro index _ inside
  have later : ¬blockSectorSize * sector + index < 512 := by
    unfold blockSectorSize
    omega
  have place : (blockSectorSize * sector + index) % 512 = index := by
    unfold blockSectorSize
    omega
  rw [Memory.drop, withTables, if_neg later, place]

theorem withTables_signature (image : Memory) (part : Bool) {sector : Nat} (notFirst : sector ≠ 0) :
    partitionTableSignature (withTables image part)
      (blockSectorSize * sector) = 0xaa55 := by
  rw [partitionTableSignature_drop,
    partitionTableSignature_congr (withTables_sector image part notFirst)]
  cases part <;> decide

theorem withTables_tree (image : Memory) (part : Bool) (size : Nat)
    {sector : Nat} (small : sector < unsignedModulus) (notFirst : sector ≠ 0) :
    TableTree (withTables image part) size sector sector
      (partitionTableEntries (withTables image part) (blockSectorSize * sector))
      (tablePartitions part sector) := by
  have entries : partitionTableEntries (tableSector part) 0 =
      [if part then ⟨0x20, 0, 1⟩ else ⟨0, 0, 0⟩, ⟨0, 0, 0⟩, ⟨0, 0, 0⟩, ⟨0, 0, 0⟩] := by
    cases part <;> decide
  rw [partitionTableEntries_drop,
    partitionTableEntries_congr (withTables_sector image part notFirst), entries]
  have others : TableTree (withTables image part) size sector sector
      [⟨0, 0, 0⟩, ⟨0, 0, 0⟩, ⟨0, 0, 0⟩] [] :=
    .empty rfl (.empty rfl (.empty rfl (.nil _ _)))
  cases part with
  | false => exact .empty rfl others
  | true =>
      have one := TableTree.partition (e := ⟨0x20, 0, 1⟩) rfl rfl
        (by rw [Nat.zero_add]; exact small) others
      rw [PartitionTableEntry.within, Nat.zero_add] at one
      exact one

/-- The partitions of the tree when every other sector has such a table. -/
def foundWith (part : Bool) : List PartitionTableEntry → List TablePartition
  | [] => []
  | e :: rest =>
      if e.isEmpty then foundWith part rest
      else if e.isExtended then
        tablePartitions part e.offset ++ foundWith part rest
      else e.within 0 :: foundWith part rest

theorem extendedEntries_cons {e other : PartitionTableEntry}
    {rest : List PartitionTableEntry} (member : other ∈ extendedEntries rest) :
    other ∈ extendedEntries (e :: rest) := by
  have inRest := mem_extendedEntries.mp member
  exact mem_extendedEntries.mpr ⟨List.mem_cons_of_mem e inRest.1, inRest.2⟩

theorem withTables_root (image : Memory) (part : Bool) {entries : List PartitionTableEntry}
    (small : ∀ e ∈ entries, e.offset < unsignedModulus)
    (within : ∀ e ∈ extendedEntries entries, e.offset < size ∧ e.offset ≠ 0) :
    TableTree (withTables image part) size 0 0 entries
      (foundWith part entries) := by
  induction entries with
  | nil => exact .nil 0 0
  | cons e rest inductionHypothesis =>
      have offsetSmall := small e List.mem_cons_self
      have later := inductionHypothesis
        (fun other member => small other (List.mem_cons_of_mem e member))
        (fun other member => within other (extendedEntries_cons member))
      rw [foundWith]
      cases empty : e.isEmpty with
      | true => exact .empty empty later
      | false =>
          cases extended : e.isExtended with
          | true =>
              have here := within e (mem_extendedEntries.mpr ⟨List.mem_cons_self, empty, extended⟩)
              exact .extended empty extended here.1
                (withTables_signature image part here.2)
                (withTables_tree image part size offsetSmall here.2) later
          | false => exact .partition empty extended offsetSmall later

theorem length_numbered (size before : Nat) (found : List TablePartition) :
    (numbered size before found).length =
      found.countP fun part => decide (part.start + part.size ≤ size) := by
  induction found generalizing before with
  | nil => rfl
  | cons part rest inductionHypothesis =>
      rw [numbered, List.countP_cons]
      split
      · rename_i fits
        rw [List.length_cons, inductionHypothesis, if_pos (decide_eq_true fits)]
      · rename_i sticksOut
        rw [inductionHypothesis, if_neg (by simpa using sticksOut), Nat.add_zero]

/-- Every table with a partition adds one to those found. -/
theorem length_foundWith {entries : List PartitionTableEntry} (before : Nat)
    (within : ∀ e ∈ extendedEntries entries, e.offset < size) :
    (numbered size before (foundWith true entries)).length =
      (numbered size before (foundWith false entries)).length +
        (extendedEntries entries).length := by
  rw [length_numbered, length_numbered]
  induction entries with
  | nil => rfl
  | cons e rest inductionHypothesis =>
      have later := inductionHypothesis
        (fun other member => within other (extendedEntries_cons member))
      rw [foundWith, foundWith, extendedEntries, List.filter_cons, ← extendedEntries]
      cases empty : e.isEmpty with
      | true => exact later
      | false =>
          cases extended : e.isExtended with
          | true =>
              have here := within e (mem_extendedEntries.mpr ⟨List.mem_cons_self, empty, extended⟩)
              have fits : e.offset + 1 ≤ size := here
              simp [tablePartitions, fits]
              omega
          | false =>
              simp only [Bool.false_eq_true, if_false, List.countP_cons,
                Bool.not_false, Bool.and_false]
              omega

theorem NoNestedTable.congr {image' : Memory} (agree : image'.AgreeOn image 0 512)
    (condition : NoNestedTable size image) : NoNestedTable size image' := by
  rw [NoNestedTable, partitionTableEntries_congr agree, partitionTableSignature_congr agree]
  exact condition

theorem noNestedTable_of_findsTree
    (finds : ∀ other : Memory, other.AgreeOn image 0 512 → FindsTree size other) :
    NoNestedTable size image := by
  by_cases unsigned : size = 0 ∨ partitionTableSignature image 0 ≠ 0xaa55
  · rcases unsigned with empty | unsigned
    · exact Or.inl empty
    · exact Or.inr (Or.inl unsigned)
  · have inside : 0 < size := by
      by_contra empty
      exact unsigned (Or.inl (by omega))
    have signed : partitionTableSignature image 0 = 0xaa55 := by
      by_contra notSigned
      exact unsigned (Or.inr notSigned)
    have own : image.AgreeOn image 0 512 := fun _ _ _ => rfl
    rcases (finds image own).1 with ⟨fuel, returned⟩
    have away : ∀ e ∈ extendedEntries (partitionTableEntries image 0),
        e.offset < size → e.offset ≠ 0 ∧
          ∀ other ∈ extendedEntries (partitionTableEntries image 0),
            size ≤ wrap (other.offset + e.offset) := by
      intro e member within
      constructor
      · intro first
        exact partitionScan_never signed member within (Or.inl first) fuel returned
      · intro other memberOther
        by_contra back
        exact partitionScan_never signed member within
          (Or.inr ⟨other, memberOther, Nat.lt_of_not_le back⟩) fuel returned
    by_cases past : ∃ e ∈ extendedEntries (partitionTableEntries image 0), size ≤ e.offset
    · exact Or.inr (Or.inr (Or.inr ⟨past, away⟩))
    · -- the tables of both devices are valid, but not equally many partitions
      have within : ∀ e ∈ extendedEntries (partitionTableEntries image 0), e.offset < size := by
        intro e member
        by_contra outside
        exact past ⟨e, member, Nat.le_of_not_lt outside⟩
      have registers : ∀ part,
          (partitionScan (diskSetting size image) fuel).1.registered =
            numbered size 0 (foundWith part (partitionTableEntries image 0)) := by
        intro part
        have agree := withTables_agree image part
        have same : partitionScan (diskSetting size (withTables image part)) fuel =
            partitionScan (diskSetting size image) fuel :=
          readPartitionTable_congr agree
        have tree := withTables_root image part
          (entries_small image 0)
          (fun e member => ⟨within e member, (away e member (within e member)).1⟩)
        have result := (finds (withTables image part) agree).2 fuel
          (foundWith part (partitionTableEntries image 0))
        rw [same, partitionTableEntries_congr agree, partitionTableSignature_congr agree] at result
        exact result returned inside signed tree
      have none := length_foundWith 0 within
      rw [← registers true, ← registers false] at none
      refine Or.inr (Or.inr (Or.inl ?_))
      apply List.eq_nil_of_length_eq_zero
      omega

/-- The search is right, whatever the other sectors contain, exactly on the
disks whose sector 0 leads to no other table. -/
theorem finds_tree_iff (small : size < unsignedModulus) (image : Memory) :
    (∀ other : Memory, other.AgreeOn image 0 512 → FindsTree size other) ↔
      NoNestedTable size image := by
  constructor
  · exact noNestedTable_of_findsTree
  · intro condition other agree
    exact FindsTree.of_noNestedTable small (condition.congr agree)

theorem finds_tree_iff_kernel :
    NoNestedTable 20 kernelDisk ∧
      ∀ other : Memory, other.AgreeOn kernelDisk 0 512 → FindsTree 20 other := by
  have none : extendedEntries (partitionTableEntries kernelDisk 0) = [] := by
    decide +kernel
  have plain : NoNestedTable 20 kernelDisk := Or.inr (Or.inr (Or.inl none))
  exact ⟨plain, (finds_tree_iff (by decide) kernelDisk).mpr plain⟩

/-- A disk with an extended partition from sector 10, whose table has one
partition, from sector 11. -/
def extendedDisk : Memory := fun address =>
  if address = 450 then 0x05
  else if address = 454 then 10
  else if address = 458 then 20
  else if address = 510 ∨ address = 5630 then 0x55
  else if address = 511 ∨ address = 5631 then 0xaa
  else if address = 5570 then 0x20
  else if address = 5574 then 1
  else if address = 5578 then 5
  else 0

theorem extended_partition_not_searched :
    TableTree extendedDisk 100 0 0 (partitionTableEntries extendedDisk 0)
        [⟨0x20, 11, 5⟩] ∧
      ¬FindsTree 100 extendedDisk := by
  have root : partitionTableEntries extendedDisk 0 =
      [⟨5, 10, 20⟩, ⟨0, 0, 0⟩, ⟨0, 0, 0⟩, ⟨0, 0, 0⟩] := by decide
  have nested : partitionTableEntries extendedDisk (blockSectorSize * 10) =
      [⟨0x20, 1, 5⟩, ⟨0, 0, 0⟩, ⟨0, 0, 0⟩, ⟨0, 0, 0⟩] := by decide
  constructor
  · have inner : TableTree extendedDisk 100 10 10
        (partitionTableEntries extendedDisk (blockSectorSize * 10))
        [⟨0x20, 11, 5⟩] := by
      rw [nested]
      exact .partition rfl rfl (by decide) (.empty rfl (.empty rfl (.empty rfl (.nil _ _))))
    have rest : TableTree extendedDisk 100 0 0
        [⟨0, 0, 0⟩, ⟨0, 0, 0⟩, ⟨0, 0, 0⟩] [] :=
      .empty rfl (.empty rfl (.empty rfl (.nil _ _)))
    rw [root]
    exact TableTree.extended (e := ⟨5, 10, 20⟩) rfl rfl (by decide) (by decide) inner rest
  · intro finds
    rcases finds.1 with ⟨fuel, returned⟩
    have member : (⟨5, 10, 20⟩ : PartitionTableEntry) ∈
        extendedEntries (partitionTableEntries extendedDisk 0) := by
      rw [root]
      decide
    apply partitionScan_never _ member _ _ fuel returned
    · decide
    · decide
    · exact Or.inr ⟨⟨5, 10, 20⟩, member, by decide⟩

end Ends

end CS162.Devices

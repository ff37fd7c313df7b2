import Mathlib.Tactic.IntervalCases
import CS162.Foundation.Descriptors
import CS162.Threads.IntrStubs

/-!
# The global descriptor table

`userprog/gdt.c`.  A failed `ASSERT` is `none`.
-/

namespace CS162.Userprog

open CS162.Foundation CS162.Foundation.ProtectedMode
open CS162.Threads (selKcseg selKdseg)

/-- `SEL_UCSEG`. -/
def selUcseg : BitVec 16 := 0x1b#16

/-- `SEL_UDSEG`. -/
def selUdseg : BitVec 16 := 0x23#16

/-- `SEL_TSS`. -/
def selTss : BitVec 16 := 0x28#16

/-- `CLS_CODE_DATA` rather than `CLS_SYSTEM`, and `GRAN_PAGE` rather than
`GRAN_BYTE`. -/
def flag (value : Bool) : DWord := (BitVec.ofBool value).setWidth 32

/-- `make_seg_desc`. -/
def makeSegDesc (base limit : DWord) (codeData : Bool) (type dpl : Int)
    (pageGranularity : Bool) : Option (BitVec 64) :=
  if limit ≤ 0xfffff#32 ∧ (0 ≤ type ∧ type ≤ 15) ∧ 0 ≤ dpl ∧ dpl ≤ 3 then
    let e0 := (limit &&& 0xffff#32) ||| (base <<< 16)
    let e1 := ((base >>> 16) &&& 0xff#32) ||| (BitVec.ofInt 32 type <<< 8) |||
      (flag codeData <<< 12) ||| (BitVec.ofInt 32 dpl <<< 13) ||| (1#32 <<< 15) |||
      (limit &&& 0xf0000#32) ||| (1#32 <<< 22) ||| (flag pageGranularity <<< 23) |||
      (base &&& 0xff000000#32)
    some (e0.setWidth 64 ||| (e1.setWidth 64 <<< 32))
  else none

/-- `make_code_desc`. -/
def makeCodeDesc (dpl : Int) : Option (BitVec 64) := makeSegDesc 0#32 0xfffff#32 true 10 dpl true

/-- `make_data_desc`. -/
def makeDataDesc (dpl : Int) : Option (BitVec 64) := makeSegDesc 0#32 0xfffff#32 true 2 dpl true

/-- `make_tss_desc`. -/
def makeTssDesc (laddr : DWord) : Option (BitVec 64) := makeSegDesc laddr 0x67#32 false 9 0 false

/-- The table after `gdt_init`, where the task-state segment is at an address. -/
def gdtInit (tss : DWord) : Option (List (BitVec 64)) :=
  (makeCodeDesc 0).bind fun kernelCode =>
    (makeDataDesc 0).bind fun kernelData =>
      (makeCodeDesc 3).bind fun userCode =>
        (makeDataDesc 3).bind fun userData =>
          (makeTssDesc tss).map fun task =>
            [0#64, kernelCode, kernelData, userCode, userData, task]

/-! ## The fields of a descriptor -/

section Fields

variable {base limit : DWord} {codeData pageGranularity : Bool}

/-- A small `int` has no bits beyond its field. -/
theorem ofInt_field {value : Int} {bits : Nat} (low : 0 ≤ value)
    (high : value < 2 ^ bits) (fits : bits ≤ 32) :
    BitVec.ofInt 32 value = (BitVec.ofInt bits value).setWidth 32 := by
  obtain ⟨number, rfl⟩ := Int.eq_ofNat_of_zero_le low
  have small : number < 2 ^ bits := by exact_mod_cast high
  have wide : number < 2 ^ 32 := Nat.lt_of_lt_of_le small (Nat.pow_le_pow_right (by decide) fits)
  apply BitVec.eq_of_toNat_eq
  rw [BitVec.ofInt_natCast, BitVec.ofInt_natCast, BitVec.toNat_setWidth,
    BitVec.toNat_ofNat, BitVec.toNat_ofNat, Nat.mod_eq_of_lt small]

/-- The bits that `make_seg_desc` puts together. -/
def segBits (base limit : DWord) (codeData : Bool) (type : BitVec 4) (dpl : BitVec 2)
    (pageGranularity : Bool) : BitVec 64 :=
  ((limit &&& 0xffff#32) ||| (base <<< 16)).setWidth 64 |||
    ((((base >>> 16) &&& 0xff#32) ||| (type.setWidth 32 <<< 8) |||
      (flag codeData <<< 12) ||| (dpl.setWidth 32 <<< 13) ||| (1#32 <<< 15) |||
      (limit &&& 0xf0000#32) ||| (1#32 <<< 22) ||| (flag pageGranularity <<< 23) |||
      (base &&& 0xff000000#32)).setWidth 64 <<< 32)

section Bits

variable (base limit : DWord) (codeData : Bool) (type : BitVec 4) (dpl : BitVec 2)
variable (pageGranularity : Bool)

theorem segBits_low :
    (segBits base limit codeData type dpl pageGranularity).extractLsb' 16 16 =
      base.extractLsb' 0 16 := by
  ext i inside
  interval_cases i <;> simp [segBits, flag]

theorem segBits_middle :
    (segBits base limit codeData type dpl pageGranularity).extractLsb' 32 8 =
      base.extractLsb' 16 8 := by
  ext i inside
  interval_cases i <;> simp [segBits, flag]

theorem segBits_high :
    (segBits base limit codeData type dpl pageGranularity).extractLsb' 56 8 =
      base.extractLsb' 24 8 := by
  ext i inside
  interval_cases i <;> simp [segBits, flag]

theorem segBits_limit :
    (segBits base limit codeData type dpl pageGranularity).extractLsb' 48 4 ++
        (segBits base limit codeData type dpl pageGranularity).extractLsb' 0 16 =
      limit.setWidth 20 := by
  ext i inside
  rw [BitVec.getElem_append]
  interval_cases i <;> simp [segBits, flag]

theorem segBits_type :
    (segBits base limit codeData type dpl pageGranularity).extractLsb' 40 4 =
      type := by
  ext i inside
  interval_cases i <;> simp [segBits, flag]

theorem segBits_dpl :
    (segBits base limit codeData type dpl pageGranularity).extractLsb' 45 2 =
      dpl := by
  ext i inside
  interval_cases i <;> simp [segBits, flag]

theorem base_parts :
    base.extractLsb' 24 8 ++ base.extractLsb' 16 8 ++ base.extractLsb' 0 16 =
      base := by
  ext i inside
  simp only [BitVec.getElem_append]
  interval_cases i <;> simp

/-- All fields are what the arguments say. -/
theorem segBits_fields :
    SegmentDescriptor.ofBits
        (segBits base limit codeData type dpl pageGranularity) =
      { base := base
        limit := limit.setWidth 20
        type := type
        codeOrData := codeData
        dpl := dpl
        present := true
        wide := true
        pages := pageGranularity } := by
  simp only [SegmentDescriptor.ofBits, segBits_low, segBits_middle, segBits_high,
    segBits_limit, segBits_type, segBits_dpl, base_parts,
    SegmentDescriptor.mk.injEq, true_and]
  refine ⟨?_, ?_, ?_, ?_⟩
  · simp [segBits, flag]
  · simp [segBits, flag]
  · simp [segBits, flag]
  · simp [segBits, flag]

end Bits

/-- `make_seg_desc` panics for arguments that do not fit, and the descriptor of the
others says what the arguments say. -/
theorem makeSegDesc_eq (base limit : DWord) (codeData : Bool) (type dpl : Int)
    (pageGranularity : Bool) :
    makeSegDesc base limit codeData type dpl pageGranularity =
      if limit ≤ 0xfffff#32 ∧ (0 ≤ type ∧ type ≤ 15) ∧ 0 ≤ dpl ∧ dpl ≤ 3 then
        some (segBits base limit codeData (BitVec.ofInt 4 type) (BitVec.ofInt 2 dpl)
          pageGranularity)
      else none := by
  rw [makeSegDesc]
  by_cases fits : limit ≤ 0xfffff#32 ∧ (0 ≤ type ∧ type ≤ 15) ∧ 0 ≤ dpl ∧ dpl ≤ 3
  · have typeBits : BitVec.ofInt 32 type = (BitVec.ofInt 4 type).setWidth 32 :=
      ofInt_field fits.2.1.1 (Int.lt_add_one_of_le fits.2.1.2) (by decide)
    have dplBits : BitVec.ofInt 32 dpl = (BitVec.ofInt 2 dpl).setWidth 32 :=
      ofInt_field fits.2.2.1 (Int.lt_add_one_of_le fits.2.2.2) (by decide)
    rw [if_pos fits, if_pos fits, typeBits, dplBits, segBits]
  · rw [if_neg fits, if_neg fits]

end Fields

/-! ## The table -/

/-- A segment that has the whole address space. -/
def flatSegment (type : BitVec 4) (dpl : BitVec 2) : SegmentDescriptor where
  base := 0#32
  limit := 0xfffff#20
  type := type
  codeOrData := true
  dpl := dpl
  present := true
  wide := true
  pages := true

/-- The segments that the selectors of the kernel and of the user stand for. -/
structure GdtSound (gdt : List (BitVec 64)) (tss : DWord) : Prop where
  length : gdt.length = 6
  null : gdt.getD 0 0#64 = 0#64
  kernelCode : segmentOf gdt selKcseg = flatSegment 10#4 0#2
  kernelData : segmentOf gdt selKdseg = flatSegment 2#4 0#2
  userCode : segmentOf gdt selUcseg = flatSegment 10#4 3#2
  userData : segmentOf gdt selUdseg = flatSegment 2#4 3#2
  task : segmentOf gdt selTss =
    { base := tss
      limit := 0x67#20
      type := 9#4
      codeOrData := false
      dpl := 0#2
      present := true
      wide := true
      pages := false }

theorem gdtInit_sound (tss : DWord) : ∃ gdt, gdtInit tss = some gdt ∧ GdtSound gdt tss := by
  refine ⟨[0#64, segBits 0#32 0xfffff#32 true 10#4 0#2 true,
    segBits 0#32 0xfffff#32 true 2#4 0#2 true,
    segBits 0#32 0xfffff#32 true 10#4 3#2 true,
    segBits 0#32 0xfffff#32 true 2#4 3#2 true,
    segBits tss 0x67#32 false 9#4 0#2 false], ?_, ?_⟩
  · simp only [gdtInit, makeCodeDesc, makeDataDesc, makeTssDesc, makeSegDesc_eq]
    rfl
  · exact
      { length := rfl
        null := rfl
        kernelCode := segBits_fields 0#32 0xfffff#32 true 10#4 0#2 true
        kernelData := segBits_fields 0#32 0xfffff#32 true 2#4 0#2 true
        userCode := segBits_fields 0#32 0xfffff#32 true 10#4 3#2 true
        userData := segBits_fields 0#32 0xfffff#32 true 2#4 3#2 true
        task := segBits_fields tss 0x67#32 false 9#4 0#2 false }

section Loads

variable {gdt : List (BitVec 64)} {tss : DWord} {selector : BitVec 16}

theorem selector_index (selector : BitVec 16) : (selector >>> 3).toNat = selector.toNat / 8 := by
  simp [Nat.shiftRight_eq_div_pow]

/-- The segments of code and data. -/
theorem GdtSound.usable_cases (sound : GdtSound gdt tss) (present : usable gdt selector = true) :
    (selector.toNat / 8 = 1 ∧ segmentOf gdt selector = flatSegment 10#4 0#2) ∨
      (selector.toNat / 8 = 2 ∧ segmentOf gdt selector = flatSegment 2#4 0#2) ∨
      (selector.toNat / 8 = 3 ∧ segmentOf gdt selector = flatSegment 10#4 3#2) ∨
      (selector.toNat / 8 = 4 ∧ segmentOf gdt selector = flatSegment 2#4 3#2) := by
  have index : ∀ other : BitVec 16, other.toNat / 8 = selector.toNat / 8 →
      segmentOf gdt selector = segmentOf gdt other := by
    intro other same
    rw [segmentOf, segmentOf, selector_index, selector_index, same]
  simp only [usable, Bool.and_eq_true] at present
  by_cases inside : selector.toNat / 8 < 6
  · interval_cases entry : selector.toNat / 8
    · have nothing := present.1.2
      rw [segmentOf, selector_index, entry, sound.null] at nothing
      cases nothing
    · exact Or.inl ⟨rfl, (index selKcseg rfl).trans sound.kernelCode⟩
    · exact Or.inr (Or.inl ⟨rfl, (index selKdseg rfl).trans sound.kernelData⟩)
    · exact Or.inr (Or.inr (Or.inl ⟨rfl, (index selUcseg rfl).trans sound.userCode⟩))
    · exact Or.inr (Or.inr (Or.inr ⟨rfl, (index selUdseg rfl).trans sound.userData⟩))
    · have system := present.2
      rw [index selTss rfl, sound.task] at system
      cases system
  · have nothing := present.1.2
    rw [segmentOf, selector_index, List.getD_eq_getElem?_getD,
      List.getElem?_eq_none (by rw [sound.length]; omega)] at nothing
    cases nothing

/-- A selector by its parts. -/
theorem selector_eq {other : BitVec 16} (index : selector.toNat / 8 = other.toNat / 8)
    (table : selector.getLsbD 2 = other.getLsbD 2) (level : ring selector = ring other) :
    selector = other := by
  apply BitVec.eq_of_toNat_eq
  have low := congrArg BitVec.toNat level
  simp only [ring, BitVec.toNat_setWidth] at low
  simp only [BitVec.getLsbD, Nat.testBit_eq_decide_div_mod_eq, decide_eq_decide] at table
  omega

/-- The only stack segment for the user is the one of the user. -/
theorem GdtSound.loads_stack (sound : GdtSound gdt tss)
    (loads : loadsStack gdt 3#2 selector = true) : selector = selUdseg := by
  simp only [loadsStack, Bool.and_eq_true, beq_iff_eq, Bool.not_eq_true'] at loads
  obtain ⟨⟨⟨⟨present, data⟩, -⟩, level⟩, dpl⟩ := loads
  have table : selector.getLsbD 2 = false := by
    simp only [usable, Bool.and_eq_true, Bool.not_eq_true'] at present
    exact present.1.1
  rcases sound.usable_cases present with ⟨-, is⟩ | ⟨-, is⟩ | ⟨-, is⟩ | ⟨index, is⟩
  · rw [is] at dpl
    cases dpl
  · rw [is] at dpl
    cases dpl
  · rw [is] at data
    cases data
  · exact selector_eq index table level

/-- The only code segment for the user is the one of the user. -/
theorem GdtSound.loads_code (sound : GdtSound gdt tss) (loads : loadsCode gdt 3#2 selector = true) :
    atLevel selector 3#2 = selUcseg := by
  simp only [loadsCode, Bool.and_eq_true] at loads
  obtain ⟨⟨present, code⟩, level⟩ := loads
  have table : selector.getLsbD 2 = false := by
    simp only [usable, Bool.and_eq_true, Bool.not_eq_true'] at present
    exact present.1.1
  rcases sound.usable_cases present with ⟨-, is⟩ | ⟨-, is⟩ | ⟨index, is⟩ | ⟨-, is⟩
  · rw [is] at level
    cases (Bool.and_eq_true_iff.mp level).2
  · rw [is] at code
    cases code
  · have shifted : selector >>> 2 = 6#16 := by
      apply BitVec.eq_of_toNat_eq
      simp only [BitVec.getLsbD, Nat.testBit_eq_decide_div_mod_eq, decide_eq_false_iff_not]
        at table
      rw [BitVec.toNat_ushiftRight, Nat.shiftRight_eq_div_pow]
      change selector.toNat / 4 = 6
      omega
    rw [atLevel, shifted]
    rfl
  · rw [is] at code
    cases code

/-- What the user has in a data segment register: a null selector, or one of a segment
of the user. -/
theorem GdtSound.loads_data (sound : GdtSound gdt tss) (loads : loadsData gdt 3#2 selector = true) :
    selector >>> 2 = 0#16 ∨ (segmentOf gdt selector).dpl = 3#2 := by
  simp only [loadsData, Bool.or_eq_true, Bool.and_eq_true, beq_iff_eq] at loads
  refine loads.imp_right ?_
  rintro ⟨⟨present, -⟩, level⟩
  rcases sound.usable_cases present with ⟨-, is⟩ | ⟨-, is⟩ | ⟨-, is⟩ | ⟨-, is⟩
  · rw [is] at level
    simp [SegmentDescriptor.conforming, flatSegment, SegmentDescriptor.isCode] at level
  · rw [is] at level
    simp [SegmentDescriptor.conforming, flatSegment, SegmentDescriptor.isCode] at level
  · rw [is]
    rfl
  · rw [is]
    rfl

end Loads

end CS162.Userprog

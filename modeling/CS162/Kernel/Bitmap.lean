import Mathlib.Data.List.Basic
import Mathlib.Order.Bounds.Defs
import Mathlib.Tactic.Basic
import CS162.Foundation.Unsigned

/-!
# Bitmaps

`lib/kernel/bitmap.c`: an array of bits kept in 32-bit elements.  A failed
`ASSERT` is `none`.  The last element may have bits beyond the last one in use;
no operation here looks at them.
-/

namespace CS162.Kernel

open CS162.Foundation

/-- `elem_type`. -/
abbrev Elem := BitVec 32

/-- `ELEM_BITS`. -/
def elemBits : Nat := 32

/-- `elem_idx`. -/
def elemIdx (bitIdx : Nat) : Nat := bitIdx / elemBits

/-- `bit_mask`. -/
def bitMask (bitIdx : Nat) : Elem := 1#32 <<< (bitIdx % elemBits)

/-- `elem_cnt`. -/
def elemCnt (bitCnt : Nat) : Nat := divRoundUp bitCnt elemBits

/-- `byte_cnt`. -/
def byteCnt (bitCnt : Nat) : Nat := 4 * elemCnt bitCnt

/-- `struct bitmap`, with as many elements as its bits need. -/
structure Bitmap where
  bitCnt : Nat
  bits : List Elem
  sized : bits.length = elemCnt bitCnt

namespace Bitmap

/-- The expression `(b->bits[elem_idx (idx)] & bit_mask (idx)) != 0`. -/
def bit (bitmap : Bitmap) (idx : Nat) : Bool :=
  bitmap.bits.getD (elemIdx idx) 0 &&& bitMask idx != 0

/-- `bitmap_mark`. -/
def bitmapMark (bitmap : Bitmap) (bitIdx : Nat) : Bitmap where
  bitCnt := bitmap.bitCnt
  bits := bitmap.bits.modify (elemIdx bitIdx) (· ||| bitMask bitIdx)
  sized := by rw [List.length_modify, bitmap.sized]

/-- `bitmap_reset`. -/
def bitmapReset (bitmap : Bitmap) (bitIdx : Nat) : Bitmap where
  bitCnt := bitmap.bitCnt
  bits := bitmap.bits.modify (elemIdx bitIdx) (· &&& ~~~ bitMask bitIdx)
  sized := by rw [List.length_modify, bitmap.sized]

/-- `bitmap_set`. -/
def bitmapSet (bitmap : Bitmap) (idx : Nat) (value : Bool) : Option Bitmap :=
  if idx < bitmap.bitCnt then
    some (if value then bitmap.bitmapMark idx else bitmap.bitmapReset idx)
  else none

/-- `bitmap_test`. -/
def bitmapTest (bitmap : Bitmap) (idx : Nat) : Option Bool :=
  if idx < bitmap.bitCnt then some (bitmap.bit idx) else none

/-- The assertions that open every operation on a range. -/
def inRange (bitmap : Bitmap) (start cnt : Nat) : Bool :=
  start ≤ bitmap.bitCnt ∧ wrap (start + cnt) ≤ bitmap.bitCnt

/-- The loop of `bitmap_set_multiple` from an index on. -/
def setRun (bitmap : Bitmap) (value : Bool) (idx : Nat) : Nat → Option Bitmap
  | 0 => some bitmap
  | remaining + 1 =>
      (bitmap.bitmapSet (wrap idx) value).bind (·.setRun value (idx + 1) remaining)

/-- `bitmap_set_multiple`. -/
def bitmapSetMultiple (bitmap : Bitmap) (start cnt : Nat) (value : Bool) : Option Bitmap :=
  if bitmap.inRange start cnt then bitmap.setRun value start cnt else none

/-- `bitmap_set_all`. -/
def bitmapSetAll (bitmap : Bitmap) (value : Bool) : Option Bitmap :=
  bitmap.bitmapSetMultiple 0 bitmap.bitCnt value

/-- The loop of `bitmap_contains` from an index on. -/
def containsRun (bitmap : Bitmap) (value : Bool) (idx : Nat) : Nat → Option Bool
  | 0 => some false
  | remaining + 1 =>
      (bitmap.bitmapTest (wrap idx)).bind fun found =>
        if found = value then some true
        else bitmap.containsRun value (idx + 1) remaining

/-- `bitmap_contains`. -/
def bitmapContains (bitmap : Bitmap) (start cnt : Nat) (value : Bool) : Option Bool :=
  if bitmap.inRange start cnt then bitmap.containsRun value start cnt
  else none

/-- `bitmap_all`. -/
def bitmapAll (bitmap : Bitmap) (start cnt : Nat) : Option Bool :=
  (bitmap.bitmapContains start cnt false).map (!·)

/-- The loop of `bitmap_scan` from an index on; `none` inside stands for
`BITMAP_ERROR`. -/
def scanRun (bitmap : Bitmap) (cnt : Nat) (value : Bool) (idx : Nat) : Nat → Option (Option Nat)
  | 0 => some none
  | remaining + 1 =>
      (bitmap.bitmapContains idx cnt (!value)).bind fun other =>
        if other then bitmap.scanRun cnt value (idx + 1) remaining
        else some (some idx)

/-- `bitmap_scan`. -/
def bitmapScan (bitmap : Bitmap) (start cnt : Nat) (value : Bool) : Option (Option Nat) :=
  if start ≤ bitmap.bitCnt then
    if cnt ≤ bitmap.bitCnt then
      bitmap.scanRun cnt value start (bitmap.bitCnt - cnt + 1 - start)
    else some none
  else none

/-- `bitmap_scan_and_flip`. -/
def bitmapScanAndFlip (bitmap : Bitmap) (start cnt : Nat) (value : Bool) :
    Option (Option Nat × Bitmap) :=
  (bitmap.bitmapScan start cnt value).bind fun
    | some idx =>
        (bitmap.bitmapSetMultiple idx cnt (!value)).map (some idx, ·)
    | none => some (none, bitmap)

section SingleBits

variable (bitmap : Bitmap) {idx : Nat}

/-- A bit is the bit of its element at the place within the element. -/
theorem bit_eq_getLsbD (idx : Nat) :
    bitmap.bit idx = (bitmap.bits.getD (elemIdx idx) 0).getLsbD (idx % elemBits) := by
  have place : idx % elemBits < 32 := Nat.mod_lt idx (by decide)
  have masked :
      bitmap.bits.getD (elemIdx idx) 0 &&& bitMask idx =
        if (bitmap.bits.getD (elemIdx idx) 0).getLsbD (idx % elemBits) then
          BitVec.twoPow 32 (idx % elemBits)
        else 0#32 :=
    BitVec.and_twoPow _ _
  unfold bit
  rw [masked]
  cases (bitmap.bits.getD (elemIdx idx) 0).getLsbD (idx % elemBits) with
  | false =>
      rfl
  | true =>
      have set : (BitVec.twoPow 32 (idx % elemBits)).getLsbD
          (idx % elemBits) = true := by
        simp [place]
      rw [if_pos rfl, bne_iff_ne]
      intro zero
      rw [zero] at set
      simp at set

@[simp]
theorem bitmapMark_bitCnt (idx : Nat) : (bitmap.bitmapMark idx).bitCnt = bitmap.bitCnt := rfl

@[simp]
theorem bitmapReset_bitCnt (idx : Nat) : (bitmap.bitmapReset idx).bitCnt = bitmap.bitCnt := rfl

/-- The element of a bit in use exists. -/
theorem elemIdx_lt (inUse : idx < bitmap.bitCnt) : elemIdx idx < bitmap.bits.length := by
  rw [bitmap.sized]
  have enough := le_divRoundUp_mul bitmap.bitCnt (show 0 < elemBits by decide)
  unfold elemIdx elemCnt
  apply Nat.div_lt_of_lt_mul
  rw [Nat.mul_comm]
  omega

/-- Two bits are the same when they agree in element and in place. -/
theorem eq_iff_elemIdx (left right : Nat) :
    left = right ↔ elemIdx left = elemIdx right ∧ left % elemBits = right % elemBits := by
  unfold elemIdx
  constructor
  · rintro rfl
    exact ⟨rfl, rfl⟩
  · rintro ⟨element, place⟩
    have first := Nat.div_add_mod left elemBits
    have second := Nat.div_add_mod right elemBits
    rw [element, place] at first
    exact first.symm.trans second

theorem getD_modify (change : Elem → Elem) {elements : List Elem}
    {index : Nat} (inside : index < elements.length) (other : Nat) :
    (elements.modify index change).getD other 0 =
      if other = index then change (elements.getD index 0)
      else elements.getD other 0 := by
  by_cases same : other = index
  · subst same
    rw [if_pos rfl, List.getD_eq_getElem?_getD, List.getElem?_modify_eq,
      List.getD_eq_getElem?_getD, List.getElem?_eq_getElem inside]
    rfl
  · rw [if_neg same, List.getD_eq_getElem?_getD, List.getElem?_modify_ne _ _ (Ne.symm same),
      List.getD_eq_getElem?_getD]

theorem getLsbD_bitMask (idx other : Nat) :
    (bitMask idx).getLsbD (other % elemBits) = decide (idx % elemBits = other % elemBits) := by
  have place : idx % elemBits < 32 := Nat.mod_lt idx (by decide)
  have shifted := @BitVec.getLsbD_twoPow 32 (idx % elemBits) (other % elemBits)
  rw [decide_eq_true place, Bool.true_and] at shifted
  exact shifted

/-- It is enough that the element of the bit exists. -/
theorem bit_bitmapMark_of_element (stored : elemIdx idx < bitmap.bits.length) (other : Nat) :
    (bitmap.bitmapMark idx).bit other = (decide (other = idx) || bitmap.bit other) := by
  rw [bit_eq_getLsbD, bit_eq_getLsbD, bitmapMark, getD_modify _ stored]
  by_cases element : elemIdx other = elemIdx idx
  · rw [if_pos element, BitVec.getLsbD_or, getLsbD_bitMask, element, Bool.or_comm]
    congr 1
    simp only [eq_iff_elemIdx other idx, element, true_and, eq_comm]
  · have different : other ≠ idx := by
      rintro rfl
      exact element rfl
    rw [if_neg element, decide_eq_false different, Bool.false_or]

theorem bit_bitmapMark (inUse : idx < bitmap.bitCnt) (other : Nat) :
    (bitmap.bitmapMark idx).bit other = (decide (other = idx) || bitmap.bit other) :=
  bitmap.bit_bitmapMark_of_element (bitmap.elemIdx_lt inUse) other

theorem bit_bitmapReset (inUse : idx < bitmap.bitCnt) (other : Nat) :
    (bitmap.bitmapReset idx).bit other = (!decide (other = idx) && bitmap.bit other) := by
  have place : other % elemBits < 32 := Nat.mod_lt other (by decide)
  rw [bit_eq_getLsbD, bit_eq_getLsbD, bitmapReset, getD_modify _ (bitmap.elemIdx_lt inUse)]
  by_cases element : elemIdx other = elemIdx idx
  · rw [if_pos element, BitVec.getLsbD_and, BitVec.getLsbD_not,
      getLsbD_bitMask, decide_eq_true place, Bool.true_and, element,
      Bool.and_comm]
    congr 2
    simp only [eq_iff_elemIdx other idx, element, true_and, eq_comm]
  · have different : other ≠ idx := by
      rintro rfl
      exact element rfl
    rw [if_neg element, decide_eq_false different, Bool.not_false, Bool.true_and]

/-- The bits make up the bitmap. -/
theorem eq_of_bit {other : Bitmap} (sameCnt : bitmap.bitCnt = other.bitCnt)
    (same : ∀ idx, bitmap.bit idx = other.bit idx) : bitmap = other := by
  have length : bitmap.bits.length = other.bits.length := by
    rw [bitmap.sized, other.sized, sameCnt]
  have elements : bitmap.bits = other.bits := by
    apply List.ext_getElem length
    intro i here there
    apply BitVec.eq_of_getLsbD_eq
    intro place inside
    have bits := same (elemBits * i + place)
    have element : elemIdx (elemBits * i + place) = i := by
      unfold elemIdx elemBits
      omega
    have offset : (elemBits * i + place) % elemBits = place := by
      unfold elemBits
      omega
    rw [bit_eq_getLsbD, bit_eq_getLsbD, element, offset,
      List.getD_eq_getElem?_getD, List.getD_eq_getElem?_getD,
      List.getElem?_eq_getElem here, List.getElem?_eq_getElem there] at bits
    exact bits
  cases bitmap
  cases other
  cases sameCnt
  cases elements
  rfl

end SingleBits

section Ranges

/-- A bitmap whose indices fit in `size_t`. -/
def Fits (bitmap : Bitmap) : Prop := bitmap.bitCnt < unsignedModulus

variable {bitmap : Bitmap} {start idx cnt : Nat} {value : Bool}

theorem inRange_of_le (fits : bitmap.Fits) (range : start + cnt ≤ bitmap.bitCnt) :
    bitmap.inRange start cnt = true := by
  have small : start + cnt < unsignedModulus := Nat.lt_of_le_of_lt range fits
  have first : start ≤ bitmap.bitCnt := by omega
  rw [inRange, wrap_of_lt small]
  exact decide_eq_true ⟨first, range⟩

/-- `bitmap_test` reads one bit. -/
theorem bitmapTest_eq (fits : bitmap.Fits) (inUse : idx < bitmap.bitCnt) :
    bitmap.bitmapTest (wrap idx) = some (bitmap.bit idx) := by
  rw [wrap_of_lt (Nat.lt_trans inUse fits), bitmapTest, if_pos inUse]

/-- `bitmap_set` changes one bit. -/
theorem bitmapSet_eq (value : Bool) (fits : bitmap.Fits) (inUse : idx < bitmap.bitCnt) : ∃ after,
      bitmap.bitmapSet (wrap idx) value = some after ∧
      after.bitCnt = bitmap.bitCnt ∧
      ∀ other, after.bit other = if other = idx then value else bitmap.bit other := by
  have small : idx < unsignedModulus := Nat.lt_trans inUse fits
  rw [wrap_of_lt small, bitmapSet, if_pos inUse]
  cases value with
  | true =>
      refine ⟨_, rfl, rfl, fun other => ?_⟩
      rw [if_pos rfl, bit_bitmapMark bitmap inUse]
      by_cases same : other = idx <;> simp [same]
  | false =>
      refine ⟨_, rfl, rfl, fun other => ?_⟩
      rw [if_neg (by decide), bit_bitmapReset bitmap inUse]
      by_cases same : other = idx <;> simp [same]

theorem setRun_eq (fits : bitmap.Fits) (range : idx + cnt ≤ bitmap.bitCnt) : ∃ after,
      bitmap.setRun value idx cnt = some after ∧
      after.bitCnt = bitmap.bitCnt ∧
      ∀ other,
        after.bit other = if idx ≤ other ∧ other < idx + cnt then value
          else bitmap.bit other := by
  induction cnt generalizing bitmap idx with
  | zero =>
      refine ⟨bitmap, rfl, rfl, fun other => ?_⟩
      rw [if_neg (by omega)]
  | succ remaining inductionHypothesis =>
      obtain ⟨middle, set, middleCnt, middleBit⟩ :=
        bitmapSet_eq value fits (show idx < bitmap.bitCnt by omega)
      have middleFits : middle.Fits := by
        unfold Fits
        rw [middleCnt]
        exact fits
      obtain ⟨after, run, afterCnt, afterBit⟩ :=
        inductionHypothesis middleFits (show idx + 1 + remaining ≤ middle.bitCnt by omega)
      refine ⟨after, ?_, afterCnt.trans middleCnt, fun other => ?_⟩
      · rw [setRun, set]
        exact run
      · rw [afterBit, middleBit]
        by_cases first : other = idx
        · rw [if_neg (by omega), if_pos first, if_pos (by omega)]
        · by_cases later : idx + 1 ≤ other ∧ other < idx + 1 + remaining
          · rw [if_pos later, if_pos (by omega)]
          · rw [if_neg later, if_neg first, if_neg (by omega)]

/-- `bitmap_set_multiple` sets the bits of its range and no others. -/
theorem bitmapSetMultiple_eq (value : Bool) (fits : bitmap.Fits)
    (range : start + cnt ≤ bitmap.bitCnt) :
    ∃ after,
      bitmap.bitmapSetMultiple start cnt value = some after ∧
      after.bitCnt = bitmap.bitCnt ∧
      ∀ other,
        after.bit other = if start ≤ other ∧ other < start + cnt then value
          else bitmap.bit other := by
  rw [bitmapSetMultiple, if_pos (inRange_of_le fits range)]
  exact setRun_eq fits range

/-- No operation on a range changes the number of bits. -/
theorem bitCnt_of_bitmapSetMultiple {cnt : Nat} {value : Bool} {after : Bitmap}
    (set : bitmap.bitmapSetMultiple start cnt value = some after) :
    after.bitCnt = bitmap.bitCnt := by
  have run : ∀ remaining idx (before : Bitmap),
        before.setRun value idx remaining = some after →
          after.bitCnt = before.bitCnt := by
    intro remaining
    induction remaining with
    | zero =>
        intro idx before finished
        cases finished
        rfl
    | succ remaining inductionHypothesis =>
        intro idx before moved
        rcases Option.bind_eq_some_iff.mp moved with ⟨next, first, rest⟩
        have same : next.bitCnt = before.bitCnt := by
          unfold bitmapSet at first
          split at first
          · cases first
            split <;> rfl
          · cases first
        exact (inductionHypothesis _ next rest).trans same
  unfold bitmapSetMultiple at set
  split at set
  · exact run _ _ _ set
  · cases set

theorem bitmapSetAll_eq (value : Bool) (fits : bitmap.Fits) : ∃ after,
      bitmap.bitmapSetAll value = some after ∧
      after.bitCnt = bitmap.bitCnt ∧
      ∀ other, after.bit other = if other < bitmap.bitCnt then value else bitmap.bit other := by
  obtain ⟨after, set, cnt, bits⟩ := bitmapSetMultiple_eq value fits (Nat.zero_add bitmap.bitCnt).le
  refine ⟨after, set, cnt, fun other => ?_⟩
  rw [bits]
  simp

theorem containsRun_eq (fits : bitmap.Fits) (range : idx + cnt ≤ bitmap.bitCnt) : ∃ found,
      bitmap.containsRun value idx cnt = some found ∧
      (found = true ↔
        ∃ other, idx ≤ other ∧ other < idx + cnt ∧
          bitmap.bit other = value) := by
  induction cnt generalizing idx with
  | zero =>
      refine ⟨false, rfl, by simp, ?_⟩
      rintro ⟨other, first, last, -⟩
      omega
  | succ remaining inductionHypothesis =>
      have inUse : idx < bitmap.bitCnt := by omega
      have read := bitmapTest_eq fits inUse
      by_cases here : bitmap.bit idx = value
      · refine ⟨true, ?_, fun _ => ⟨idx, le_refl idx, by omega, here⟩, fun _ => rfl⟩
        rw [containsRun, read, Option.bind_some, if_pos here]
      · obtain ⟨found, run, meaning⟩ :=
          inductionHypothesis (show idx + 1 + remaining ≤ bitmap.bitCnt by omega)
        refine ⟨found, ?_, meaning.trans ?_⟩
        · rw [containsRun, read, Option.bind_some, if_neg here]
          exact run
        · constructor
          · rintro ⟨other, first, last, same⟩
            exact ⟨other, by omega, by omega, same⟩
          · rintro ⟨other, first, last, same⟩
            have later : other ≠ idx := by
              rintro rfl
              exact here same
            exact ⟨other, by omega, by omega, same⟩

/-- `bitmap_contains` says whether the range has a bit of the value. -/
theorem bitmapContains_eq (value : Bool) (fits : bitmap.Fits)
    (range : start + cnt ≤ bitmap.bitCnt) :
    ∃ found,
      bitmap.bitmapContains start cnt value = some found ∧
      (found = true ↔
        ∃ other, start ≤ other ∧ other < start + cnt ∧
          bitmap.bit other = value) := by
  rw [bitmapContains, if_pos (inRange_of_le fits range)]
  exact containsRun_eq fits range

theorem bitmapAll_eq (fits : bitmap.Fits) (range : start + cnt ≤ bitmap.bitCnt) : ∃ all,
      bitmap.bitmapAll start cnt = some all ∧
      (all = true ↔
        ∀ other, start ≤ other → other < start + cnt →
          bitmap.bit other = true) := by
  obtain ⟨found, contains, meaning⟩ := bitmapContains_eq false fits range
  refine ⟨!found, by rw [bitmapAll, contains]; rfl, ?_⟩
  cases found with
  | true =>
      obtain ⟨other, first, last, clear⟩ := meaning.mp rfl
      constructor
      · intro impossible
        cases impossible
      · intro all
        rw [all other first last] at clear
        cases clear
  | false =>
      refine ⟨fun _ other first last => ?_, fun _ => rfl⟩
      cases clear : bitmap.bit other with
      | true => rfl
      | false => cases meaning.mpr ⟨other, first, last, clear⟩

/-- The range consists of bits of the value. -/
def Uniform (bitmap : Bitmap) (start cnt : Nat) (value : Bool) : Prop :=
  ∀ other, start ≤ other → other < start + cnt → bitmap.bit other = value

theorem bitmapContains_not_iff (value : Bool) (fits : bitmap.Fits)
    (range : start + cnt ≤ bitmap.bitCnt) :
    ∃ found,
      bitmap.bitmapContains start cnt (!value) = some found ∧
      (found = false ↔ bitmap.Uniform start cnt value) := by
  obtain ⟨found, contains, meaning⟩ := bitmapContains_eq (!value) fits range
  refine ⟨found, contains, ?_⟩
  constructor
  · rintro rfl other first last
    by_contra different
    have opposite : bitmap.bit other = !value := by
      cases bit : bitmap.bit other <;> cases value <;> simp_all
    cases meaning.mpr ⟨other, first, last, opposite⟩
  · intro uniform
    by_contra present
    rw [Bool.not_eq_false] at present
    obtain ⟨other, first, last, opposite⟩ := meaning.mp present
    rw [uniform other first last] at opposite
    cases value <;> cases opposite

theorem scanRun_eq (cnt : Nat) (value : Bool) (fits : bitmap.Fits) (idx remaining : Nat)
    (range : remaining = 0 ∨ idx + remaining - 1 + cnt ≤ bitmap.bitCnt) :
    ∃ result,
      bitmap.scanRun cnt value idx remaining = some result ∧
      match result with
      | some found =>
          idx ≤ found ∧ found < idx + remaining ∧
            bitmap.Uniform found cnt value ∧
            ∀ earlier, idx ≤ earlier → earlier < found →
              ¬ bitmap.Uniform earlier cnt value
      | none =>
          ∀ other, idx ≤ other → other < idx + remaining →
            ¬ bitmap.Uniform other cnt value := by
  induction remaining generalizing idx with
  | zero =>
      refine ⟨none, rfl, ?_⟩
      intro other first last
      omega
  | succ remaining inductionHypothesis =>
      obtain ⟨found, contains, meaning⟩ :=
        bitmapContains_not_iff value fits (show idx + cnt ≤ bitmap.bitCnt by omega)
      cases found with
      | false =>
          refine ⟨some idx, ?_, le_refl idx, by omega, meaning.mp rfl, ?_⟩
          · rw [scanRun, contains]
            rfl
          · intro earlier first last
            omega
      | true =>
          have taken : ¬ bitmap.Uniform idx cnt value := by
            intro uniform
            cases meaning.mpr uniform
          obtain ⟨result, run, outcome⟩ := inductionHypothesis (idx + 1) (by omega)
          refine ⟨result, ?_, ?_⟩
          · rw [scanRun, contains]
            exact run
          · cases result with
            | some found =>
                obtain ⟨first, last, uniform, minimal⟩ := outcome
                refine ⟨by omega, by omega, uniform, ?_⟩
                intro earlier after before
                by_cases same : earlier = idx
                · rw [same]
                  exact taken
                · exact minimal earlier (by omega) before
            | none =>
                intro other after before
                by_cases same : other = idx
                · rw [same]
                  exact taken
                · exact outcome other (by omega) (by omega)

/-- `bitmap_scan` finds the first run of the value, if there is one. -/
theorem bitmapScan_eq (cnt : Nat) (value : Bool) (fits : bitmap.Fits)
    (inUse : start ≤ bitmap.bitCnt) :
    ∃ result,
      bitmap.bitmapScan start cnt value = some result ∧
      match result with
      | some found =>
          start ≤ found ∧ found + cnt ≤ bitmap.bitCnt ∧
            bitmap.Uniform found cnt value ∧
            ∀ earlier, start ≤ earlier → earlier < found →
              ¬ bitmap.Uniform earlier cnt value
      | none =>
          ∀ other, start ≤ other → other + cnt ≤ bitmap.bitCnt →
            ¬ bitmap.Uniform other cnt value := by
  rw [bitmapScan, if_pos inUse]
  by_cases enough : cnt ≤ bitmap.bitCnt
  · rw [if_pos enough]
    obtain ⟨result, run, outcome⟩ :=
      scanRun_eq cnt value fits start (bitmap.bitCnt - cnt + 1 - start) (by omega)
    refine ⟨result, run, ?_⟩
    cases result with
    | some found =>
        obtain ⟨first, last, uniform, minimal⟩ := outcome
        exact ⟨first, by omega, uniform, minimal⟩
    | none =>
        intro other first last
        exact outcome other first (by omega)
  · rw [if_neg enough]
    refine ⟨none, rfl, ?_⟩
    intro other first last
    omega

/-- `bitmap_scan_and_flip` claims the run that the scan found. -/
theorem bitmapScanAndFlip_eq (cnt : Nat) (value : Bool) (fits : bitmap.Fits)
    (inUse : start ≤ bitmap.bitCnt) :
    ∃ result after,
      bitmap.bitmapScanAndFlip start cnt value = some (result, after) ∧
      after.bitCnt = bitmap.bitCnt ∧
      match result with
      | some found =>
          start ≤ found ∧ found + cnt ≤ bitmap.bitCnt ∧
            bitmap.Uniform found cnt value ∧
            (∀ earlier, start ≤ earlier → earlier < found → ¬ bitmap.Uniform earlier cnt value) ∧
            ∀ other,
              after.bit other = if found ≤ other ∧ other < found + cnt then !value
                else bitmap.bit other
      | none =>
          after = bitmap ∧
            ∀ other, start ≤ other → other + cnt ≤ bitmap.bitCnt →
              ¬ bitmap.Uniform other cnt value := by
  obtain ⟨result, scan, outcome⟩ := bitmapScan_eq cnt value fits inUse
  cases result with
  | some found =>
      obtain ⟨first, last, uniform, minimal⟩ := outcome
      obtain ⟨after, set, same, bits⟩ := bitmapSetMultiple_eq (!value) fits last
      refine ⟨some found, after, ?_, same, first, last, uniform, minimal, bits⟩
      simp only [bitmapScanAndFlip, scan, Option.bind_some, set, Option.map_some]
  | none =>
      refine ⟨none, bitmap, ?_, rfl, rfl, outcome⟩
      rw [bitmapScanAndFlip, scan]
      rfl

/-- A group of so many bits of the value, at or after the start. -/
def Group (bitmap : Bitmap) (start cnt : Nat) (value : Bool) (first : Nat) :
    Prop :=
  start ≤ first ∧ first + cnt ≤ bitmap.bitCnt ∧ bitmap.Uniform first cnt value

/-- The number of elements, as `elem_cnt` computes it, does not wrap around. -/
def Stored (bitmap : Bitmap) : Prop := bitmap.bitCnt + (elemBits - 1) < unsignedModulus

instance (bitmap : Bitmap) : Decidable bitmap.Stored := inferInstanceAs (Decidable (_ < _))

/-- `BITMAP_ERROR`. -/
def bitmapError : Nat := unsignedModulus - 1

/-- The number that the scan returns. -/
def returned (result : Option Nat) : Nat := result.getD bitmapError

/-- `bitmap_scan_and_flip` finds the first group and flips its bits and no
others, and it fails, and changes nothing, exactly if there is no group. -/
theorem scan_and_flip_first_group (bitmap : Bitmap) (start cnt : Nat)
    (value : Bool) (stored : bitmap.Stored) (inUse : start ≤ bitmap.bitCnt) :
    ∃ result after,
      bitmap.bitmapScanAndFlip start cnt value = some (result, after) ∧
        after.bitCnt = bitmap.bitCnt ∧
        (returned result = bitmapError ↔ ¬∃ first, bitmap.Group start cnt value first) ∧
        (returned result = bitmapError → after = bitmap) ∧
        ∀ first, IsLeast {first | bitmap.Group start cnt value first} first →
          returned result = first ∧
            ∀ other,
              after.bit other = if first ≤ other ∧ other < first + cnt then !bitmap.bit other
                else bitmap.bit other := by
  have modulus : unsignedModulus = 4294967296 := rfl
  have error : bitmapError = 4294967295 := rfl
  have element : elemBits = 32 := rfl
  unfold Stored at stored
  have fits : bitmap.Fits := by
    unfold Fits
    omega
  rcases bitmapScanAndFlip_eq cnt value fits inUse with ⟨result, after, scanned, sameCnt, outcome⟩
  refine ⟨result, after, scanned, sameCnt, ?_⟩
  cases result with
  | none =>
      rcases outcome with ⟨unchanged, absent⟩
      have none : ¬∃ first, bitmap.Group start cnt value first := by
        intro ⟨first, least, room, uniform⟩
        exact absent first least room uniform
      refine ⟨iff_of_true rfl none, fun _ => unchanged, ?_⟩
      intro first least
      exact absurd ⟨first, least.1⟩ none
  | some found =>
      rcases outcome with ⟨least, room, uniform, minimal, bits⟩
      have group : bitmap.Group start cnt value found := ⟨least, room, uniform⟩
      have value : returned (some found) = found := rfl
      have different : returned (some found) ≠ bitmapError := by omega
      refine ⟨?_, fun same => absurd same different, ?_⟩
      · exact iff_of_false different (not_not_intro ⟨found, group⟩)
      · intro first firstLeast
        have notAfter : first ≤ found := firstLeast.2 group
        have notBefore : ¬first < found := by
          intro before
          exact minimal first firstLeast.1.1 before firstLeast.1.2.2
        have same : found = first := by omega
        subst same
        refine ⟨rfl, ?_⟩
        intro other
        rw [bits other]
        by_cases inside : found ≤ other ∧ other < found + cnt
        · rw [if_pos inside, if_pos inside, uniform other inside.1 inside.2]
        · rw [if_neg inside, if_neg inside]

end Ranges

/-- Forty bits in two elements, the last nine of them set. -/
def fortyBits : Bitmap where
  bitCnt := 40
  bits := [0x80000000#32, 0xff#32]
  sized := by decide

/-- A group of set bits crosses the boundary of the elements, and there is none of
ten bits. -/
theorem scan_and_flip_first_group_forty :
    fortyBits.bitmapScanAndFlip 3 4 true = some (some 31, ⟨40, [0#32, 0xf8#32], by decide⟩) ∧
      ¬∃ first, fortyBits.Group 3 10 true first := by
  have missed : fortyBits.bitmapScanAndFlip 3 10 true = some (none, fortyBits) :=
    by rfl
  rcases scan_and_flip_first_group fortyBits 3 10 true (by decide) (by decide) with
    ⟨result, after, scanned, _, absent, _⟩
  rw [missed, Option.some.injEq, Prod.mk.injEq] at scanned
  exact ⟨by rfl, absent.mp (congrArg returned scanned.1.symm)⟩

end Bitmap

/-- `bitmap_buf_size`; `struct bitmap` is 8 bytes long. -/
def bitmapBufSize (bitCnt : Nat) : Nat := 8 + byteCnt bitCnt

theorem bitmapBufSize_mono {fewer more : Nat} (bound : fewer ≤ more) :
    bitmapBufSize fewer ≤ bitmapBufSize more := by
  have elements : elemCnt fewer ≤ elemCnt more := by
    unfold elemCnt divRoundUp
    apply Nat.div_le_div_right
    omega
  unfold bitmapBufSize byteCnt
  omega

/-- A bitmap over elements with the contents that the memory happens to
have. -/
def rawBitmap (bitCnt : Nat) (memory : Nat → Elem) : Bitmap where
  bitCnt := bitCnt
  bits := (List.range (elemCnt bitCnt)).map memory
  sized := by rw [List.length_map, List.length_range]

/-- `bitmap_create_in_buf`. -/
def bitmapCreateInBuf (bitCnt blockSize : Nat) (memory : Nat → Elem) : Option Bitmap :=
  if bitmapBufSize bitCnt ≤ blockSize then
    (rawBitmap bitCnt memory).bitmapSetAll false
  else none

/-- A bitmap created in a buffer that is large enough is all clear, whatever
the memory held before. -/
theorem bitmapCreateInBuf_eq {bitCnt blockSize : Nat}
    (memory : Nat → Elem) (small : bitCnt < unsignedModulus)
    (room : bitmapBufSize bitCnt ≤ blockSize) :
    ∃ bitmap,
      bitmapCreateInBuf bitCnt blockSize memory = some bitmap ∧
      bitmap.bitCnt = bitCnt ∧
      ∀ idx, idx < bitCnt → bitmap.bit idx = false := by
  have fits : (rawBitmap bitCnt memory).Fits := small
  obtain ⟨bitmap, cleared, sameCnt, bits⟩ := Bitmap.bitmapSetAll_eq false fits
  refine ⟨bitmap, ?_, sameCnt, fun idx inUse => ?_⟩
  · rw [bitmapCreateInBuf, if_pos room]
    exact cleared
  · exact (bits idx).trans (if_pos inUse)

end CS162.Kernel

import CS162.Foundation.Reading
import CS162.Lib.PrintfFormats

/-!
# Strings with a bound

`strnlen` of `lib/string.c` and what `__vprintf` of `lib/stdio.c` does for `%s`, with every
byte that they read of the string.
-/

namespace CS162.Lib

open CS162.Foundation
open CS162.Foundation.Reading

/-- A byte of memory is read. -/
def readByte (memory : Memory) (address : Nat) : Reading Nat UInt8 :=
  load (fun place => memory place) address

/-- The loop of `strnlen`.  The character is looked at before the bound is. -/
def strnlenLoop (memory : Memory) (string maxlen length : Nat) : Reading Nat Nat := do
  let c ← readByte memory (string + length)
  if _more : c ≠ 0 ∧ length < maxlen then
    strnlenLoop memory string maxlen (length + 1)
  else return length
termination_by maxlen - length

/-- `strnlen`, with its reads. -/
def strnlenReading (memory : Memory) (string maxlen : Nat) : Reading Nat Nat :=
  strnlenLoop memory string maxlen 0

/-- `format_string`, with its reads. -/
def formatStringReading (memory : Memory) (string length : Nat) (c : PrintfConversion) :
    Reading Nat (List UInt8) := do
  let characters ← collect (readByte memory) ((List.range length).map (string + ·))
  return formatString characters c

/-- The case `s` of `__vprintf` for a pointer that is not null, with its reads.  A precision
that is absent is -1, which is `SIZE_MAX` as a `size_t`. -/
def convertStringReading (memory : Memory) (c : PrintfConversion) (string : Nat) :
    Reading Nat (List UInt8) := do
  let length ← strnlenReading memory string (c.precision.getD sizeMax)
  formatStringReading memory string length c

/-! ## Buffers -/

/-- An address of a buffer. -/
def InBuffer (start size address : Nat) : Prop := start ≤ address ∧ address < start + size

/-- A null byte is in a buffer. -/
def HasNull (memory : Memory) (start size : Nat) : Prop :=
  ∃ offset < size, memory (start + offset) = 0

@[simp]
theorem value_readByte (memory : Memory) (address : Nat) :
    (readByte memory address).value = memory address := rfl

section Buffers

variable {memory : Memory} {string maxlen length : Nat}

theorem not_hasNull_zero : ¬HasNull memory string 0 := by
  rintro ⟨offset, inside, _⟩
  exact Nat.not_lt_zero offset inside

theorem hasNull_succ :
    HasNull memory string (maxlen + 1) ↔
      memory string = 0 ∨ HasNull memory (string + 1) maxlen := by
  constructor
  · rintro ⟨offset, inside, null⟩
    cases offset with
    | zero => exact Or.inl null
    | succ offset =>
        rw [Nat.add_comm offset, ← Nat.add_assoc] at null
        exact Or.inr ⟨offset, Nat.lt_of_succ_lt_succ inside, null⟩
  · rintro (null | ⟨offset, inside, null⟩)
    · exact ⟨0, Nat.succ_pos maxlen, null⟩
    · rw [Nat.add_assoc, Nat.add_comm 1] at null
      exact ⟨offset + 1, Nat.succ_lt_succ inside, null⟩

theorem strnlen_le (memory : Memory) (string maxlen : Nat) :
    strnlen memory string maxlen ≤ maxlen := by
  induction maxlen generalizing string with
  | zero => exact Nat.le_refl 0
  | succ maxlen inductionHypothesis =>
      rw [strnlen]
      split_ifs
      · exact Nat.zero_le _
      · exact Nat.succ_le_succ (inductionHypothesis (string + 1))

/-- The bound is not reached exactly if there is a null byte in front of it. -/
theorem strnlen_lt_iff : strnlen memory string maxlen < maxlen ↔ HasNull memory string maxlen := by
  induction maxlen generalizing string with
  | zero => exact iff_of_false (Nat.not_lt_zero _) not_hasNull_zero
  | succ maxlen inductionHypothesis =>
      rw [strnlen, hasNull_succ, ← inductionHypothesis]
      by_cases null : memory string = 0
      · rw [if_pos null]
        exact iff_of_true (Nat.succ_pos maxlen) (Or.inl null)
      · rw [if_neg null, or_iff_right null]
        exact Nat.succ_lt_succ_iff

theorem strnlen_of_no_null (noNull : ¬HasNull memory string maxlen) :
    strnlen memory string maxlen = maxlen := by
  have bound := strnlen_le memory string maxlen
  have full := mt strnlen_lt_iff.mp noNull
  omega

/-- Behind the characters in front of it there is a null byte. -/
theorem strnlen_null (hasNull : HasNull memory string maxlen) :
    memory (string + strnlen memory string maxlen) = 0 := by
  induction maxlen generalizing string with
  | zero => exact absurd hasNull not_hasNull_zero
  | succ maxlen inductionHypothesis =>
      rw [strnlen]
      by_cases null : memory string = 0
      · rw [if_pos null]
        exact null
      · have later := (hasNull_succ.mp hasNull).resolve_left null
        rw [if_neg null, Nat.add_comm (strnlen _ _ _), ← Nat.add_assoc]
        exact inductionHypothesis later

/-- Behind a null byte the bound does not matter. -/
theorem strnlen_of_hasNull {size : Nat} (hasNull : HasNull memory string size)
    (fits : size ≤ maxlen) : strnlen memory string maxlen = strnlen memory string size := by
  induction size generalizing string maxlen with
  | zero => exact absurd hasNull not_hasNull_zero
  | succ size inductionHypothesis =>
      cases maxlen with
      | zero => exact absurd fits (Nat.not_succ_le_zero size)
      | succ maxlen =>
          rw [strnlen, strnlen]
          by_cases null : memory string = 0
          · rw [if_pos null, if_pos null]
          · have later := (hasNull_succ.mp hasNull).resolve_left null
            rw [if_neg null, if_neg null, inductionHypothesis later (Nat.le_of_succ_le_succ fits)]

/-- `strnlen` reads all characters that it counts, and the one behind them. -/
theorem strnlenLoop_eq {left : Nat} (more : length + left = maxlen) :
    strnlenLoop memory string maxlen length = ⟨length + strnlen memory (string + length) left,
        List.range' (string + length) (strnlen memory (string + length) left + 1)⟩ := by
  induction left generalizing length with
  | zero =>
      have done : ¬(memory (string + length) ≠ 0 ∧ length < maxlen) := by
        rintro ⟨_, inside⟩
        omega
      rw [strnlenLoop]
      apply Reading.ext
      · rw [value_bind, value_readByte, dif_neg done]
        rfl
      · rw [reads_bind, value_readByte, dif_neg done]
        rfl
  | succ left inductionHypothesis =>
      have later := @inductionHypothesis (length + 1) (by omega)
      rw [strnlenLoop, strnlen]
      by_cases null : memory (string + length) = 0
      · have done : ¬(memory (string + length) ≠ 0 ∧ length < maxlen) :=
          fun both => both.1 null
        apply Reading.ext
        · rw [value_bind, value_readByte, dif_neg done, if_pos null]
          rfl
        · rw [reads_bind, value_readByte, dif_neg done, if_pos null]
          rfl
      · have going : memory (string + length) ≠ 0 ∧ length < maxlen := ⟨null, by omega⟩
        apply Reading.ext
        · rw [value_bind, value_readByte, dif_pos going, if_neg null, later]
          change length + 1 + _ = length + (_ + 1)
          rw [Nat.add_assoc, Nat.add_assoc, Nat.add_comm 1]
        · rw [reads_bind, value_readByte, dif_pos going, if_neg null, later, List.range'_succ]
          rfl

theorem strnlenReading_eq (memory : Memory) (string maxlen : Nat) :
    strnlenReading memory string maxlen = ⟨strnlen memory string maxlen,
        List.range' string (strnlen memory string maxlen + 1)⟩ := by
  rw [strnlenReading, strnlenLoop_eq (Nat.zero_add maxlen), Nat.zero_add]
  rfl

theorem inBuffer_range' {start count size : Nat} :
    (∀ address ∈ List.range' start count, InBuffer start size address) ↔ count ≤ size := by
  constructor
  · intro inside
    by_contra long
    have last := inside (start + size) (List.mem_range'_1.mpr ⟨by omega, by omega⟩)
    exact absurd last.2 (Nat.lt_irrefl _)
  · intro fits address member
    rcases List.mem_range'_1.mp member with ⟨lower, upper⟩
    exact ⟨lower, by omega⟩

/-- `strnlen` stays in a buffer exactly if there is a null byte in it. -/
theorem strnlenReading_within_iff :
    (strnlenReading memory string maxlen).Within (InBuffer string maxlen) ↔
      HasNull memory string maxlen := by
  rw [strnlenReading_eq, Within, inBuffer_range', Nat.succ_le_iff]
  exact strnlen_lt_iff

theorem value_formatStringReading (memory : Memory) (string length : Nat) (c : PrintfConversion) :
    (formatStringReading memory string length c).value =
      formatString (readBytes memory string length) c := by
  rw [formatStringReading, value_bind, value_collect, List.map_map]
  rfl

theorem formatStringReading_within {allowed : Nat → Prop} {c : PrintfConversion} :
    (formatStringReading memory string length c).Within allowed ↔
      ∀ offset < length, allowed (string + offset) := by
  rw [formatStringReading, within_bind, and_iff_left (within_pure _), within_collect,
    List.forall_mem_map]
  constructor
  · intro inside offset bound
    exact within_load.mp (inside offset (List.mem_range.mpr bound))
  · intro inside offset member
    exact within_load.mpr (inside offset (List.mem_range.mp member))

/-- What the conversion outputs is what `convert` does. -/
theorem value_convertStringReading (memory : Memory) (c : PrintfConversion)
    {string : BitVec 32} (notNull : string ≠ 0#32) :
    (convertStringReading memory c string.toNat).value =
      formatString (stringArgument memory c string) c := by
  rw [convertStringReading, value_bind, value_formatStringReading, strnlenReading_eq,
    stringArgument, if_neg notNull]

/-- With a precision, the conversion stays in a buffer of that size exactly if there is a
null byte in it. -/
theorem convertStringReading_within_iff {c : PrintfConversion} {precision : Nat}
    (given : c.precision = some precision) :
    (convertStringReading memory c string).Within (InBuffer string precision) ↔
      HasNull memory string precision := by
  rw [convertStringReading, within_bind, given, Option.getD_some, strnlenReading_within_iff,
    formatStringReading_within, strnlenReading_eq]
  refine and_iff_left ?_
  intro offset inside
  have bound := strnlen_le memory string precision
  exact ⟨Nat.le_add_right _ _, Nat.add_lt_add_left (Nat.lt_of_lt_of_le inside bound) _⟩

/-- Without one, it stays in every buffer that has a null byte. -/
theorem convertStringReading_within {c : PrintfConversion} {size : Nat}
    (hasNull : HasNull memory string size) (fits : size ≤ c.precision.getD sizeMax) :
    (convertStringReading memory c string).Within (InBuffer string size) := by
  have short := strnlen_lt_iff.mpr hasNull
  have same := strnlen_of_hasNull hasNull fits
  rw [convertStringReading, within_bind, formatStringReading_within, strnlenReading_eq, same]
  refine ⟨inBuffer_range'.mpr short, ?_⟩
  intro offset inside
  exact ⟨Nat.le_add_right _ _, Nat.add_lt_add_left (Nat.lt_trans inside short) _⟩

end Buffers

/-! ## `%.*s` -/

section Precise

variable {memory : Memory} {precision string : BitVec 32} {rest : List UInt8}
  {args : List (BitVec 32)}

/-- `parse_conversion` finds the precision in the arguments. -/
theorem parse_preciseString (positive : 0 ≤ precision.toInt) :
    parseConversion (46 :: 42 :: 115 :: rest) (precision :: string :: args) =
      .ok ⟨{ precision := some precision.toInt.toNat }, .int, 115 :: rest, string :: args⟩ := by
  have notNegative : ¬precision.toInt < 0 := Int.not_lt.mpr positive
  have field : parsePrecision {} (46 :: 42 :: 115 :: rest) (precision :: string :: args) =
      .ok ({ precision := some precision.toInt.toNat }, 115 :: rest, string :: args) := by
    rw [parsePrecision, if_neg (List.cons_ne_nil _ _), if_pos List.head?_cons]
    change (if precision.toInt < 0 then _ else _) = _
    rw [if_neg notNegative]
    rfl
  change (parsePrecision {} (46 :: 42 :: 115 :: rest) (precision :: string :: args) >>= _) = _
  rw [field]
  rfl

theorem toNat_of_positive (positive : 0 ≤ precision.toInt) :
    precision.toInt.toNat = precision.toNat ∧ precision.toNat < 2 ^ 31 := by
  have bound := precision.isLt
  rw [BitVec.toInt_eq_toNat_cond] at positive ⊢
  split_ifs at positive ⊢ <;> omega

/-- Without a width there are no blanks. -/
theorem formatString_unpadded {c : PrintfConversion} (noWidth : c.width = 0)
    (text : List UInt8) : formatString text c = text := by
  have fits : ¬text.length < c.width := by
    rw [noWidth]
    exact Nat.not_lt_zero _
  simp [formatString, fits]

theorem stringArgument_precise (positive : 0 ≤ precision.toInt) (notNull : string ≠ 0#32) :
    stringArgument memory { precision := some precision.toInt.toNat } string =
      readBytes memory string.toNat (strnlen memory string.toNat precision.toNat) := by
  rw [stringArgument, if_neg notNull, (toNat_of_positive positive).1]
  rfl

/-- The conversion outputs the string up to the precision, and the loop goes on behind
it. -/
theorem vprintf_preciseString (positive : 0 ≤ precision.toInt) (notNull : string ≠ 0#32) :
    vprintf memory (37 :: 46 :: 42 :: 115 :: rest) (precision :: string :: args) =
      (vprintf memory rest args).map
        (readBytes memory string.toNat
          (strnlen memory string.toNat precision.toNat) ++ ·) := by
  have small := (toNat_of_positive positive).2
  have parsed := @parse_preciseString precision string rest args positive
  have bound := strnlen_le memory string.toNat precision.toNat
  have text := @stringArgument_precise memory precision string positive notNull
  have converted : convert memory { precision := some precision.toInt.toNat } .int 115
      (string :: args) =
        .ok (readBytes memory string.toNat
          (strnlen memory string.toNat precision.toNat), args) := by
    have short : ¬2 ^ 31 ≤ (readBytes memory string.toNat
        (strnlen memory string.toNat precision.toNat)).length := by
      rw [length_readBytes]
      omega
    change (if 2 ^ 31 ≤ (stringArgument memory _ string).length then _ else _) = _
    rw [text, if_neg short, formatString_unpadded rfl]
    rfl
  have noPercent : (46 :: 42 :: 115 :: rest).head? ≠ some 37 := by
    rw [List.head?_cons]
    decide
  rw [vprintf_eq_formatLoop, vprintf_eq_formatLoop,
    formatLoop_conversion noPercent parsed, converted]
  rfl

end Precise

end CS162.Lib

import Mathlib.Data.Nat.Digits.Defs
import Mathlib.Data.Nat.Digits.Lemmas
import CS162.Foundation.Memory

/-!
# Integer conversions of `printf`

`format_integer` of `lib/stdio.c`, and the bytes that `snprintf` and `strlcpy`
leave in an array.
-/

namespace CS162.Lib

open CS162.Foundation

/-- The flags, the width and the precision of `struct printf_conversion`. -/
structure PrintfConversion where
  minus : Bool := false
  plus : Bool := false
  space : Bool := false
  pound : Bool := false
  zero : Bool := false
  group : Bool := false
  width : Nat := 0
  precision : Option Nat := none

/-- `struct integer_base`. -/
structure IntegerBase where
  base : Nat
  digits : List UInt8
  x : Option UInt8
  group : Nat

/-- `base_o`. -/
def baseO : IntegerBase where
  base := 8
  digits := [48, 49, 50, 51, 52, 53, 54, 55]
  x := none
  group := 3

/-- The loop that accumulates the digits, the last one first, where `cnt` have
been accumulated. -/
def accumulate (b : IntegerBase) (group : Bool) : List Nat → Nat → List UInt8
  | [], _ => []
  | digit :: rest, cnt =>
      let comma := if group && (0 < cnt && cnt % b.group = 0) then [44] else []
      comma ++ b.digits.getD digit 0 :: accumulate b group rest (cnt + 1)

/-- `format_integer`: the characters that are output. -/
def formatInteger (value : Nat) (isSigned negative : Bool) (b : IntegerBase)
    (c : PrintfConversion) : List UInt8 :=
  let sign : List UInt8 :=
    if !isSigned then []
    else if c.plus then [if negative then 45 else 43]
    else if c.space then [if negative then 45 else 32]
    else if negative then [45]
    else []
  let x : List UInt8 :=
    if c.pound && 0 < value then (b.x.map fun x => [48, x]).getD [] else []
  let digits := accumulate b c.group (Nat.digits b.base value) 0
  -- at most 63 characters while zeros are appended
  let precise := digits ++ List.replicate (min (c.precision.getD 1) 63 - digits.length) 48
  let cells :=
    if c.pound && (b.base = 8 && precise.getLast? ≠ some 48) then
      precise ++ [48]
    else precise
  let padCnt := c.width - cells.length - x.length - sign.length
  (if !c.minus && !c.zero then List.replicate padCnt 32 else []) ++ sign ++ x ++
    (if c.zero then List.replicate padCnt 48 else []) ++ cells.reverse ++
      (if c.minus then List.replicate padCnt 32 else [])

/-! ## Octal numbers with leading zeros -/

/-- The number that digits stand for, the first one first. -/
def horner (base value : Nat) : List Nat → Nat
  | [] => value
  | digit :: rest => horner base (value * base + digit) rest

theorem horner_append (base value : Nat) (front back : List Nat) :
    horner base value (front ++ back) = horner base (horner base value front) back := by
  induction front generalizing value with
  | nil => rfl
  | cons digit front inductionHypothesis =>
      exact inductionHypothesis (value * base + digit)

theorem horner_reverse (base : Nat) (digits : List Nat) :
    horner base 0 digits.reverse = Nat.ofDigits base digits := by
  induction digits with
  | nil => rfl
  | cons digit rest inductionHypothesis =>
      rw [List.reverse_cons, horner_append, inductionHypothesis, Nat.ofDigits_cons]
      change Nat.ofDigits base rest * base + digit = digit + base * Nat.ofDigits base rest
      ring

theorem horner_zeros (base count : Nat) : horner base 0 (List.replicate count 0) = 0 := by
  induction count with
  | zero => rfl
  | succ count inductionHypothesis =>
      rw [List.replicate_succ, horner, Nat.zero_mul, Nat.zero_add]
      exact inductionHypothesis

theorem le_horner {base : Nat} (positive : 0 < base) (value : Nat)
    (digits : List Nat) : value ≤ horner base value digits := by
  induction digits generalizing value with
  | nil => exact Nat.le_refl value
  | cons digit rest inductionHypothesis =>
      have grown := Nat.le_mul_of_pos_right value positive
      exact Nat.le_trans (by omega) (inductionHypothesis (value * base + digit))

/-- The digits that `%0<width>o` prints. -/
def paddedOctal (width value : Nat) : List Nat :=
  let cells := if value = 0 then [0] else Nat.digits 8 value
  List.replicate (width - cells.length) 0 ++ cells.reverse

def octalChar (digit : Nat) : UInt8 := baseO.digits.getD digit 0

theorem accumulate_plain (b : IntegerBase) (digits : List Nat) (cnt : Nat) :
    accumulate b false digits cnt = digits.map fun digit => b.digits.getD digit 0 := by
  induction digits generalizing cnt with
  | nil => rfl
  | cons digit rest inductionHypothesis =>
      rw [accumulate, inductionHypothesis]
      rfl

/-- `%0<width>o`. -/
theorem formatInteger_octal (width value : Nat) :
    formatInteger value false false baseO { zero := true, width := width } =
      (paddedOctal width value).map octalChar := by
  have cells : (Nat.digits 8 value).map octalChar ++
      List.replicate (1 - ((Nat.digits 8 value).map octalChar).length) 48 =
        (if value = 0 then [0] else Nat.digits 8 value).map octalChar := by
    by_cases zero : value = 0
    · subst zero
      rfl
    · have some : Nat.digits 8 value ≠ [] := Nat.digits_ne_nil_iff_ne_zero.mpr zero
      have length := List.length_pos_iff.mpr some
      rw [if_neg zero, List.length_map, Nat.sub_eq_zero_of_le length]
      exact List.append_nil _
  have digits : accumulate baseO false (Nat.digits 8 value) 0 =
      (Nat.digits 8 value).map octalChar :=
    accumulate_plain baseO (Nat.digits 8 value) 0
  change [] ++ [] ++ [] ++
    List.replicate (width - (accumulate baseO false (Nat.digits 8 value) 0 ++
      List.replicate (1 - (accumulate baseO false (Nat.digits 8 value)
        0).length) 48).length - 0 - 0) 48 ++
    (accumulate baseO false (Nat.digits 8 value) 0 ++
      List.replicate (1 - (accumulate baseO false (Nat.digits 8 value)
        0).length) 48).reverse ++ [] = _
  rw [digits, cells, paddedOctal, List.map_append, List.map_replicate,
    List.map_reverse, List.length_map]
  simp only [List.nil_append, List.append_nil, Nat.sub_zero]
  rfl

theorem paddedOctal_value (width value : Nat) : horner 8 0 (paddedOctal width value) = value := by
  rw [paddedOctal, horner_append, horner_zeros, horner_reverse]
  by_cases zero : value = 0
  · subst zero
    rfl
  · rw [if_neg zero, Nat.ofDigits_digits]

theorem paddedOctal_lt (width value : Nat) : ∀ digit ∈ paddedOctal width value, digit < 8 := by
  intro digit member
  rw [paddedOctal, List.mem_append, List.mem_reverse] at member
  rcases member with padding | cell
  · rw [List.eq_of_mem_replicate padding]
    decide
  · by_cases zero : value = 0
    · rw [if_pos zero, List.mem_singleton] at cell
      rw [cell]
      decide
    · rw [if_neg zero] at cell
      exact Nat.digits_lt_base (by decide) cell

/-- A number with at most as many digits as the width fills it. -/
theorem paddedOctal_length {width value : Nat} (positive : 0 < width)
    (small : value < 8 ^ width) : (paddedOctal width value).length = width := by
  have fits : (if value = 0 then [0] else Nat.digits 8 value).length ≤ width := by
    by_cases zero : value = 0
    · rw [if_pos zero]
      exact positive
    · rw [if_neg zero]
      exact (Nat.digits_length_le_iff (by decide) value).mpr small
  rw [paddedOctal, List.length_append, List.length_replicate, List.length_reverse]
  omega

/-! ## Strings in arrays -/

/-- The memory after bytes have been written to it. -/
def writeBytes (memory : Memory) (start : Nat) (bytes : List UInt8) : Memory :=
  fun place =>
    if start ≤ place ∧ place < start + bytes.length then
      bytes.getD (place - start) 0
    else memory place

/-- Some bytes of memory. -/
def readBytes (memory : Memory) (start count : Nat) : List UInt8 :=
  (List.range count).map fun offset => memory (start + offset)

/-- `strlcpy`, or `snprintf` with the characters that it formats: as many bytes as
there is room for, and a null byte. -/
def strlcpy (memory : Memory) (dst : Nat) (src : List UInt8) (size : Nat) :
    Memory :=
  if size = 0 then memory
  else writeBytes memory dst (src.take (size - 1) ++ [0])

/-- The string at an address, in an array that has a null byte. -/
def cString (memory : Memory) (start size : Nat) : List UInt8 :=
  (readBytes memory start size).takeWhile (· ≠ 0)

section Arrays

variable {memory other : Memory} {start count : Nat} {bytes : List UInt8}

theorem writeBytes_outside {place : Nat} (outside : place < start ∨ start + bytes.length ≤ place) :
    writeBytes memory start bytes place = memory place := by
  rw [writeBytes, if_neg (by omega)]

theorem writeBytes_inside {offset : Nat} (inside : offset < bytes.length) :
    writeBytes memory start bytes (start + offset) = bytes.getD offset 0 := by
  rw [writeBytes, if_pos (by omega), Nat.add_sub_cancel_left]

theorem readBytes_congr
    (same : ∀ offset, offset < count → memory (start + offset) = other (start + offset)) :
    readBytes memory start count = readBytes other start count := by
  apply List.map_congr_left
  intro offset inside
  exact same offset (List.mem_range.mp inside)

theorem length_readBytes (memory : Memory) (start count : Nat) :
    (readBytes memory start count).length = count := by
  rw [readBytes, List.length_map, List.length_range]

theorem getElem_readBytes {index : Nat} (inside : index < (readBytes memory start count).length) :
    (readBytes memory start count)[index] = memory (start + index) := by
  simp only [readBytes, List.getElem_map, List.getElem_range]

theorem readBytes_append (memory : Memory) (start first second : Nat) :
    readBytes memory start (first + second) =
      readBytes memory start first ++ readBytes memory (start + first) second := by
  rw [readBytes, List.range_add, List.map_append, List.map_map]
  congr 1
  apply List.map_congr_left
  intro offset _
  change memory (start + (first + offset)) = memory (start + first + offset)
  rw [Nat.add_assoc]

theorem readBytes_drop (memory : Memory) (first start count : Nat) :
    readBytes (memory.drop first) start count = readBytes memory (first + start) count := by
  apply List.map_congr_left
  intro offset _
  rw [Memory.drop, Nat.add_assoc]

theorem readBytes_succ (memory : Memory) (start count : Nat) :
    readBytes memory start (count + 1) = memory start :: readBytes memory (start + 1) count := by
  rw [readBytes, List.range_succ_eq_map, List.map_cons, List.map_map]
  congr 1
  apply List.map_congr_left
  intro offset _
  change memory (start + (offset + 1)) = memory (start + 1 + offset)
  congr 1
  omega

theorem mem_readBytes {place : Nat} (lower : start ≤ place) (upper : place < start + count) :
    memory place ∈ readBytes memory start count := by
  apply List.mem_map.mpr
  refine ⟨place - start, List.mem_range.mpr (by omega), ?_⟩
  rw [Nat.add_sub_cancel' lower]

theorem readBytes_writeBytes :
    readBytes (writeBytes memory start bytes) start bytes.length = bytes := by
  apply List.ext_getElem
  · exact length_readBytes _ _ _
  · intro index first second
    rw [getElem_readBytes, writeBytes_inside second, ← List.getElem_eq_getD]

theorem readBytes_outside {from' size : Nat}
    (apart : from' + size ≤ start ∨ start + bytes.length ≤ from') :
    readBytes (writeBytes memory start bytes) from' size = readBytes memory from' size := by
  apply readBytes_congr
  intro offset inside
  apply writeBytes_outside
  omega

/-- The bytes of a buffer where it has been copied to. -/
theorem readBytes_splice (memory buffer : Memory) (start count : Nat) :
    readBytes (memory.splice start count buffer) start count = readBytes buffer 0 count := by
  apply List.map_congr_left
  intro offset inside
  rw [Nat.zero_add]
  exact Memory.splice_apply_add (List.mem_range.mp inside)

theorem readBytes_splice_apart {buffer : Memory} {from' size : Nat}
    (apart : Apart from' (from' + size) start (start + count)) :
    readBytes (memory.splice start count buffer) from' size = readBytes memory from' size := by
  apply readBytes_congr
  intro offset inside
  exact Memory.splice_agreeOn apart _ (Nat.le_add_right _ _) (Nat.add_lt_add_left inside _)

theorem strlcpy_eq {size : Nat} (room : bytes.length < size) :
    strlcpy memory start bytes size = writeBytes memory start (bytes ++ [0]) := by
  rw [strlcpy, if_neg (by omega), List.take_of_length_le (by omega)]

end Arrays

end CS162.Lib

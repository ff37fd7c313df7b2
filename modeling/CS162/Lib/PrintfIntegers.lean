import Mathlib.Data.BitVec
import CS162.Lib.Printf

/-!
# Integer conversions against the standard

What the standard asks of an integer conversion, and that `__vprintf` outputs it.
-/

namespace CS162.Lib

open CS162.Foundation

/-! ## Numerals -/

/-- A numeral with a comma before each group of that many digits, counted from its
last digit. -/
def grouped (size : Nat) : List UInt8 → List UInt8
  | [] => []
  | digit :: rest =>
      if rest ≠ [] ∧ rest.length % size = 0 then digit :: 44 :: grouped size rest
      else digit :: grouped size rest

section Accumulating

variable {b : IntegerBase} {group : Bool}

/-- The comma that precedes a digit in the buffer. -/
def commaAt (b : IntegerBase) (group : Bool) (cnt : Nat) : List UInt8 :=
  if group && (0 < cnt && cnt % b.group = 0) then [44] else []

theorem accumulate_append (front back : List Nat) (cnt : Nat) :
    accumulate b group (front ++ back) cnt =
      accumulate b group front cnt ++
        accumulate b group back (cnt + front.length) := by
  induction front generalizing cnt with
  | nil => rfl
  | cons digit front inductionHypothesis =>
      have shifted : cnt + (digit :: front).length = cnt + 1 + front.length := by
        rw [List.length_cons]
        omega
      rw [List.cons_append, accumulate, inductionHypothesis, accumulate, shifted]
      simp only [List.append_assoc, List.cons_append]

/-- Each digit takes at most two bytes of the buffer. -/
theorem length_accumulate_le (digits : List Nat) (cnt : Nat) :
    (accumulate b group digits cnt).length ≤ 2 * digits.length := by
  induction digits generalizing cnt with
  | nil => exact Nat.le_refl 0
  | cons digit rest inductionHypothesis =>
      have comma : (commaAt b group cnt).length ≤ 1 := by
        unfold commaAt
        split_ifs <;> decide
      have shorter := inductionHypothesis (cnt + 1)
      have length : (accumulate b group (digit :: rest) cnt).length =
          (commaAt b group cnt).length +
            ((accumulate b group rest (cnt + 1)).length + 1) := by
        rw [accumulate, List.length_append]
        rfl
      rw [length, List.length_cons]
      omega

/-- The digits that are accumulated, read backwards, are grouped from the last one
on. -/
theorem accumulate_grouped (digits : List Nat) :
    (accumulate b true digits 0).reverse =
      grouped b.group (digits.map fun digit => b.digits.getD digit 0).reverse := by
  induction digits using List.reverseRecOn with
  | nil => rfl
  | append_singleton digits digit inductionHypothesis =>
      rw [accumulate_append, List.reverse_append, inductionHypothesis,
        List.map_append, List.reverse_append, List.map_singleton,
        List.reverse_singleton, List.singleton_append, grouped,
        List.length_reverse, List.length_map, Nat.zero_add]
      have occupied : (digits.map fun digit => b.digits.getD digit 0).reverse ≠ [] ↔
          0 < digits.length := by
        rw [ne_eq, List.reverse_eq_nil_iff, List.map_eq_nil_iff, List.length_pos_iff]
      by_cases comma : 0 < digits.length ∧ digits.length % b.group = 0
      · rw [if_pos ⟨occupied.mpr comma.1, comma.2⟩]
        simp [accumulate, comma]
      · rw [if_neg fun both => comma ⟨occupied.mp both.1, both.2⟩]
        simp [accumulate, comma]

end Accumulating

/-! ## The parts of the output -/

/-- The sign character of `format_integer`. -/
def signChars (isSigned negative : Bool) (c : PrintfConversion) : List UInt8 :=
  if !isSigned then []
  else if c.plus then [if negative then 45 else 43]
  else if c.space then [if negative then 45 else 32]
  else if negative then [45]
  else []

/-- The `0x` of `format_integer`. -/
def prefixChars (value : Nat) (b : IntegerBase) (c : PrintfConversion) : List UInt8 :=
  if c.pound && 0 < value then (b.x.map fun x => [48, x]).getD [] else []

/-- The bytes of `buf` up to `cp` once all of them have been written. -/
def digitBuffer (value : Nat) (b : IntegerBase) (c : PrintfConversion) : List UInt8 :=
  let digits := accumulate b c.group (Nat.digits b.base value) 0
  let precise := digits ++ List.replicate (min (c.precision.getD 1) 63 - digits.length) 48
  if c.pound && (b.base = 8 && precise.getLast? ≠ some 48) then precise ++ [48]
  else precise

section Buffer

variable {value : Nat} {b : IntegerBase} {c : PrintfConversion}

theorem formatInteger_eq (isSigned negative : Bool) :
    formatInteger value isSigned negative b c =
      (if !c.minus && !c.zero then
        List.replicate (c.width - (digitBuffer value b c).length -
          (prefixChars value b c).length - (signChars isSigned negative c).length) 32
      else []) ++ signChars isSigned negative c ++ prefixChars value b c ++
      (if c.zero then
        List.replicate (c.width - (digitBuffer value b c).length -
          (prefixChars value b c).length - (signChars isSigned negative c).length) 48
      else []) ++ (digitBuffer value b c).reverse ++
      (if c.minus then
        List.replicate (c.width - (digitBuffer value b c).length -
          (prefixChars value b c).length - (signChars isSigned negative c).length) 32
      else []) :=
  rfl

/-- No precision lets the digits leave the buffer. -/
theorem length_digitBuffer_le (less : value < 2 ^ 64) (base : 8 ≤ b.base)
    (c : PrintfConversion) : (digitBuffer value b c).length ≤ 64 := by
  have digits : (Nat.digits b.base value).length ≤ 22 := by
    apply (Nat.digits_length_le_iff (by omega) value).mpr
    calc value
      _ < 2 ^ 64 := less
      _ ≤ 8 ^ 22 := by decide
      _ ≤ b.base ^ 22 := Nat.pow_le_pow_left base 22
  have cells := @length_accumulate_le b c.group (Nat.digits b.base value) 0
  rw [digitBuffer]
  split_ifs
  · rw [List.length_append, List.length_append, List.length_replicate, List.length_singleton]
    omega
  · rw [List.length_append, List.length_replicate]
    omega

end Buffer

/-! ## What the standard asks -/

/-- The integer conversions. -/
inductive Specifier where
  | d
  | i
  | o
  | u
  | x
  | upperX
  deriving DecidableEq, Repr

namespace Specifier

def char : Specifier → UInt8
  | .d => 100
  | .i => 105
  | .o => 111
  | .u => 117
  | .x => 120
  | .upperX => 88

def isSigned : Specifier → Bool
  | .d => true
  | .i => true
  | _ => false

def radix : Specifier → Nat
  | .o => 8
  | .x => 16
  | .upperX => 16
  | _ => 10

def groupSize : Specifier → Nat
  | .x => 4
  | .upperX => 4
  | _ => 3

/-- The character of a digit, which is a letter from ten on. -/
def digit (specifier : Specifier) (digit : Nat) : UInt8 :=
  if digit < 10 then UInt8.ofNat (48 + digit)
  else UInt8.ofNat ((if specifier = .upperX then 65 else 97) + (digit - 10))

/-- `0x` or `0X`. -/
def hexPrefix : Specifier → List UInt8
  | .x => [48, 120]
  | .upperX => [48, 88]
  | _ => []

end Specifier

namespace ArgumentType

/-- How many bits of a value the type has. -/
def bits : ArgumentType → Nat
  | .char => 8
  | .short => 16
  | .intmax => 64
  | .longLong => 64
  | _ => 32

/-- The length modifier. -/
def text : ArgumentType → List UInt8
  | .char => [104, 104]
  | .short => [104]
  | .int => []
  | .intmax => [106]
  | .long => [108]
  | .longLong => [108, 108]
  | .ptrdiff => [116]
  | .size => [122]

/-- The argument that passes a value. -/
def words (type : ArgumentType) (value : BitVec 64) : List (BitVec 32) :=
  if type.bits = 64 then [value.setWidth 32, value.extractLsb' 32 32]
  else [value.setWidth 32]

end ArgumentType

def Flag.char : Flag → UInt8
  | .minus => 45
  | .plus => 43
  | .space => 32
  | .pound => 35
  | .zero => 48
  | .group => 39

/-- A width or a precision: digits in the format, or an argument. -/
inductive NumberField where
  | written (digits : List (Fin 10))
  | argument (word : BitVec 32)
  deriving DecidableEq, Repr

namespace NumberField

def number : NumberField → Int
  | .written digits => (horner 10 0 (digits.map Fin.val) : Nat)
  | .argument word => word.toInt

def text : NumberField → List UInt8
  | .written digits => digits.map fun digit => UInt8.ofNat (48 + digit.val)
  | .argument _ => [42]

def words : NumberField → List (BitVec 32)
  | .written _ => []
  | .argument word => [word]

end NumberField

/-- A conversion as a format spells it, and the value that it is to convert. -/
structure IntegerConversion where
  flags : List Flag
  width : NumberField
  precision : Option NumberField
  type : ArgumentType
  specifier : Specifier
  value : BitVec 64
  /-- The width is an `int` of at least zero. -/
  widthBounds : 0 ≤ width.number ∧ width.number < 2 ^ 31
  /-- A zero in front of it would be a flag. -/
  widthStart : width.text.head? ≠ some 48
  /-- The precision is an `int`. -/
  precisionBounds : ∀ field ∈ precision, field.number < 2 ^ 31

namespace IntegerConversion

variable (conversion : IntegerConversion)

/-- Where a format has the conversion. -/
def text : List UInt8 :=
  37 :: conversion.flags.map Flag.char ++ conversion.width.text ++
    conversion.precision.elim [] (fun field => 46 :: field.text) ++
    conversion.type.text ++ [conversion.specifier.char]

/-- The arguments for it. -/
def words : List (BitVec 32) :=
  conversion.width.words ++ conversion.precision.elim [] NumberField.words ++
    conversion.type.words conversion.value

def has (flag : Flag) : Bool := conversion.flags.contains flag

/-- The precision, where there is one: a negative one counts as absent. -/
def minimumDigits : Option Nat :=
  conversion.precision.bind fun field =>
    if field.number < 0 then none else some field.number.toNat

/-- The number that is converted. -/
def number : Int :=
  if conversion.specifier.isSigned then
    (conversion.value.setWidth conversion.type.bits).toInt
  else (conversion.value.setWidth conversion.type.bits).toNat

def sign : List UInt8 :=
  if !conversion.specifier.isSigned then []
  else if conversion.number < 0 then [45]
  else if conversion.has .plus then [43]
  else if conversion.has .space then [32]
  else []

def hexPrefix : List UInt8 :=
  if conversion.has .pound ∧ conversion.number ≠ 0 then
    conversion.specifier.hexPrefix
  else []

/-- The digits without leading zeros. -/
def plainDigits : List UInt8 :=
  (Nat.digits conversion.specifier.radix conversion.number.natAbs).reverse.map
    conversion.specifier.digit

def groupedDigits : List UInt8 :=
  if conversion.has .group then
    grouped conversion.specifier.groupSize conversion.plainDigits
  else conversion.plainDigits

/-- The digits with zeros in front up to the precision. -/
def preciseDigits : List UInt8 :=
  List.replicate
      (conversion.minimumDigits.getD 1 - conversion.groupedDigits.length) 48 ++
    conversion.groupedDigits

/-- The flag `#` makes an octal number begin with a zero. -/
def numeral : List UInt8 :=
  if conversion.has .pound ∧ conversion.specifier = .o ∧
      conversion.preciseDigits.head? ≠ some 48 then
    48 :: conversion.preciseDigits
  else conversion.preciseDigits

def unpadded : List UInt8 := conversion.sign ++ conversion.hexPrefix ++ conversion.numeral

/-- What is to be output. -/
def rendering : List UInt8 :=
  let missing := conversion.width.number.toNat - conversion.unpadded.length
  if conversion.has .minus then
    conversion.unpadded ++ List.replicate missing 32
  else if conversion.has .zero ∧ conversion.minimumDigits = none then
    conversion.sign ++ conversion.hexPrefix ++ List.replicate missing 48 ++ conversion.numeral
  else List.replicate missing 32 ++ conversion.unpadded

theorem length_rendering :
    conversion.rendering.length = max conversion.width.number.toNat conversion.unpadded.length := by
  have parts : conversion.unpadded.length = conversion.sign.length +
      conversion.hexPrefix.length + conversion.numeral.length := by
    rw [unpadded, List.length_append, List.length_append]
  rw [rendering]
  split_ifs <;> simp only [List.length_append, List.length_replicate] <;> omega

end IntegerConversion

/-! ## `format_integer` renders -/

/-- The base that `__vprintf` selects. -/
def Specifier.base : Specifier → IntegerBase
  | .o => baseO
  | .x => baseX
  | .upperX => baseUpperX
  | _ => baseD

namespace Specifier

variable (specifier : Specifier)

theorem base_base : specifier.base.base = specifier.radix := by
  cases specifier <;> rfl

theorem base_group : specifier.base.group = specifier.groupSize := by
  cases specifier <;> rfl

theorem base_x : (specifier.base.x.map fun x => [48, x]).getD [] = specifier.hexPrefix := by
  cases specifier <;> rfl

theorem base_digits : ∀ digit < specifier.radix,
    specifier.base.digits.getD digit 0 = specifier.digit digit := by
  cases specifier <;> decide

theorem radix_bounds : 8 ≤ specifier.radix := by
  cases specifier <;> decide

theorem radix_octal : specifier.radix = 8 ↔ specifier = .o := by
  cases specifier <;> decide

end Specifier

namespace IntegerConversion

variable (conversion : IntegerConversion)

/-- What `parse_conversion` finds. -/
def parsed : PrintfConversion where
  minus := conversion.has .minus
  plus := conversion.has .plus
  space := !conversion.has .plus && conversion.has .space
  pound := conversion.has .pound
  zero := !conversion.has .minus && conversion.has .zero && conversion.minimumDigits.isNone
  group := conversion.has .group
  width := conversion.width.number.toNat
  precision := conversion.minimumDigits

theorem signChars_eq :
    signChars conversion.specifier.isSigned (decide (conversion.number < 0))
      conversion.parsed = conversion.sign := by
  unfold signChars sign parsed
  cases conversion.specifier.isSigned <;> cases conversion.has .plus <;>
    cases conversion.has .space <;>
    by_cases negative : conversion.number < 0 <;> simp [negative]

theorem prefixChars_eq :
    prefixChars conversion.number.natAbs conversion.specifier.base
      conversion.parsed = conversion.hexPrefix := by
  rw [prefixChars, hexPrefix, Specifier.base_x]
  by_cases zero : conversion.number = 0
  · simp [zero]
  · have positive : 0 < conversion.number.natAbs := Int.natAbs_pos.mpr zero
    simp [zero, parsed]

theorem accumulate_eq :
    (accumulate conversion.specifier.base conversion.parsed.group
      (Nat.digits conversion.specifier.base.base conversion.number.natAbs)
      0).reverse = conversion.groupedDigits := by
  have digits : (Nat.digits conversion.specifier.radix
      conversion.number.natAbs).map (fun digit => conversion.specifier.base.digits.getD digit 0) =
      (Nat.digits conversion.specifier.radix conversion.number.natAbs).map
        conversion.specifier.digit := by
    apply List.map_congr_left
    intro digit member
    have bounds := conversion.specifier.radix_bounds
    exact conversion.specifier.base_digits digit (Nat.digits_lt_base (by omega) member)
  change (accumulate conversion.specifier.base (conversion.has .group) _ 0).reverse = _
  rw [groupedDigits, plainDigits, Specifier.base_base, ← List.map_reverse.symm]
  cases conversion.has .group with
  | true =>
      rw [accumulate_grouped, digits, Specifier.base_group, if_pos rfl]
  | false =>
      rw [accumulate_plain, digits, if_neg Bool.false_ne_true]

/-- The buffer holds the numeral backwards. -/
theorem digitBuffer_eq (short : ∀ precision ∈ conversion.minimumDigits, precision ≤ 63) :
    (digitBuffer conversion.number.natAbs conversion.specifier.base
      conversion.parsed).reverse = conversion.numeral := by
  have cap : min (conversion.parsed.precision.getD 1) 63 = conversion.minimumDigits.getD 1 := by
    change min (conversion.minimumDigits.getD 1) 63 = _
    cases known : conversion.minimumDigits with
    | none => rfl
    | some precision => exact Nat.min_eq_left (short precision known)
  have digits := conversion.accumulate_eq
  rw [digitBuffer, numeral, preciseDigits, ← digits, cap, List.length_reverse]
  generalize accumulate _ _ _ _ = cells
  generalize conversion.minimumDigits.getD 1 - cells.length = missing
  have octal : conversion.specifier.base.base = 8 ↔ conversion.specifier = .o := by
    rw [Specifier.base_base, Specifier.radix_octal]
  have first : (List.replicate missing 48 ++ cells.reverse).head? =
      (cells ++ List.replicate missing 48).getLast? := by
    rw [← List.head?_reverse, List.reverse_append, List.reverse_replicate]
  rw [first]
  by_cases forced : conversion.has .pound ∧ conversion.specifier = .o ∧
      (cells ++ List.replicate missing 48).getLast? ≠ some 48
  · rcases forced with ⟨pound, isOctal, nonzero⟩
    rw [if_pos, if_pos ⟨pound, isOctal, nonzero⟩]
    · rw [List.reverse_append, List.reverse_append, List.reverse_replicate]
      rfl
    · change (conversion.has .pound && (decide _ && decide _)) = true
      rw [pound, decide_eq_true (octal.mpr isOctal), decide_eq_true nonzero]
      rfl
  · rw [if_neg, if_neg forced]
    · rw [List.reverse_append, List.reverse_replicate]
    · intro holds
      rw [Bool.and_eq_true, Bool.and_eq_true, decide_eq_true_eq, decide_eq_true_eq] at holds
      exact forced ⟨holds.1, octal.mp holds.2.1, holds.2.2⟩

/-- `format_integer` outputs what the standard asks. -/
theorem formatInteger_rendering (short : ∀ precision ∈ conversion.minimumDigits, precision ≤ 63) :
    formatInteger conversion.number.natAbs conversion.specifier.isSigned
      (decide (conversion.number < 0)) conversion.specifier.base
      conversion.parsed = conversion.rendering := by
  have cells := conversion.digitBuffer_eq short
  have length : (digitBuffer conversion.number.natAbs conversion.specifier.base
      conversion.parsed).length = conversion.numeral.length := by
    rw [← cells, List.length_reverse]
  have missing : conversion.parsed.width - conversion.numeral.length -
      conversion.hexPrefix.length - conversion.sign.length =
        conversion.width.number.toNat - conversion.unpadded.length := by
    change conversion.width.number.toNat - _ - _ - _ = _
    rw [unpadded, List.length_append, List.length_append]
    omega
  rw [formatInteger_eq, signChars_eq, prefixChars_eq, cells, length, missing, rendering]
  generalize conversion.width.number.toNat - conversion.unpadded.length = count
  change (if (!conversion.has .minus && !(!conversion.has .minus &&
      conversion.has .zero && conversion.minimumDigits.isNone)) = true then _
    else _) ++ _ ++ _ ++
      (if (!conversion.has .minus && conversion.has .zero &&
        conversion.minimumDigits.isNone) = true then _ else _) ++ _ ++
      (if conversion.has .minus = true then _ else _) = _
  rw [unpadded]
  cases conversion.has .minus <;> cases conversion.has .zero <;>
    cases conversion.minimumDigits <;> simp

end IntegerConversion

end CS162.Lib

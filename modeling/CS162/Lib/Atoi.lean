import CS162.Lib.PrintfConversions

/-!
# Numbers in decimal

`atoi` of `lib/stdlib.c`.  A string is the list of its characters without the null
character.  An operation on `int` whose result does not fit has no defined result.
-/

namespace CS162.Lib

open CS162.Foundation

/-- `isspace` -/
def isSpace (c : UInt8) : Bool := c == 32 || (9 ≤ c && c ≤ 13)

/-- The value of an `int`. -/
def IsInt (value : Int) : Prop := -2 ^ 31 ≤ value ∧ value < 2 ^ 31

/-- The result of an operation on `int`. -/
def toInt32 (value : Int) : Option Int :=
  if -2 ^ 31 ≤ value ∧ value < 2 ^ 31 then some value else none

/-- The loop over the digits, which counts downwards. -/
def atoiDigits (value : Int) : List UInt8 → Option Int
  | [] => some value
  | c :: s =>
      if isDigit c then
        (toInt32 (value * 10)).bind fun scaled =>
          (toInt32 (scaled - (c.toNat - 48))).bind fun value => atoiDigits value s
      else some value

/-- What is behind the sign, and whether it is `-`. -/
def atoiSign (s : List UInt8) : Bool × List UInt8 :=
  if s.head? = some 43 then (false, s.tail)
  else if s.head? = some 45 then (true, s.tail)
  else (false, s)

/-- `atoi` -/
def atoi (s : List UInt8) : Option Int :=
  let (negative, digits) := atoiSign (s.dropWhile isSpace)
  (atoiDigits 0 digits).bind fun value =>
    if negative then some value else toInt32 (-value)

/-! ## Reading digits -/

section Digits

variable {digits : List Nat} {rest : List UInt8}

/-- A decimal digit. -/
def decimalChar (digit : Nat) : UInt8 := baseD.digits.getD digit 0

theorem decimalChar_digit : ∀ digit < 10,
    isDigit (decimalChar digit) = true ∧ (decimalChar digit).toNat = 48 + digit ∧
      isSpace (decimalChar digit) = false ∧ decimalChar digit ≠ 43 ∧
        decimalChar digit ≠ 45 := by
  decide

theorem toInt32_of_range {value : Int} (lower : -2 ^ 31 ≤ value) (upper : value < 2 ^ 31) :
    toInt32 value = some value :=
  if_pos ⟨lower, upper⟩

/-- The loop comes to the negative of the number that the digits stand for, and no step
of it overflows if this number is no greater than that of the least `int`. -/
theorem atoiDigits_horner (value : Nat) (small : ∀ digit ∈ digits, digit < 10)
    (stops : ∀ c ∈ rest.head?, isDigit c = false) (bound : horner 10 value digits ≤ 2 ^ 31) :
    atoiDigits (-(value : Int)) (digits.map decimalChar ++ rest) =
      some (-(horner 10 value digits : Int)) := by
  induction digits generalizing value with
  | nil =>
      cases rest with
      | nil => rfl
      | cons c rest =>
          have noDigit := stops c rfl
          rw [List.map_nil, List.nil_append, atoiDigits, noDigit, if_neg Bool.false_ne_true]
          rfl
  | cons digit digits inductionHypothesis =>
      have less := small digit List.mem_cons_self
      rcases decimalChar_digit digit less with ⟨isDigit, number, _⟩
      have grows : value * 10 + digit ≤ 2 ^ 31 := Nat.le_trans (le_horner (by omega) _ digits) bound
      have scaled : toInt32 (-(value : Int) * 10) = some (-(value : Int) * 10) :=
        toInt32_of_range (by omega) (by omega)
      have next : -(value : Int) * 10 - ((48 + digit : Nat) - 48) =
          -((value * 10 + digit : Nat) : Int) := by omega
      have fits : toInt32 (-((value * 10 + digit : Nat) : Int)) =
          some (-((value * 10 + digit : Nat) : Int)) :=
        toInt32_of_range (by omega) (by omega)
      rw [List.map_cons, List.cons_append, atoiDigits, if_pos isDigit, scaled,
        Option.bind_some, number, next, fits, Option.bind_some]
      exact inductionHypothesis (value * 10 + digit)
        (fun other member => small other (List.mem_cons_of_mem _ member)) bound

theorem dropWhile_blanks (blanks : Nat) (s : List UInt8) :
    (List.replicate blanks 32 ++ s).dropWhile isSpace = s.dropWhile isSpace := by
  apply List.dropWhile_append_of_pos
  intro c member
  rw [List.eq_of_mem_replicate member]
  rfl

/-- What `atoi` makes of digits in front of blanks, behind the sign. -/
theorem atoiDigits_blanks (small : ∀ digit ∈ digits, digit < 10) (after : Nat)
    (bound : horner 10 0 digits ≤ 2 ^ 31) :
    atoiDigits 0 (digits.map decimalChar ++ List.replicate after 32) =
      some (-(horner 10 0 digits : Int)) := by
  apply atoiDigits_horner 0 small _ bound
  intro c first
  cases after with
  | zero => cases first
  | succ after =>
      rw [List.replicate_succ, List.head?_cons, Option.mem_def, Option.some.injEq] at first
      rw [← first]
      rfl

/-- Digits without a sign. -/
theorem atoiSign_digits (small : ∀ digit ∈ digits, digit < 10) (after : Nat)
    (bound : horner 10 0 digits ≤ 2 ^ 31) :
    ∃ s, atoiSign ((digits.map decimalChar ++ List.replicate after 32).dropWhile isSpace) =
      (false, s) ∧ atoiDigits 0 s = some (-(horner 10 0 digits : Int)) := by
  cases digits with
  | nil =>
      refine ⟨[], ?_, rfl⟩
      have none := dropWhile_blanks after []
      rw [List.append_nil] at none
      rw [List.map_nil, List.nil_append, none]
      rfl
  | cons digit digits =>
      rcases decimalChar_digit digit (small digit List.mem_cons_self) with
        ⟨_, _, noSpace, noPlus, noMinus⟩
      refine ⟨_, ?_, atoiDigits_blanks small after bound⟩
      rw [List.map_cons, List.cons_append, List.dropWhile_cons_of_neg (by rw [noSpace]; simp),
        atoiSign, List.head?_cons, if_neg, if_neg]
      · exact fun same => noMinus (Option.some.inj same)
      · exact fun same => noPlus (Option.some.inj same)

/-- The sign characters of a conversion. -/
inductive IsSign : Bool → List UInt8 → Prop
  | minus : IsSign true [45]
  | plus : IsSign false [43]
  | space : IsSign false [32]
  | none : IsSign false []

theorem IsSign.length_le {negative : Bool} {sign : List UInt8}
    (signs : IsSign negative sign) : sign.length ≤ 1 := by
  cases signs <;> decide

/-- The sign is recognised, whatever it is. -/
theorem atoiSign_signed {negative : Bool} {sign : List UInt8} (signs : IsSign negative sign)
    (small : ∀ digit ∈ digits, digit < 10) (after : Nat) (bound : horner 10 0 digits ≤ 2 ^ 31) :
    ∃ s, atoiSign ((sign ++ (digits.map decimalChar ++
        List.replicate after 32)).dropWhile isSpace) = (negative, s) ∧
      atoiDigits 0 s = some (-(horner 10 0 digits : Int)) := by
  have read := atoiDigits_blanks small after bound
  have unsigned := atoiSign_digits small after bound
  cases signs with
  | minus => exact ⟨_, rfl, read⟩
  | plus => exact ⟨_, rfl, read⟩
  | space => exact unsigned
  | none => exact unsigned

/-- A number with its sign and with blanks around it is read back. -/
theorem atoi_signed {negative : Bool} {sign : List UInt8} (signs : IsSign negative sign)
    (small : ∀ digit ∈ digits, digit < 10) (before after : Nat) {value : Int}
    (number : value = if negative then -(horner 10 0 digits : Int) else horner 10 0 digits)
    (lower : -2 ^ 31 ≤ value) (upper : value < 2 ^ 31) :
    atoi (List.replicate before 32 ++ (sign ++ (digits.map decimalChar ++
      List.replicate after 32))) = some value := by
  have bound : horner 10 0 digits ≤ 2 ^ 31 := by
    cases negative
    · rw [if_neg Bool.false_ne_true] at number
      omega
    · rw [if_pos rfl] at number
      omega
  rcases atoiSign_signed signs small after bound with ⟨s, split, read⟩
  rw [atoi, dropWhile_blanks, split]
  dsimp only
  rw [read, Option.bind_some]
  cases negative with
  | true => exact congrArg some number.symm
  | false =>
      rw [if_neg Bool.false_ne_true] at number ⊢
      rw [Int.neg_neg, ← number]
      exact toInt32_of_range lower upper

end Digits

/-! ## What `%d` prints -/

section Conversion

variable {c : PrintfConversion}

/-- The values of type `int` that `format_integer` computes: how many digits there are
so far, how many characters are in the buffer, the precision, and the number of pad
characters step by step. -/
def formatterInts (value : Nat) (isSigned negative : Bool) (b : IntegerBase)
    (c : PrintfConversion) : List Int :=
  let cells : Int := (digitBuffer value b c).length
  let x : Int := (prefixChars value b c).length
  let sign : Int := (signChars isSigned negative c).length
  (List.range ((Nat.digits b.base value).length + 1)).map Int.ofNat ++
    (List.range ((digitBuffer value b c).length + 1)).map Int.ofNat ++
    [((c.precision.getD 1 : Nat) : Int), c.width - cells, c.width - cells - x,
      c.width - cells - x - sign]

theorem prefixChars_decimal (value : Nat) (c : PrintfConversion) :
    prefixChars value baseD c = [] := by
  rw [prefixChars]
  split_ifs <;> rfl

theorem isSign_signChars (negative : Bool) (c : PrintfConversion) :
    IsSign negative (signChars true negative c) := by
  unfold signChars
  cases negative <;> cases c.plus <;> cases c.space <;> constructor

/-- The digits in the buffer, the first one first. -/
theorem digitBuffer_decimal (value : Nat) (noGroup : c.group = false) :
    ∃ digits, (digitBuffer value baseD c).reverse = digits.map decimalChar ∧
      (∀ digit ∈ digits, digit < 10) ∧ horner 10 0 digits = value := by
  generalize zeros : min (c.precision.getD 1) 63 - (Nat.digits 10 value).length = count
  refine ⟨List.replicate count 0 ++ (Nat.digits 10 value).reverse, ?_, ?_, ?_⟩
  · have noOctal : ¬((c.pound && (decide (baseD.base = 8) && decide
        ((accumulate baseD c.group (Nat.digits baseD.base value) 0 ++
          List.replicate (min (c.precision.getD 1) 63 -
            (accumulate baseD c.group (Nat.digits baseD.base value) 0).length) 48).getLast? ≠
              some 48))) = true) := by
      rw [Bool.and_eq_true, Bool.and_eq_true]
      intro octal
      exact absurd octal.2.1 (by decide)
    rw [digitBuffer, if_neg noOctal, noGroup, accumulate_plain, List.length_map]
    change (_ ++ List.replicate (min (c.precision.getD 1) 63 -
      (Nat.digits 10 value).length) 48).reverse = _
    rw [zeros, List.reverse_append, List.reverse_replicate, List.map_append,
      List.map_replicate, List.map_reverse]
    rfl
  · intro digit member
    rcases List.mem_append.mp member with zero | proper
    · rw [List.eq_of_mem_replicate zero]
      omega
    · exact Nat.digits_lt_base (by omega) (List.mem_reverse.mp proper)
  · rw [horner_append, horner_zeros, horner_reverse, Nat.ofDigits_digits]

/-- `atoi` reads back what `format_integer` outputs for a signed decimal conversion. -/
theorem atoi_formatInteger (noGroup : c.group = false) {number : Int}
    (lower : -2 ^ 31 ≤ number) (upper : number < 2 ^ 31) :
    atoi (formatInteger number.natAbs true (decide (number < 0)) baseD c) = some number := by
  rcases digitBuffer_decimal number.natAbs noGroup with ⟨digits, buffer, small, value⟩
  have signs := isSign_signChars (decide (number < 0)) c
  rw [formatInteger_eq, prefixChars_decimal, buffer]
  generalize signChars true (decide (number < 0)) c = sign at signs ⊢
  generalize c.width - _ - _ - _ = padCnt
  -- Zeros that fill the field are digits too.
  have zeros : (if c.zero then List.replicate padCnt 48 else []) =
      (List.replicate (if c.zero then padCnt else 0) 0).map decimalChar := by
    rw [List.map_replicate]
    cases c.zero <;> rfl
  have blanks : ∀ fill : Bool, (if fill then List.replicate padCnt (32 : UInt8) else []) =
      List.replicate (if fill then padCnt else 0) 32 := by
    intro fill
    cases fill <;> rfl
  rw [zeros, blanks, blanks]
  generalize (if c.zero then padCnt else 0) = filled
  have all : ∀ digit ∈ List.replicate filled 0 ++ digits, digit < 10 := by
    intro digit member
    rcases List.mem_append.mp member with zero | proper
    · rw [List.eq_of_mem_replicate zero]
      omega
    · exact small digit proper
  have horners : horner 10 0 (List.replicate filled 0 ++ digits) = number.natAbs := by
    rw [horner_append, horner_zeros, value]
  have signed : number = if decide (number < 0) = true
      then -(horner 10 0 (List.replicate filled 0 ++ digits) : Int)
      else horner 10 0 (List.replicate filled 0 ++ digits) := by
    rw [horners]
    by_cases negative : number < 0
    · rw [if_pos (decide_eq_true negative)]
      omega
    · rw [if_neg (by simpa using negative)]
      omega
  have read := atoi_signed signs all (if (!c.minus && !c.zero) = true then padCnt else 0)
    (if c.minus = true then padCnt else 0) signed lower upper
  rw [List.map_append] at read
  rw [List.append_nil]
  simp only [List.append_assoc] at read ⊢
  exact read

/-- None of these values overflows. -/
theorem formatterInts_isInt {number : Nat} {negative : Bool} (small : number < 2 ^ 64)
    (width : IsInt c.width) (precision : ∀ precision ∈ c.precision, IsInt precision) :
    ∀ value ∈ formatterInts number true negative baseD c, IsInt value := by
  have buffer := length_digitBuffer_le small (by decide : 8 ≤ baseD.base) c
  have digits : (Nat.digits baseD.base number).length ≤ 64 := by
    apply (Nat.digits_length_le_iff (by decide) number).mpr
    exact Nat.lt_of_lt_of_le small (by decide)
  have counts : ∀ count bound : Nat, bound ≤ 64 → count ∈ List.range (bound + 1) →
      IsInt count := by
    intro count bound least member
    have less := List.mem_range.mp member
    exact ⟨by omega, by omega⟩
  have sign := (isSign_signChars negative c).length_le
  unfold IsInt at width
  intro value member
  unfold formatterInts at member
  dsimp only at member
  rw [prefixChars_decimal, List.length_nil] at member
  rcases List.mem_append.mp member with counters | steps
  · rcases List.mem_append.mp counters with digit | cell
    · rcases List.mem_map.mp digit with ⟨count, inside, same⟩
      rw [← same]
      exact counts count _ digits inside
    · rcases List.mem_map.mp cell with ⟨count, inside, same⟩
      rw [← same]
      exact counts count _ buffer inside
  · rcases List.mem_cons.mp steps with given | steps
    · rw [given]
      cases known : c.precision with
      | none => exact ⟨by decide, by decide⟩
      | some digits => exact precision digits known
    · simp only [List.mem_cons, List.not_mem_nil, or_false] at steps
      unfold IsInt
      omega

end Conversion

/-! ## Whole conversions -/

section Parsing

variable {c parsed : PrintfConversion} {format rest : List UInt8}
  {args left : List (BitVec 32)} {number result : Int}

theorem parseNumber_isInt (start : IsInt number)
    (run : parseNumber format number = .ok (result, rest)) : IsInt result := by
  induction format generalizing number with
  | nil => cases run
  | cons ch format inductionHypothesis =>
      rw [parseNumber] at run
      by_cases digit : isDigit ch
      · rw [if_pos digit] at run
        have lower := @Int.le_bmod (number * 10 + ch.toNat - 48) (2 ^ 32) (by decide)
        have upper := @Int.bmod_lt (number * 10 + ch.toNat - 48) (2 ^ 32) (by decide)
        exact inductionHypothesis ⟨by omega, by omega⟩ run
      · rw [if_neg digit] at run
        cases run
        exact start

theorem parseField_isInt (run : parseField format args = .ok (number, rest, left)) :
    IsInt number := by
  unfold parseField at run
  by_cases star : format.head? = some 42
  · rw [if_pos star] at run
    rcases bind_eq_ok.mp run with ⟨⟨word, _⟩, _, result⟩
    cases result
    have lower := word.le_toInt
    have upper := word.toInt_lt
    exact ⟨lower, upper⟩
  · rw [if_neg star] at run
    rcases bind_eq_ok.mp run with ⟨_, parse, result⟩
    cases result
    exact parseNumber_isInt ⟨by omega, by omega⟩ parse

theorem parseWidth_isInt (run : parseWidth c format args = .ok (parsed, rest, left)) :
    IsInt parsed.width := by
  unfold parseWidth at run
  rcases bind_eq_ok.mp run with ⟨⟨width, format', args'⟩, parse, result⟩
  have range := parseField_isInt parse
  unfold IsInt at range
  dsimp only at result
  split_ifs at result with negative least
  · cases result
    exact ⟨by dsimp only; omega, by dsimp only; omega⟩
  · cases result
    exact ⟨by dsimp only; omega, by dsimp only; omega⟩

theorem parsePrecision_isInt (width : IsInt c.width)
    (run : parsePrecision c format args = .ok (parsed, rest, left)) :
    IsInt parsed.width ∧ ∀ precision ∈ parsed.precision, IsInt precision := by
  unfold parsePrecision at run
  split_ifs at run with empty point
  · rcases bind_eq_ok.mp run with ⟨⟨precision, format', args'⟩, parse, result⟩
    have range := parseField_isInt parse
    unfold IsInt at range
    dsimp only at result
    split_ifs at result with negative
    · cases result
      exact ⟨width, fun precision none => by cases none⟩
    · cases result
      refine ⟨width, fun known same => ?_⟩
      cases same
      exact ⟨by omega, by omega⟩
  · cases run
    exact ⟨width, fun precision none => by cases none⟩

/-- The width and the precision that `parse_conversion` finds are of type `int`. -/
theorem parseConversion_isInt {parsed : Parsed} (run : parseConversion format args = .ok parsed) :
    IsInt parsed.conversion.width ∧
      ∀ precision ∈ parsed.conversion.precision, IsInt precision := by
  rcases bind_eq_ok.mp run with ⟨⟨first, formatFlags⟩, flags, run⟩
  rcases bind_eq_ok.mp run with ⟨⟨second, formatWidth, _⟩, width, run⟩
  rcases bind_eq_ok.mp run with ⟨⟨third, formatPrecision, _⟩, precision, run⟩
  rcases bind_eq_ok.mp run with ⟨⟨type, formatType⟩, typed, result⟩
  cases result
  exact parsePrecision_isInt (parseWidth_isInt width) precision

/-- A conversion does not begin with a percent sign. -/
theorem parseConversion_percent {parsed : Parsed}
    (run : parseConversion (37 :: format) args = .ok parsed) :
    parsed.format = 37 :: format := by
  have result : parseConversion (37 :: format) args = .ok ⟨{}, .int, 37 :: format, args⟩ := rfl
  rw [result] at run
  cases run
  rfl

end Parsing

/-- `atoi` undoes `%d`, with whatever flags, width and precision, and neither it nor
`format_integer` overflows on the way. -/
theorem atoi_undoes_conversion (memory : Memory) (format rest : List UInt8)
    (args left : List (BitVec 32)) (c : PrintfConversion) (n : BitVec 32)
    (parse : parseConversion format args = .ok ⟨c, .int, 100 :: rest, n :: left⟩)
    (noGroup : c.group = false) :
    ∃ string, vprintf memory (37 :: format) args = (vprintf memory rest left).map (string ++ ·) ∧
      atoi string = some n.toInt ∧ n.signExtend 64 ≠ BitVec.intMin 64 ∧
      ∀ value ∈ formatterInts n.toInt.natAbs true (decide (n.toInt < 0)) baseD c, IsInt value := by
  have lower := n.le_toInt
  have upper := n.toInt_lt
  have extended : (n.signExtend 64).toInt = n.toInt := by
    rw [BitVec.toInt_signExtend_of_le (by decide)]
  refine ⟨convertSigned c (n.signExtend 64), ?_, ?_, ?_, ?_⟩
  · have noPercent : format.head? ≠ some 37 := by
      intro percent
      cases format with
      | nil => cases percent
      | cons ch format =>
          rw [Option.some.inj percent] at parse
          have same := parseConversion_percent parse
          cases same
    rw [vprintf, if_neg (by decide), if_neg (by decide), if_neg noPercent]
    split
    · rename_i fault run
      rw [parse] at run
      cases run
    · rename_i run
      rw [parse] at run
      cases run
    · rename_i run
      rw [parse] at run
      cases run
      have converted : convert memory c .int 100 (n :: left) =
          .ok (convertSigned c (n.signExtend 64), left) := rfl
      rw [bind_of_ok converted]
      dsimp only
      cases vprintf memory rest left <;> rfl
  · rw [convertSigned_eq, extended]
    exact atoi_formatInteger noGroup lower upper
  · intro least
    have value := congrArg BitVec.toInt least
    rw [extended] at value
    have number : (BitVec.intMin 64).toInt = -9223372036854775808 := by decide
    omega
  · rcases parseConversion_isInt parse with ⟨width, precision⟩
    have small : n.toInt.natAbs < 2 ^ 64 := by omega
    exact formatterInts_isInt small width precision

/-- `%+12d` -/
def signedWide : PrintfConversion where
  plus := true
  width := 12

theorem atoi_undoes_conversion_least :
    ∃ string, vprintf (fun _ => 0) [37, 43, 49, 50, 100, 0] [2147483648#32] =
        (vprintf (fun _ => 0) [0] []).map (string ++ ·) ∧
      atoi string = some (-2147483648) ∧
        (2147483648#32 : BitVec 32).signExtend 64 ≠ BitVec.intMin 64 ∧
          ∀ value ∈ formatterInts 2147483648 true true baseD signedWide, IsInt value :=
  atoi_undoes_conversion (fun _ => 0) [43, 49, 50, 100, 0] [0] [2147483648#32] []
    signedWide 2147483648#32 rfl rfl

end CS162.Lib

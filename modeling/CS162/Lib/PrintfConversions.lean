import CS162.Lib.PrintfIntegers

/-!
# Integer conversions of `__vprintf`

`parse_conversion` reads what a format spells, `va_arg` what the caller passes, and
`__vprintf` outputs the rendering of the number.
-/

namespace CS162.Lib

open CS162.Foundation

/-! ## Flags -/

theorem Flag.ofChar_char (flag : Flag) : Flag.ofChar flag.char = some flag := by
  cases flag <;> rfl

namespace PrintfConversion

/-- A conversion with more flags. -/
def with' (c : PrintfConversion) (flags : List Flag) : PrintfConversion :=
  { c with
    minus := c.minus || flags.contains .minus
    plus := c.plus || flags.contains .plus
    space := c.space || flags.contains .space
    pound := c.pound || flags.contains .pound
    zero := c.zero || flags.contains .zero
    group := c.group || flags.contains .group }

theorem set_with' (c : PrintfConversion) (flag : Flag) (flags : List Flag) :
    (c.set flag).with' flags = c.with' (flag :: flags) := by
  cases flag <;> simp [set, with']

end PrintfConversion

/-- The flags are collected up to a character that is none. -/
theorem parseFlags_text (flags : List Flag) (c : PrintfConversion) {ch : UInt8}
    (stop : Flag.ofChar ch = none) (rest : List UInt8) :
    parseFlags (flags.map Flag.char ++ ch :: rest) c = .ok (c.with' flags, ch :: rest) := by
  induction flags generalizing c with
  | nil =>
      rw [List.map_nil, List.nil_append, parseFlags, stop]
      simp [PrintfConversion.with']
  | cons flag flags inductionHypothesis =>
      rw [List.map_cons, List.cons_append, parseFlags, Flag.ofChar_char]
      change parseFlags _ (c.set flag) = _
      rw [inductionHypothesis, PrintfConversion.set_with']

/-! ## Numbers -/

/-- A character behind a width or a precision: no digit and no `*`. -/
theorem isDigit_digit (digit : Fin 10) :
    isDigit (UInt8.ofNat (48 + digit.val)) = true ∧
      (UInt8.ofNat (48 + digit.val)).toNat = 48 + digit.val := by
  revert digit
  decide

theorem parseNumber_text (digits : List (Fin 10)) (number : Nat)
    (bound : horner 10 number (digits.map Fin.val) < 2 ^ 31) {ch : UInt8}
    (stop : isDigit ch = false) (rest : List UInt8) :
    parseNumber
        (digits.map (fun digit => UInt8.ofNat (48 + digit.val)) ++ ch :: rest)
        number =
      .ok (((horner 10 number (digits.map Fin.val) : Nat) : Int), ch :: rest) := by
  induction digits generalizing number with
  | nil =>
      rw [List.map_nil, List.nil_append, parseNumber, if_neg (by simp [stop])]
      rfl
  | cons digit digits inductionHypothesis =>
      rw [List.map_cons, horner] at bound
      have small : number * 10 + digit.val < 2 ^ 31 :=
        Nat.lt_of_le_of_lt (le_horner (by decide) _ _) bound
      have exact : Int.bmod ((number : Int) * 10 + (48 + digit.val : Nat) - 48)
          (2 ^ 32) = ((number * 10 + digit.val : Nat) : Int) := by
        rw [show (number : Int) * 10 + (48 + digit.val : Nat) - 48 =
          ((number * 10 + digit.val : Nat) : Int) by omega]
        apply Int.bmod_eq_of_le_mul_two <;> omega
      rw [List.map_cons, List.cons_append, parseNumber,
        if_pos (isDigit_digit digit).1, (isDigit_digit digit).2, exact,
        inductionHypothesis _ bound]
      rfl

/-- A field is read up to a character that is neither a digit nor `*`. -/
theorem parseField_text (field : NumberField) (bound : field.number < 2 ^ 31)
    {ch : UInt8} (noDigit : isDigit ch = false) (noStar : ch ≠ 42)
    (rest : List UInt8) (args : List (BitVec 32)) :
    parseField (field.text ++ ch :: rest) (field.words ++ args) =
      .ok (field.number, ch :: rest, args) := by
  cases field with
  | argument word => rfl
  | written digits =>
      have plain : (NumberField.text (.written digits) ++ ch :: rest).head? ≠ some 42 := by
        cases digits with
        | nil =>
            intro star
            exact noStar (Option.some.inj star)
        | cons digit digits =>
            intro star
            have digitNotStar : ∀ digit : Fin 10, UInt8.ofNat (48 + digit.val) ≠ 42 := by decide
            exact digitNotStar digit (Option.some.inj star)
      have small : horner 10 0 (digits.map Fin.val) < 2 ^ 31 := Int.ofNat_lt.mp bound
      rw [parseField, if_neg plain]
      apply bind_eq_ok.mpr
      exact ⟨_, parseNumber_text digits 0 small noDigit rest, rfl⟩

/-! ## Types -/

/-- A letter, which ends flags, numbers and the precision's mark. -/
def Letter (ch : UInt8) : Prop :=
  Flag.ofChar ch = none ∧ isDigit ch = false ∧ ch ≠ 42 ∧ ch ≠ 37 ∧ ch ≠ 46

instance (ch : UInt8) : Decidable (Letter ch) := inferInstanceAs (Decidable (_ ∧ _ ∧ _ ∧ _ ∧ _))

/-- What follows the numbers begins with a letter. -/
theorem text_letter (type : ArgumentType) (specifier : Specifier) (rest : List UInt8) :
    ∃ ch tail, Letter ch ∧
      type.text ++ specifier.char :: rest = ch :: tail := by
  cases type with
  | int => exact ⟨_, _, by cases specifier <;> decide, rfl⟩
  | char => exact ⟨_, _, by decide, rfl⟩
  | short => exact ⟨_, _, by decide, rfl⟩
  | intmax => exact ⟨_, _, by decide, rfl⟩
  | long => exact ⟨_, _, by decide, rfl⟩
  | longLong => exact ⟨_, _, by decide, rfl⟩
  | ptrdiff => exact ⟨_, _, by decide, rfl⟩
  | size => exact ⟨_, _, by decide, rfl⟩

theorem parseType_text (type : ArgumentType) (specifier : Specifier) (rest : List UInt8) :
    parseType (type.text ++ specifier.char :: rest) = .ok (type, specifier.char :: rest) := by
  cases type <;> cases specifier <;> rfl

/-! ## Arguments -/

section Arguments

variable (type : ArgumentType) (value : BitVec 64) (args : List (BitVec 32))

theorem vaArg64_words :
    vaArg64 (value.setWidth 32 :: value.extractLsb' 32 32 :: args) = .ok (value, args) := by
  have whole : value.extractLsb' 32 32 ++ value.setWidth 32 = value := by
    ext index inside
    simp only [BitVec.getElem_append, BitVec.getElem_setWidth, BitVec.getElem_extractLsb']
    split
    · exact BitVec.getLsbD_eq_getElem _
    · rename_i high
      rw [Nat.add_sub_cancel' (by omega)]
      exact BitVec.getLsbD_eq_getElem _
  change Except.ok (value.extractLsb' 32 32 ++ value.setWidth 32, args) = _
  rw [whole]

theorem toInt_signedSize (word : BitVec 32) : (signedSize word).toInt = word.toInt := by
  have less := word.isLt
  have wide : (word.setWidth 64).toNat = word.toNat := by
    rw [BitVec.toNat_setWidth]
    omega
  have positive : (word.setWidth 64).toInt = word.toNat := by
    rw [BitVec.toInt_eq_toNat_cond, wide, if_pos (by omega)]
  have narrow := BitVec.toInt_eq_toNat_cond word
  unfold signedSize sizeMax
  by_cases half : ((2 ^ 32 - 1) / 2 : Nat) < (word.setWidth 64).toInt
  · have large : ((2 ^ 32 - 1) / 2 : Nat) < (word.toNat : Int) := positive ▸ half
    have difference : (word.setWidth 64 - BitVec.ofNat 64 (2 ^ 32 - 1) - 1).toNat =
        2 ^ 64 - 2 ^ 32 + word.toNat := by
      have one : (1 : BitVec 64).toNat = 1 := rfl
      rw [BitVec.toNat_sub, BitVec.toNat_sub, wide, one, BitVec.toNat_ofNat]
      omega
    rw [if_pos half, BitVec.toInt_eq_toNat_cond, difference,
      if_neg (by omega), narrow, if_neg (by omega)]
    omega
  · rw [if_neg half, positive]
    rw [positive] at half
    rw [narrow, if_pos (by omega)]

/-- The argument of a signed conversion, of as many bits as its type has. -/
theorem signedArgument_words :
    ∃ word, signedArgument type (type.words value ++ args) = .ok (word, args) ∧
      word.toInt = (value.setWidth type.bits).toInt := by
  have extended (count : Nat) (fits : count ≤ 32) :
      (((value.setWidth 32).setWidth count).signExtend 64).toInt =
        (value.setWidth count).toInt := by
    rw [BitVec.toInt_signExtend_of_le (by omega), BitVec.setWidth_setWidth_of_le _ fits]
  have whole64 : value.toInt = (value.setWidth 64).toInt :=
    congrArg BitVec.toInt (BitVec.setWidth_eq value).symm
  have whole : ((value.setWidth 32).signExtend 64).toInt = (value.setWidth 32).toInt :=
    BitVec.toInt_signExtend_of_le (by decide)
  cases type with
  | char => exact ⟨_, rfl, extended 8 (by decide)⟩
  | short => exact ⟨_, rfl, extended 16 (by decide)⟩
  | int => exact ⟨_, rfl, whole⟩
  | intmax => exact ⟨value, vaArg64_words value args, whole64⟩
  | long => exact ⟨_, rfl, whole⟩
  | longLong => exact ⟨value, vaArg64_words value args, whole64⟩
  | ptrdiff => exact ⟨_, rfl, whole⟩
  | size => exact ⟨_, rfl, toInt_signedSize _⟩

/-- The argument of an unsigned conversion. -/
theorem unsignedArgument_words :
    ∃ word, unsignedArgument type (type.words value ++ args) = .ok (word, args) ∧
      word.toNat = (value.setWidth type.bits).toNat := by
  have extended (count : Nat) (fits : count ≤ 32) :
      (((value.setWidth 32).setWidth count).setWidth 64).toNat = (value.setWidth count).toNat := by
    rw [BitVec.setWidth_setWidth_of_le _ fits]
    exact BitVec.toNat_setWidth_of_le (by omega)
  have whole : ((value.setWidth 32).setWidth 64).toNat = (value.setWidth 32).toNat :=
    BitVec.toNat_setWidth_of_le (by decide)
  have whole64 : value.toNat = (value.setWidth 64).toNat :=
    congrArg BitVec.toNat (BitVec.setWidth_eq value).symm
  have masked (word : BitVec 32) :
      (word.signExtend 64 &&& ((2147483647#64 <<< 1) ||| 1#64)).toNat =
        word.toNat := by
    have mask : ((2147483647#64 <<< 1) ||| 1#64).toNat = 2 ^ 32 - 1 := by decide
    have less := word.isLt
    rw [BitVec.toNat_and, mask, Nat.and_two_pow_sub_one_eq_mod,
      BitVec.toNat_signExtend, BitVec.toNat_setWidth]
    split_ifs <;> omega
  cases type with
  | char => exact ⟨_, rfl, extended 8 (by decide)⟩
  | short => exact ⟨_, rfl, extended 16 (by decide)⟩
  | int => exact ⟨_, rfl, whole⟩
  | intmax => exact ⟨value, vaArg64_words value args, whole64⟩
  | long => exact ⟨_, rfl, whole⟩
  | longLong => exact ⟨value, vaArg64_words value args, whole64⟩
  | ptrdiff => exact ⟨_, rfl, masked _⟩
  | size => exact ⟨_, rfl, whole⟩

end Arguments

/-! ## Conversions -/

theorem convertSigned_eq (c : PrintfConversion) (value : BitVec 64) :
    convertSigned c value =
      formatInteger value.toInt.natAbs true (decide (value.toInt < 0)) baseD c := by
  have sign : value.slt 0#64 = decide (value.toInt < 0) := by
    rw [BitVec.slt, BitVec.toInt_zero]
  have magnitude : (if value.slt 0#64 then -value else value).toNat =
      value.toInt.natAbs := by
    have less := value.isLt
    rw [sign]
    by_cases negative : value.toInt < 0
    · rw [if_pos (decide_eq_true negative), BitVec.toNat_neg]
      rw [BitVec.toInt_eq_toNat_cond] at negative ⊢
      split_ifs at negative ⊢ <;> omega
    · rw [if_neg (by simpa using negative)]
      rw [BitVec.toInt_eq_toNat_cond] at negative ⊢
      split_ifs at negative ⊢ <;> omega
  rw [convertSigned, magnitude, sign]

namespace IntegerConversion

variable (conversion : IntegerConversion) (memory : Memory)
  (rest : List UInt8) (args : List (BitVec 32))

/-- A format from the length modifier on. -/
def typeText : List UInt8 := conversion.type.text ++ conversion.specifier.char :: rest

/-- A format from the precision on. -/
def precisionText : List UInt8 :=
  conversion.precision.elim [] (fun field => 46 :: field.text) ++
    conversion.typeText rest

theorem text_eq :
    conversion.text ++ rest =
      37 :: (conversion.flags.map Flag.char ++
        (conversion.width.text ++ conversion.precisionText rest)) := by
  simp only [text, precisionText, typeText, List.append_assoc, List.cons_append, List.nil_append]

/-- The precision or what follows ends the width. -/
theorem precisionText_stop :
    ∃ ch tail, conversion.precisionText rest = ch :: tail ∧
      Flag.ofChar ch = none ∧ isDigit ch = false ∧ ch ≠ 42 ∧ ch ≠ 37 := by
  unfold precisionText
  cases conversion.precision with
  | none =>
      rcases text_letter conversion.type conversion.specifier rest with
        ⟨ch, tail, ⟨noFlag, noDigit, noStar, noPercent, _⟩, starts⟩
      exact ⟨ch, tail, starts, noFlag, noDigit, noStar, noPercent⟩
  | some field => exact ⟨46, _, rfl, by decide, by decide, by decide, by decide⟩

/-- No width begins with a flag, or with `%`. -/
theorem widthText_stop :
    ∃ ch tail, conversion.width.text ++ conversion.precisionText rest =
      ch :: tail ∧ Flag.ofChar ch = none ∧ ch ≠ 37 := by
  have start := conversion.widthStart
  cases known : conversion.width with
  | argument word => exact ⟨42, _, rfl, by decide, by decide⟩
  | written digits =>
      cases digits with
      | nil =>
          rcases conversion.precisionText_stop rest with ⟨ch, tail, starts, noFlag, _, _, noPercent⟩
          exact ⟨ch, tail, starts, noFlag, noPercent⟩
      | cons digit digits =>
          rw [known] at start
          have noFlag : ∀ digit : Fin 10, UInt8.ofNat (48 + digit.val) ≠ 48 →
              Flag.ofChar (UInt8.ofNat (48 + digit.val)) = none ∧
                UInt8.ofNat (48 + digit.val) ≠ 37 := by decide
          have nonzero : UInt8.ofNat (48 + digit.val) ≠ 48 := by
            intro zero
            exact start (congrArg some zero)
          exact ⟨_, _, rfl, noFlag digit nonzero⟩

theorem parseWidth_text (c : PrintfConversion) :
    parseWidth c (conversion.width.text ++ conversion.precisionText rest)
        (conversion.width.words ++ args) =
      .ok ({ c with width := conversion.width.number.toNat },
        conversion.precisionText rest, args) := by
  rcases conversion.widthBounds with ⟨least, most⟩
  rcases conversion.precisionText_stop rest with ⟨ch, tail, starts, _, noDigit, noStar, _⟩
  have field := parseField_text conversion.width most noDigit noStar tail args
  rw [starts, parseWidth, bind_of_ok field]
  dsimp only
  rw [if_neg (by omega)]
  rfl

theorem parsePrecision_text (c : PrintfConversion) :
    parsePrecision c (conversion.precisionText rest)
        (conversion.precision.elim [] NumberField.words ++ args) =
      .ok ({ c with
          precision := conversion.minimumDigits
          zero := c.zero && conversion.minimumDigits.isNone },
        conversion.typeText rest, args) := by
  rcases text_letter conversion.type conversion.specifier rest with
    ⟨ch, tail, ⟨_, noDigit, noStar, _, noPoint⟩, starts⟩
  have bounds := conversion.precisionBounds
  have starts' : conversion.typeText rest = ch :: tail := starts
  unfold precisionText minimumDigits
  cases known : conversion.precision with
  | none =>
      have plain : conversion.typeText rest ≠ [] ∧
          (conversion.typeText rest).head? ≠ some 46 := by
        rw [starts']
        refine ⟨List.cons_ne_nil _ _, ?_⟩
        intro point
        exact noPoint (Option.some.inj point)
      change parsePrecision c (conversion.typeText rest) args = _
      rw [parsePrecision, if_neg plain.1, if_neg plain.2]
      simp only [Option.bind_none, Option.isNone_none, Bool.and_true]
      rfl
  | some field =>
      have parse := parseField_text field (bounds field known) noDigit noStar tail args
      change parsePrecision c (46 :: (field.text ++ conversion.typeText rest))
        (field.words ++ args) = _
      rw [starts', parsePrecision, if_neg (List.cons_ne_nil _ _),
        if_pos List.head?_cons, List.tail_cons, bind_of_ok parse, Option.bind_some]
      dsimp only
      by_cases negative : field.number < 0
      · rw [if_pos negative, if_pos negative, Option.isNone_none, Bool.and_true]
        rfl
      · rw [if_neg negative, if_neg negative, Option.isNone_some, Bool.and_false]
        rfl

/-- What a format spells is what `parse_conversion` finds. -/
theorem parseConversion_text :
    parseConversion ((conversion.text ++ rest).tail) (conversion.words ++ args) =
      .ok {
        conversion := conversion.parsed
        type := conversion.type
        format := conversion.specifier.char :: rest
        args := conversion.type.words conversion.value ++ args } := by
  rcases conversion.widthText_stop rest with ⟨ch, tail, starts, noFlag, _⟩
  have flags := parseFlags_text conversion.flags {} noFlag tail
  have width := conversion.parseWidth_text rest
    (conversion.precision.elim [] NumberField.words ++
      (conversion.type.words conversion.value ++ args))
    ((PrintfConversion.with' {} conversion.flags).cancel)
  have precision := conversion.parsePrecision_text rest
    (conversion.type.words conversion.value ++ args)
    { (PrintfConversion.with' {} conversion.flags).cancel with
      width := conversion.width.number.toNat }
  have type := parseType_text conversion.type conversion.specifier rest
  rw [text_eq, List.tail_cons, words, List.append_assoc, List.append_assoc, parseConversion]
  rw [starts] at width ⊢
  rw [bind_of_ok flags]
  dsimp only
  rw [bind_of_ok width]
  dsimp only
  rw [bind_of_ok precision]
  dsimp only
  rw [typeText, bind_of_ok type]
  rfl

/-- What is converted is what the standard asks. -/
theorem convert_rendering (short : ∀ precision ∈ conversion.minimumDigits, precision ≤ 63) :
    convert memory conversion.parsed conversion.type conversion.specifier.char
        (conversion.type.words conversion.value ++ args) =
      .ok (conversion.rendering, args) := by
  have rendered := conversion.formatInteger_rendering short
  rcases signedArgument_words conversion.type conversion.value args with
    ⟨signed, signedRun, signedValue⟩
  rcases unsignedArgument_words conversion.type conversion.value args with
    ⟨unsigned, unsignedRun, unsignedValue⟩
  by_cases isSigned : conversion.specifier.isSigned = true
  · have listed : conversion.specifier.char ∈ [100, 105] := by
      revert isSigned
      cases conversion.specifier <;> decide
    have base : conversion.specifier.base = baseD := by
      revert isSigned
      cases conversion.specifier <;> intro isSigned <;> first | rfl | cases isSigned
    have number : conversion.number = signed.toInt := by
      rw [IntegerConversion.number, if_pos isSigned, signedValue]
    rw [number, isSigned, base] at rendered
    rw [convert, if_pos listed, bind_of_ok signedRun]
    dsimp only
    rw [convertSigned_eq, rendered]
    rfl
  · have other : conversion.specifier.char ∉ [100, 105] ∧
        conversion.specifier.char ∈ [111, 117, 120, 88] := by
      revert isSigned
      cases conversion.specifier <;> decide
    have base : conversion.specifier.base = unsignedBase conversion.specifier.char := by
      revert isSigned
      cases conversion.specifier <;> intro isSigned <;> first | rfl | exact absurd rfl isSigned
    have number : conversion.number = unsigned.toNat := by
      rw [IntegerConversion.number, if_neg isSigned, unsignedValue]
    have negative : decide ((unsigned.toNat : Int) < 0) = false := decide_eq_false (by omega)
    rw [number, Bool.eq_false_iff.mpr isSigned, base, negative, Int.natAbs_natCast] at rendered
    rw [convert, if_neg other.1, if_pos other.2, bind_of_ok unsignedRun]
    dsimp only
    rw [rendered]
    rfl

/-- `__vprintf` outputs the rendering and goes on behind the conversion. -/
theorem vprintf_rendering (short : ∀ precision ∈ conversion.minimumDigits, precision ≤ 63) :
    vprintf memory (conversion.text ++ rest) (conversion.words ++ args) =
      (vprintf memory rest args).map (conversion.rendering ++ ·) := by
  have parse := conversion.parseConversion_text rest args
  have converted := conversion.convert_rendering memory args short
  have noPercent : (conversion.text ++ rest).tail.head? ≠ some 37 := by
    rcases conversion.widthText_stop rest with ⟨ch, tail, starts, _, noPercent⟩
    rw [text_eq, List.tail_cons, starts]
    cases conversion.flags with
    | nil =>
        intro percent
        exact noPercent (Option.some.inj percent)
    | cons flag flags =>
        intro percent
        have noFlag : ∀ flag : Flag, flag.char ≠ 37 := by
          intro flag
          cases flag <;> decide
        exact noFlag flag (Option.some.inj percent)
  rw [text_eq, List.tail_cons] at parse noPercent
  rw [text_eq, vprintf, if_neg (by decide), if_neg (by decide), if_neg noPercent]
  split
  · rename_i fault run
    rw [parse] at run
    cases run
  · rename_i run
    rw [parse] at run
    cases run
  · rename_i run
    rw [parse] at run
    cases run
    rw [bind_of_ok converted]
    dsimp only
    cases vprintf memory rest args <;> rfl

end IntegerConversion

/-- The output of an integer conversion is what the standard asks, of which the
width is the least length, and no conversion leaves the digit buffer. -/
theorem vprintf_integer (memory : Memory) (conversion : IntegerConversion)
    (short : ∀ precision ∈ conversion.minimumDigits, precision ≤ 63)
    (rest : List UInt8) (args : List (BitVec 32)) :
    vprintf memory (conversion.text ++ rest) (conversion.words ++ args) =
        (vprintf memory rest args).map (conversion.rendering ++ ·) ∧
      conversion.rendering.length = max conversion.width.number.toNat conversion.unpadded.length ∧
      ∀ (value : BitVec 64) (specifier : Specifier) (c : PrintfConversion),
        (digitBuffer value.toNat specifier.base c).length ≤ 64 := by
  refine ⟨conversion.vprintf_rendering memory rest args short, conversion.length_rendering, ?_⟩
  intro value specifier c
  apply length_digitBuffer_le value.isLt
  rw [Specifier.base_base]
  exact specifier.radix_bounds

/-- `%-+25lld` of the least number. -/
def leastNumber : IntegerConversion where
  flags := [.minus, .plus]
  width := .written [2, 5]
  precision := none
  type := .longLong
  specifier := .d
  value := 9223372036854775808#64
  widthBounds := by decide
  widthStart := by decide
  precisionBounds := by intro field none; cases none

theorem vprintf_integer_leastNumber :
    vprintf (fun _ => 0) (textBytes "%-+25lld" ++ [0]) [0#32, 2147483648#32] =
      .ok (textBytes "-9223372036854775808     ") := by
  have printed := (vprintf_integer (fun _ => 0) leastNumber
    (by intro precision none; cases none) [0] []).1
  have rendered : leastNumber.rendering = textBytes "-9223372036854775808     " := by decide +kernel
  have ended : vprintf (fun _ => 0) [0] [] = .ok [] := vprintf_null _ [] []
  rw [ended, rendered] at printed
  exact printed

end CS162.Lib

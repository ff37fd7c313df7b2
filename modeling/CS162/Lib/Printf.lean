import CS162.Foundation.Calculations
import CS162.Lib.Stdio

/-!
# `printf`

`parse_conversion` and `__vprintf` of `lib/stdio.c`.  A format is the list of its
characters, the null character included, and reading past that one is a fault of
its own.  The arguments are the words of the stack that `va_arg` steps through,
a number of 64 bits being two of them, the low one first.  Arithmetic on `int`
wraps around, as the instructions do that the compiler emits.
-/

namespace CS162.Lib

open CS162.Foundation

/-- What `printf` can end with instead of its output. -/
inductive PrintfFault where
  /-- A character behind the null character is read. -/
  | pastEnd
  /-- There is no argument left. -/
  | noArgument
  /-- The negative of a width or the length of a string is no `int`. -/
  | range
  /-- A floating-point conversion. -/
  | floating
  deriving DecidableEq, Repr

/-- The type of the argument of a conversion. -/
inductive ArgumentType where
  | char
  | short
  | int
  | intmax
  | long
  | longLong
  | ptrdiff
  | size
  deriving DecidableEq, Repr

/-- `base_d`. -/
def baseD : IntegerBase where
  base := 10
  digits := [48, 49, 50, 51, 52, 53, 54, 55, 56, 57]
  x := none
  group := 3

/-- `base_x`. -/
def baseX : IntegerBase where
  base := 16
  digits := [48, 49, 50, 51, 52, 53, 54, 55, 56, 57, 97, 98, 99, 100, 101, 102]
  x := some 120
  group := 4

/-- `base_X`. -/
def baseUpperX : IntegerBase where
  base := 16
  digits := [48, 49, 50, 51, 52, 53, 54, 55, 56, 57, 65, 66, 67, 68, 69, 70]
  x := some 88
  group := 4

/-! ## Flags -/

/-- A flag of a conversion. -/
inductive Flag where
  | minus
  | plus
  | space
  | pound
  | zero
  | group
  deriving DecidableEq, Repr

/-- The flag that a character stands for. -/
def Flag.ofChar (ch : UInt8) : Option Flag :=
  if ch = 45 then some .minus
  else if ch = 43 then some .plus
  else if ch = 32 then some .space
  else if ch = 35 then some .pound
  else if ch = 48 then some .zero
  else if ch = 39 then some .group
  else none

/-- `c->flags |= …`. -/
def PrintfConversion.set (c : PrintfConversion) : Flag → PrintfConversion
  | .minus => { c with minus := true }
  | .plus => { c with plus := true }
  | .space => { c with space := true }
  | .pound => { c with pound := true }
  | .zero => { c with zero := true }
  | .group => { c with group := true }

/-- The loop over the flag characters. -/
def parseFlags : List UInt8 → PrintfConversion →
    Except PrintfFault (PrintfConversion × List UInt8)
  | [], _ => .error .pastEnd
  | ch :: format, c =>
      (Flag.ofChar ch).elim (.ok (c, ch :: format)) fun flag =>
        parseFlags format (c.set flag)

/-- `MINUS` clears `ZERO`, and `PLUS` clears `SPACE`. -/
def PrintfConversion.cancel (c : PrintfConversion) : PrintfConversion :=
  { c with
    zero := !c.minus && c.zero
    space := !c.plus && c.space }

/-! ## Width and precision -/

/-- `isdigit`. -/
def isDigit (ch : UInt8) : Bool := decide (48 ≤ ch ∧ ch ≤ 57)

/-- The loop over the digits of a number, behind those of another number. -/
def parseNumber : List UInt8 → Int → Except PrintfFault (Int × List UInt8)
  | [], _ => .error .pastEnd
  | ch :: format, number =>
      if isDigit ch then
        parseNumber format (Int.bmod (number * 10 + ch.toNat - 48) (2 ^ 32))
      else .ok (number, ch :: format)

/-- `va_arg` for a type of 32 bits. -/
def vaArg : List (BitVec 32) →
    Except PrintfFault (BitVec 32 × List (BitVec 32))
  | [] => .error .noArgument
  | word :: args => .ok (word, args)

/-- `va_arg` for a type of 64 bits. -/
def vaArg64 (args : List (BitVec 32)) :
    Except PrintfFault (BitVec 64 × List (BitVec 32)) := do
  let (low, args) ← vaArg args
  let (high, args) ← vaArg args
  return (high ++ low, args)

/-- A number in the format, or the argument that `*` stands for. -/
def parseField (format : List UInt8) (args : List (BitVec 32)) :
    Except PrintfFault (Int × List UInt8 × List (BitVec 32)) :=
  if format.head? = some 42 then do
    let (word, args) ← vaArg args
    return (word.toInt, format.tail, args)
  else do
    let (number, format) ← parseNumber format 0
    return (number, format, args)

/-- The field width. -/
def parseWidth (c : PrintfConversion) (format : List UInt8) (args : List (BitVec 32)) :
    Except PrintfFault (PrintfConversion × List UInt8 × List (BitVec 32)) := do
  let (width, format, args) ← parseField format args
  if width < 0 then
    if width = -2 ^ 31 then .error .range
    else return ({ c with width := (-width).toNat, minus := true }, format, args)
  else return ({ c with width := width.toNat }, format, args)

/-- The precision, which is absent where it is negative, and else clears
`ZERO`. -/
def parsePrecision (c : PrintfConversion) (format : List UInt8) (args : List (BitVec 32)) :
    Except PrintfFault (PrintfConversion × List UInt8 × List (BitVec 32)) :=
  if format = [] then .error .pastEnd
  else if format.head? = some 46 then do
    let (precision, format, args) ← parseField format.tail args
    if precision < 0 then return ({ c with precision := none }, format, args)
    else
      return ({ c with precision := some precision.toNat, zero := false }, format, args)
  else return ({ c with precision := none }, format, args)

/-! ## Types -/

/-- A modifier that may be doubled, behind its first character. -/
def parseDoubled (ch : UInt8) (twice once : ArgumentType) :
    List UInt8 → Except PrintfFault (ArgumentType × List UInt8)
  | [] => .error .pastEnd
  | next :: format =>
      if next = ch then .ok (twice, format) else .ok (once, next :: format)

/-- The type that the length modifier gives. -/
def parseType : List UInt8 → Except PrintfFault (ArgumentType × List UInt8)
  | [] => .error .pastEnd
  | ch :: format =>
      if ch = 104 then parseDoubled 104 .char .short format
      else if ch = 106 then .ok (.intmax, format)
      else if ch = 108 then parseDoubled 108 .longLong .long format
      else if ch = 116 then .ok (.ptrdiff, format)
      else if ch = 122 then .ok (.size, format)
      else .ok (.int, ch :: format)

/-- What `parse_conversion` finds. -/
structure Parsed where
  conversion : PrintfConversion
  type : ArgumentType
  /-- From the character on that says which conversion it is. -/
  format : List UInt8
  args : List (BitVec 32)

/-- `parse_conversion`. -/
def parseConversion (format : List UInt8) (args : List (BitVec 32)) :
    Except PrintfFault Parsed := do
  let (c, format) ← parseFlags format {}
  let (c, format, args) ← parseWidth c.cancel format args
  let (c, format, args) ← parsePrecision c format args
  let (type, format) ← parseType format
  return { conversion := c, type := type, format := format, args := args }

/-! ## Arguments -/

/-- A word as an argument of another type, that is the argument of a conversion as
an `intmax_t`. -/
def convertWord (convert : BitVec 32 → BitVec 64) (args : List (BitVec 32)) :
    Except PrintfFault (BitVec 64 × List (BitVec 32)) := do
  let (word, args) ← vaArg args
  return (convert word, args)

/-- `SIZE_MAX`. -/
def sizeMax : Nat := 2 ^ 32 - 1

/-- A `size_t` as a signed number. -/
def signedSize (word : BitVec 32) : BitVec 64 :=
  let value := word.setWidth 64
  if (sizeMax / 2 : Nat) < value.toInt then value - BitVec.ofNat 64 sizeMax - 1
  else value

/-- The argument of a signed integer conversion. -/
def signedArgument : ArgumentType → List (BitVec 32) →
    Except PrintfFault (BitVec 64 × List (BitVec 32))
  | .char => convertWord fun word => (word.setWidth 8).signExtend 64
  | .short => convertWord fun word => (word.setWidth 16).signExtend 64
  | .int => convertWord (·.signExtend 64)
  | .intmax => vaArg64
  | .long => convertWord (·.signExtend 64)
  | .longLong => vaArg64
  | .ptrdiff => convertWord (·.signExtend 64)
  | .size => convertWord signedSize

/-- The argument of an unsigned integer conversion. -/
def unsignedArgument : ArgumentType → List (BitVec 32) →
    Except PrintfFault (BitVec 64 × List (BitVec 32))
  | .char => convertWord fun word => (word.setWidth 8).setWidth 64
  | .short => convertWord fun word => (word.setWidth 16).setWidth 64
  | .int => convertWord (·.setWidth 64)
  | .intmax => vaArg64
  | .long => convertWord (·.setWidth 64)
  | .longLong => vaArg64
  | .ptrdiff => convertWord fun word =>
      -- `((uintmax_t)PTRDIFF_MAX << 1) | 1`
      word.signExtend 64 &&& ((2147483647#64 <<< 1) ||| 1#64)
  | .size => convertWord (·.setWidth 64)

/-! ## Strings -/

/-- `strnlen`. -/
def strnlen (memory : Memory) (string : Nat) : Nat → Nat
  | 0 => 0
  | maxlen + 1 =>
      if memory string = 0 then 0 else strnlen memory (string + 1) maxlen + 1

/-- `format_string`: the characters that are output. -/
def formatString (string : List UInt8) (c : PrintfConversion) : List UInt8 :=
  let blanks := List.replicate (c.width - string.length) 32
  (if string.length < c.width ∧ c.minus = false then blanks else []) ++ string ++
    (if string.length < c.width ∧ c.minus = true then blanks else [])

/-- The characters of a text. -/
def textBytes (text : String) : List UInt8 := text.toList.map fun ch => UInt8.ofNat ch.toNat

/-- The string that `%s` outputs. -/
def stringArgument (memory : Memory) (c : PrintfConversion) (string : BitVec 32) : List UInt8 :=
  if string = 0#32 then
    (textBytes "(null)").take (c.precision.getD sizeMax)
  else
    readBytes memory string.toNat (strnlen memory string.toNat (c.precision.getD sizeMax))

/-! ## Conversions -/

/-- A signed integer conversion.  The least number is its own negative, whose
bits are those of its absolute value. -/
def convertSigned (c : PrintfConversion) (value : BitVec 64) : List UInt8 :=
  formatInteger (if value.slt 0#64 then -value else value).toNat true
    (value.slt 0#64) baseD c

/-- The base of an unsigned integer conversion. -/
def unsignedBase (specifier : UInt8) : IntegerBase :=
  if specifier = 111 then baseO
  else if specifier = 117 then baseD
  else if specifier = 120 then baseX
  else baseUpperX

/-- The `switch` over the conversions: what is output, and the arguments that are
left. -/
def convert (memory : Memory) (c : PrintfConversion) (type : ArgumentType)
    (specifier : UInt8) (args : List (BitVec 32)) :
    Except PrintfFault (List UInt8 × List (BitVec 32)) :=
  if specifier ∈ [100, 105] then do
    let (value, args) ← signedArgument type args
    return (convertSigned c value, args)
  else if specifier ∈ [111, 117, 120, 88] then do
    let (value, args) ← unsignedArgument type args
    return (formatInteger value.toNat false false (unsignedBase specifier) c, args)
  else if specifier = 99 then do
    let (ch, args) ← vaArg args
    return (formatString [UInt8.ofNat ch.toNat] c, args)
  else if specifier = 115 then do
    let (word, args) ← vaArg args
    let string := stringArgument memory c word
    if 2 ^ 31 ≤ string.length then .error .range
    else return (formatString string c, args)
  else if specifier = 112 then do
    let (pointer, args) ← vaArg args
    return (formatInteger pointer.toNat false false baseX
      { pound := true, width := c.width, precision := c.precision }, args)
  else if specifier = 102 then .error .floating
  else if specifier ∈ [101, 69, 103, 71, 110] then
    return (textBytes "<<no %" ++ specifier :: textBytes " in kernel>>", args)
  else return (textBytes "<<no %" ++ specifier :: textBytes " conversion>>", args)

/-! ## Formats are consumed -/

section Lengths

variable {c parsed : PrintfConversion} {format rest : List UInt8}
  {args left : List (BitVec 32)}

theorem parseFlags_length (run : parseFlags format c = .ok (parsed, rest)) :
    rest.length ≤ format.length := by
  induction format generalizing c with
  | nil => cases run
  | cons ch format inductionHypothesis =>
      rw [parseFlags] at run
      cases flag : Flag.ofChar ch with
      | none =>
          rw [flag] at run
          cases run
          exact Nat.le_refl _
      | some flag' =>
          rw [flag] at run
          exact Nat.le_succ_of_le (inductionHypothesis run)

theorem parseNumber_length {number result : Int}
    (run : parseNumber format number = .ok (result, rest)) :
    rest.length ≤ format.length := by
  induction format generalizing number with
  | nil => cases run
  | cons ch format inductionHypothesis =>
      rw [parseNumber] at run
      by_cases digit : isDigit ch
      · rw [if_pos digit] at run
        exact Nat.le_succ_of_le (inductionHypothesis run)
      · rw [if_neg digit] at run
        cases run
        exact Nat.le_refl _

theorem parseField_length {number : Int} (run : parseField format args = .ok (number, rest, left)) :
    rest.length ≤ format.length := by
  unfold parseField at run
  by_cases star : format.head? = some 42
  · rw [if_pos star] at run
    rcases bind_eq_ok.mp run with ⟨_, _, result⟩
    cases result
    rw [List.length_tail]
    exact Nat.sub_le _ _
  · rw [if_neg star] at run
    rcases bind_eq_ok.mp run with ⟨_, parse, result⟩
    cases result
    exact parseNumber_length parse

theorem parseWidth_length
    (run : parseWidth c format args = .ok (parsed, rest, left)) :
    rest.length ≤ format.length := by
  unfold parseWidth at run
  rcases bind_eq_ok.mp run with ⟨⟨width, format', args'⟩, parse, result⟩
  have shorter := parseField_length parse
  dsimp only at result
  split_ifs at result <;> cases result <;> exact shorter

theorem parsePrecision_length
    (run : parsePrecision c format args = .ok (parsed, rest, left)) :
    rest.length ≤ format.length := by
  unfold parsePrecision at run
  by_cases empty : format = []
  · rw [if_pos empty] at run
    cases run
  rw [if_neg empty] at run
  by_cases point : format.head? = some 46
  · rw [if_pos point] at run
    rcases bind_eq_ok.mp run with ⟨⟨precision, format', args'⟩, parse, result⟩
    have shorter := parseField_length parse
    rw [List.length_tail] at shorter
    dsimp only at result
    split_ifs at result <;> cases result <;> omega
  · rw [if_neg point] at run
    cases run
    exact Nat.le_refl _

theorem parseDoubled_length {ch : UInt8} {twice once type : ArgumentType}
    (run : parseDoubled ch twice once format = .ok (type, rest)) :
    rest.length ≤ format.length := by
  cases format with
  | nil => cases run
  | cons next format =>
      rw [parseDoubled] at run
      split_ifs at run <;> cases run
      · exact Nat.le_succ _
      · exact Nat.le_refl _

theorem parseType_length {type : ArgumentType} (run : parseType format = .ok (type, rest)) :
    rest.length ≤ format.length := by
  cases format with
  | nil => cases run
  | cons ch format =>
      rw [parseType] at run
      split_ifs at run
      · exact Nat.le_succ_of_le (parseDoubled_length run)
      · cases run
        exact Nat.le_succ _
      · exact Nat.le_succ_of_le (parseDoubled_length run)
      · cases run
        exact Nat.le_succ _
      · cases run
        exact Nat.le_succ _
      · cases run
        exact Nat.le_refl _

theorem parseConversion_length {parsed : Parsed} (run : parseConversion format args = .ok parsed) :
    parsed.format.length ≤ format.length := by
  rcases bind_eq_ok.mp run with ⟨⟨first, formatFlags⟩, flags, run⟩
  rcases bind_eq_ok.mp run with ⟨⟨second, formatWidth, _⟩, width, run⟩
  rcases bind_eq_ok.mp run with ⟨⟨third, formatPrecision, _⟩, precision, run⟩
  rcases bind_eq_ok.mp run with ⟨⟨type, formatType⟩, typed, result⟩
  cases result
  calc formatType.length
    _ ≤ formatPrecision.length := parseType_length typed
    _ ≤ formatWidth.length := parsePrecision_length precision
    _ ≤ formatFlags.length := parseWidth_length width
    _ ≤ format.length := parseFlags_length flags

end Lengths

/-! ## Formats -/

/-- `__vprintf`: the characters that are output. -/
def vprintf (memory : Memory) (format : List UInt8) (args : List (BitVec 32)) :
    Except PrintfFault (List UInt8) :=
  match format with
  | [] => .error .pastEnd
  | ch :: format =>
      if ch = 0 then .ok []
      else if ch ≠ 37 then do
        let output ← vprintf memory format args
        return ch :: output
      else if format.head? = some 37 then do
        let output ← vprintf memory format.tail args
        return 37 :: output
      else
        match _run : parseConversion format args with
        | .error fault => .error fault
        | .ok ⟨_, _, [], _⟩ => .error .pastEnd
        | .ok ⟨c, type, specifier :: format, args⟩ => do
            let (converted, args) ← convert memory c type specifier args
            let output ← vprintf memory format args
            return converted ++ output
termination_by format.length
decreasing_by
  · exact Nat.lt_succ_self _
  · rw [List.length_tail]
    exact Nat.lt_succ_of_le (Nat.sub_le _ _)
  · have shorter := parseConversion_length _run
    exact Nat.lt_succ_of_lt shorter

/-- The null character ends the output. -/
theorem vprintf_null (memory : Memory) (format : List UInt8)
    (args : List (BitVec 32)) : vprintf memory (0 :: format) args = .ok [] := by
  rw [vprintf, if_pos rfl]

end CS162.Lib

import CS162.Lib.Printf

/-!
# Formats of `printf`

How `__vprintf` steps through a format, whatever its conversions output.
-/

namespace CS162.Lib

open CS162.Foundation

/-- What a conversion outputs, and the arguments that are left. -/
abbrev Converter : Type :=
  PrintfConversion → ArgumentType → UInt8 → List (BitVec 32) →
    Except PrintfFault (List UInt8 × List (BitVec 32))

/-- `convert`, where `%f` takes a number of 64 bits and outputs some characters. -/
def convertAny (floating : PrintfConversion → BitVec 64 → List UInt8) (memory : Memory) :
    Converter := fun c type specifier args =>
  if specifier = 102 then do
    let (number, args) ← vaArg64 args
    return (floating c number, args)
  else convert memory c type specifier args

/-- The loop of `__vprintf`. -/
def formatLoop (converter : Converter) (format : List UInt8) (args : List (BitVec 32)) :
    Except PrintfFault (List UInt8) :=
  match format with
  | [] => .error .pastEnd
  | ch :: format =>
      if ch = 0 then .ok []
      else if ch ≠ 37 then do
        let output ← formatLoop converter format args
        return ch :: output
      else if format.head? = some 37 then do
        let output ← formatLoop converter format.tail args
        return 37 :: output
      else
        match _run : parseConversion format args with
        | .error fault => .error fault
        | .ok ⟨_, _, [], _⟩ => .error .pastEnd
        | .ok ⟨c, type, specifier :: format, args⟩ => do
            let (converted, args) ← converter c type specifier args
            let output ← formatLoop converter format args
            return converted ++ output
termination_by format.length
decreasing_by
  · exact Nat.lt_succ_self _
  · rw [List.length_tail]
    exact Nat.lt_succ_of_le (Nat.sub_le _ _)
  · have shorter := parseConversion_length _run
    exact Nat.lt_succ_of_lt shorter

section Steps

variable {converter : Converter} {format : List UInt8} {args : List (BitVec 32)}

theorem formatLoop_nil : formatLoop converter [] args = .error .pastEnd := by
  rw [formatLoop]

theorem formatLoop_null : formatLoop converter (0 :: format) args = .ok [] := by
  rw [formatLoop, if_pos rfl]

/-- A character that is not a percent sign is output. -/
theorem formatLoop_literal {ch : UInt8} (visible : ch ≠ 0) (plain : ch ≠ 37) :
    formatLoop converter (ch :: format) args =
      (formatLoop converter format args).map (ch :: ·) := by
  rw [formatLoop, if_neg visible, if_pos plain]
  cases formatLoop converter format args <;> rfl

/-- Two percent signs are one. -/
theorem formatLoop_percent :
    formatLoop converter (37 :: 37 :: format) args =
      (formatLoop converter format args).map (37 :: ·) := by
  rw [formatLoop, if_neg (by decide), if_neg (by decide), if_pos List.head?_cons, List.tail_cons]
  cases formatLoop converter format args <;> rfl

theorem formatLoop_fault {fault : PrintfFault} (noPercent : format.head? ≠ some 37)
    (parse : parseConversion format args = .error fault) :
    formatLoop converter (37 :: format) args = .error fault := by
  rw [formatLoop, if_neg (by decide), if_neg (by decide), if_neg noPercent]
  split
  · rename_i run
    rw [parse] at run
    cases run
    rfl
  · rename_i run
    rw [parse] at run
    cases run
  · rename_i run
    rw [parse] at run
    cases run

/-- A conversion is done, and the loop goes on behind it. -/
theorem formatLoop_conversion {c : PrintfConversion} {type : ArgumentType}
    {specifier : UInt8} {rest : List UInt8} {left : List (BitVec 32)}
    (noPercent : format.head? ≠ some 37)
    (parse : parseConversion format args = .ok ⟨c, type, specifier :: rest, left⟩) :
    formatLoop converter (37 :: format) args =
      (converter c type specifier left).bind fun converted =>
        (formatLoop converter rest converted.2).map (converted.1 ++ ·) := by
  rw [formatLoop, if_neg (by decide), if_neg (by decide), if_neg noPercent]
  split
  · rename_i run
    rw [parse] at run
    cases run
  · rename_i run
    rw [parse] at run
    cases run
  · rename_i run
    rw [parse] at run
    cases run
    cases converter c type specifier left with
    | error fault => rfl
    | ok converted =>
        dsimp only [bind, Except.bind]
        cases formatLoop converter rest converted.2 <;> rfl

end Steps

/-- `__vprintf` without `%f` is an instance of the loop. -/
theorem vprintf_eq_formatLoop (memory : Memory) (format : List UInt8) (args : List (BitVec 32)) :
    vprintf memory format args = formatLoop (convert memory) format args := by
  induction size : format.length using Nat.strong_induction_on generalizing format args with
  | _ size inductionHypothesis =>
      cases format with
      | nil => rw [vprintf, formatLoop]
      | cons ch format =>
          have later : ∀ rest args, rest.length ≤ format.length →
              vprintf memory rest args = formatLoop (convert memory) rest args := by
            intro rest args shorter
            apply inductionHypothesis rest.length _ rest args rfl
            rw [← size, List.length_cons]
            omega
          rw [vprintf, formatLoop]
          split_ifs with null literal percent
          · rfl
          · rw [later format args (Nat.le_refl _)]
          · rw [later format.tail args (by rw [List.length_tail]; omega)]
          · -- Both loops look at the same conversion.
            cases run : parseConversion format args with
            | error fault => rfl
            | ok parsed =>
                rcases parsed with ⟨c, type, rest, left⟩
                cases rest with
                | nil => rfl
                | cons specifier rest =>
                    have shorter := parseConversion_length run
                    dsimp only at shorter ⊢
                    rw [List.length_cons] at shorter
                    cases convert memory c type specifier left with
                    | error fault => rfl
                    | ok converted =>
                        dsimp only [bind, Except.bind]
                        rw [later _ _ (by omega)]

/-! ## The end of a format -/

/-- The format behind the flags. -/
def afterFlags (format : List UInt8) : List UInt8 :=
  format.dropWhile fun ch => (Flag.ofChar ch).isSome

/-- The format behind a width or a precision. -/
def afterField (format : List UInt8) : List UInt8 :=
  if format.head? = some 42 then format.tail else format.dropWhile isDigit

/-- The format behind the precision, if there is one. -/
def afterPrecision (format : List UInt8) : List UInt8 :=
  if format.head? = some 46 then afterField format.tail else format

/-- The format behind a modifier that may be doubled. -/
def afterDoubled (ch : UInt8) (format : List UInt8) : List UInt8 :=
  if format.head? = some ch then format.tail else format

/-- The format behind the length modifier, if there is one. -/
def afterType (format : List UInt8) : List UInt8 :=
  if format.head? = some 104 then afterDoubled 104 format.tail
  else if format.head? = some 106 then format.tail
  else if format.head? = some 108 then afterDoubled 108 format.tail
  else if format.head? = some 116 then format.tail
  else if format.head? = some 122 then format.tail
  else format

/-- The format from the character on that says which conversion it is. -/
def afterConversion (format : List UInt8) : List UInt8 :=
  afterType (afterPrecision (afterField (afterFlags format)))

section After

variable (format : List UInt8)

theorem afterField_suffix : afterField format <:+ format := by
  unfold afterField
  split_ifs
  · exact List.tail_suffix format
  · exact List.dropWhile_suffix _

theorem afterPrecision_suffix : afterPrecision format <:+ format := by
  unfold afterPrecision
  split_ifs
  · exact (afterField_suffix format.tail).trans (List.tail_suffix format)
  · exact List.suffix_refl format

theorem afterDoubled_suffix (ch : UInt8) : afterDoubled ch format <:+ format := by
  unfold afterDoubled
  split_ifs
  · exact List.tail_suffix format
  · exact List.suffix_refl format

theorem afterType_suffix : afterType format <:+ format := by
  have tail := List.tail_suffix format
  unfold afterType
  split_ifs
  · exact (afterDoubled_suffix format.tail 104).trans tail
  · exact tail
  · exact (afterDoubled_suffix format.tail 108).trans tail
  · exact tail
  · exact tail
  · exact List.suffix_refl format

theorem afterConversion_suffix : afterConversion format <:+ format := by
  have flags : afterFlags format <:+ format := List.dropWhile_suffix _
  have width := afterField_suffix (afterFlags format)
  have precision := afterPrecision_suffix (afterField (afterFlags format))
  exact (afterType_suffix _).trans (precision.trans (width.trans flags))

end After

/-- The format ends in the middle of a conversion. -/
def endsInConversion (format : List UInt8) : Bool :=
  match format with
  | [] => false
  | ch :: format =>
      if ch ≠ 37 then endsInConversion format
      else if format.head? = some 37 then endsInConversion format.tail
      else
        match _rest : afterConversion format with
        | [] => true
        | _ :: rest => endsInConversion rest
termination_by format.length
decreasing_by
  · exact Nat.lt_succ_self _
  · rw [List.length_tail]
    exact Nat.lt_succ_of_le (Nat.sub_le _ _)
  · have shorter := (afterConversion_suffix format).length_le
    rw [_rest, List.length_cons] at shorter
    exact Nat.lt_succ_of_lt shorter

section Ends

variable {text : List UInt8}

theorem endsInConversion_literal {ch : UInt8} (plain : ch ≠ 37) :
    endsInConversion (ch :: text) = endsInConversion text := by
  rw [endsInConversion, if_pos plain]

theorem endsInConversion_percent : endsInConversion (37 :: 37 :: text) = endsInConversion text := by
  rw [endsInConversion, if_neg (by decide), if_pos List.head?_cons, List.tail_cons]

theorem endsInConversion_cut (noPercent : text.head? ≠ some 37)
    (cut : afterConversion text = []) : endsInConversion (37 :: text) = true := by
  rw [endsInConversion, if_neg (by decide), if_neg noPercent]
  split
  · rfl
  · rename_i run
    rw [cut] at run
    cases run

theorem endsInConversion_conversion {specifier : UInt8} {rest : List UInt8}
    (noPercent : text.head? ≠ some 37) (after : afterConversion text = specifier :: rest) :
    endsInConversion (37 :: text) = endsInConversion rest := by
  rw [endsInConversion, if_neg (by decide), if_neg noPercent]
  split
  · rename_i run
    rw [after] at run
    cases run
  · rename_i run
    rw [after] at run
    cases run
    rfl

end Ends

/-! ## Parsing a terminated format -/

/-- The fault is one of the arguments: there are too few of them, or a calculation with
them is not defined. -/
def PrintfFault.OfArguments (fault : PrintfFault) : Prop := fault = .noArgument ∨ fault = .range

/-- A parser of a terminated format stays in it: it ends before the null character, or
with a fault of the arguments. -/
def StaysBefore {Value : Type} (run : Except PrintfFault Value)
    (format : Value → List UInt8) (after : List UInt8) : Prop :=
  (∃ value, run = .ok value ∧ format value = after ++ [0]) ∨
    ∃ fault, run = .error fault ∧ fault.OfArguments

section Parsers

variable {text : List UInt8} (c : PrintfConversion) (args : List (BitVec 32))

theorem parseFlags_before (text : List UInt8) :
    ∃ parsed, parseFlags (text ++ [0]) c = .ok (parsed, afterFlags text ++ [0]) := by
  induction text generalizing c with
  | nil => exact ⟨c, rfl⟩
  | cons ch text inductionHypothesis =>
      rw [List.cons_append, parseFlags, afterFlags]
      cases flag : Flag.ofChar ch with
      | none =>
          rw [List.dropWhile_cons_of_neg (by rw [flag]; decide)]
          exact ⟨c, rfl⟩
      | some flag' =>
          rw [List.dropWhile_cons_of_pos (by rw [flag]; rfl)]
          exact inductionHypothesis (c.set flag')

theorem parseNumber_before (text : List UInt8) (number : Int) :
    ∃ result, parseNumber (text ++ [0]) number = .ok (result, text.dropWhile isDigit ++ [0]) := by
  induction text generalizing number with
  | nil => exact ⟨number, rfl⟩
  | cons ch text inductionHypothesis =>
      rw [List.cons_append, parseNumber]
      by_cases digit : isDigit ch = true
      · rw [if_pos digit, List.dropWhile_cons_of_pos digit]
        exact inductionHypothesis _
      · rw [if_neg digit, List.dropWhile_cons_of_neg digit]
        exact ⟨number, rfl⟩

/-- The first character of a terminated text. -/
theorem head?_terminated {ch : UInt8} (visible : ch ≠ 0) :
    (text ++ [0]).head? = some ch ↔ text.head? = some ch := by
  cases text with
  | nil =>
      constructor
      · intro first
        exact absurd (Option.some.inj first).symm visible
      · intro none
        cases none
  | cons first text => exact Iff.rfl

theorem tail_terminated {ch : UInt8} (first : text.head? = some ch) :
    (text ++ [0]).tail = text.tail ++ [0] := by
  cases text with
  | nil => cases first
  | cons first text => rfl

theorem parseField_before (text : List UInt8) :
    StaysBefore (parseField (text ++ [0]) args) (·.2.1) (afterField text) := by
  unfold parseField afterField
  have same := @head?_terminated text 42 (by decide)
  by_cases star : text.head? = some 42
  · rw [if_pos (same.mpr star), if_pos star, tail_terminated star]
    cases args with
    | nil => exact Or.inr ⟨.noArgument, rfl, Or.inl rfl⟩
    | cons word args => exact Or.inl ⟨_, rfl, rfl⟩
  · rcases parseNumber_before text 0 with ⟨number, run⟩
    rw [if_neg fun first => star (same.mp first), if_neg star, bind_of_ok run]
    exact Or.inl ⟨_, rfl, rfl⟩

theorem parseWidth_before (text : List UInt8) :
    StaysBefore (parseWidth c (text ++ [0]) args) (·.2.1) (afterField text) := by
  unfold parseWidth
  rcases parseField_before args text with ⟨⟨width, format, left⟩, run, before⟩ | fault
  · rw [bind_of_ok run]
    dsimp only at before ⊢
    split_ifs
    · exact Or.inr ⟨.range, rfl, Or.inr rfl⟩
    · exact Or.inl ⟨_, rfl, before⟩
    · exact Or.inl ⟨_, rfl, before⟩
  · rcases fault with ⟨fault, run, ofArguments⟩
    rw [run]
    exact Or.inr ⟨fault, rfl, ofArguments⟩

theorem parsePrecision_before (text : List UInt8) :
    StaysBefore (parsePrecision c (text ++ [0]) args) (·.2.1) (afterPrecision text) := by
  unfold parsePrecision afterPrecision
  have same := @head?_terminated text 46 (by decide)
  have notEmpty : text ++ [0] ≠ [] := List.append_ne_nil_of_right_ne_nil _ (List.cons_ne_nil _ _)
  rw [if_neg notEmpty]
  by_cases point : text.head? = some 46
  · rw [if_pos (same.mpr point), if_pos point, tail_terminated point]
    rcases parseField_before args text.tail with ⟨⟨precision, format, left⟩, run, before⟩ | fault
    · rw [bind_of_ok run]
      dsimp only at before ⊢
      split_ifs
      · exact Or.inl ⟨_, rfl, before⟩
      · exact Or.inl ⟨_, rfl, before⟩
    · rcases fault with ⟨fault, run, ofArguments⟩
      rw [run]
      exact Or.inr ⟨fault, rfl, ofArguments⟩
  · rw [if_neg fun first => point (same.mp first), if_neg point]
    exact Or.inl ⟨_, rfl, rfl⟩

theorem parseDoubled_before {ch : UInt8} (visible : ch ≠ 0) (twice once : ArgumentType)
    (text : List UInt8) :
    ∃ type, parseDoubled ch twice once (text ++ [0]) = .ok (type, afterDoubled ch text ++ [0]) := by
  cases text with
  | nil =>
      refine ⟨once, ?_⟩
      rw [List.nil_append, parseDoubled, if_neg (Ne.symm visible)]
      rfl
  | cons next text =>
      rw [List.cons_append, parseDoubled, afterDoubled, List.head?_cons]
      by_cases same : next = ch
      · rw [if_pos same, if_pos (congrArg some same)]
        exact ⟨twice, rfl⟩
      · rw [if_neg same, if_neg fun first => same (Option.some.inj first)]
        exact ⟨once, rfl⟩

theorem parseType_before (text : List UInt8) :
    ∃ type, parseType (text ++ [0]) = .ok (type, afterType text ++ [0]) := by
  cases text with
  | nil => exact ⟨.int, rfl⟩
  | cons ch text =>
      rw [List.cons_append, parseType, afterType, List.head?_cons, List.tail_cons]
      simp only [Option.some.injEq]
      split_ifs
      · exact parseDoubled_before (by decide) _ _ text
      · exact ⟨_, rfl⟩
      · exact parseDoubled_before (by decide) _ _ text
      · exact ⟨_, rfl⟩
      · exact ⟨_, rfl⟩
      · exact ⟨_, rfl⟩

/-- `parse_conversion` never reads behind the null character. -/
theorem parseConversion_before (text : List UInt8) :
    StaysBefore (parseConversion (text ++ [0]) args) Parsed.format
      (afterConversion text) := by
  rcases parseFlags_before {} text with ⟨flagged, flags⟩
  unfold parseConversion
  rw [bind_of_ok flags]
  dsimp only
  rcases parseWidth_before flagged.cancel args (afterFlags text) with
    ⟨⟨wide, format, left⟩, width, before⟩ | ⟨fault, width, ofArguments⟩
  · dsimp only at before
    rw [bind_of_ok width, before]
    dsimp only
    rcases parsePrecision_before wide left (afterField (afterFlags text)) with
      ⟨⟨precise, format, left⟩, precision, before⟩ | ⟨fault, precision, ofArguments⟩
    · dsimp only at before
      rcases parseType_before (afterPrecision (afterField (afterFlags text))) with ⟨type, typed⟩
      rw [bind_of_ok precision, before]
      dsimp only
      rw [bind_of_ok typed]
      exact Or.inl ⟨_, rfl, rfl⟩
    · rw [precision]
      exact Or.inr ⟨fault, rfl, ofArguments⟩
  · rw [width]
    exact Or.inr ⟨fault, rfl, ofArguments⟩

end Parsers

/-! ## Conversions -/

section Conversions

variable {memory : Memory} {c : PrintfConversion} {type : ArgumentType} {specifier : UInt8}
  {args : List (BitVec 32)}

/-- The only faults are those of the arguments. -/
def Defined {Value : Type} (run : Except PrintfFault Value) : Prop :=
  ∀ fault, run = .error fault → fault.OfArguments

theorem defined_ok {Value : Type} (value : Value) : Defined (.ok value) := by
  intro fault none
  cases none

theorem Defined.bind {First Value : Type} {first : Except PrintfFault First}
    {next : First → Except PrintfFault Value} (start : Defined first)
    (later : ∀ value, Defined (next value)) : Defined (first >>= next) := by
  cases first with
  | error fault =>
      intro other same
      cases same
      exact start fault rfl
  | ok value => exact later value

theorem vaArg_defined : Defined (vaArg args) := by
  cases args with
  | nil =>
      intro fault none
      cases none
      exact Or.inl rfl
  | cons word args => exact defined_ok _

theorem vaArg64_defined : Defined (vaArg64 args) :=
  vaArg_defined.bind fun _ => vaArg_defined.bind fun _ => defined_ok _

theorem convertWord_defined (convert : BitVec 32 → BitVec 64) :
    Defined (convertWord convert args) :=
  vaArg_defined.bind fun _ => defined_ok _

theorem signedArgument_defined : Defined (signedArgument type args) := by
  unfold signedArgument
  cases type
  case intmax => exact vaArg64_defined
  case longLong => exact vaArg64_defined
  all_goals exact convertWord_defined _

theorem unsignedArgument_defined : Defined (unsignedArgument type args) := by
  unfold unsignedArgument
  cases type
  case intmax => exact vaArg64_defined
  case longLong => exact vaArg64_defined
  all_goals exact convertWord_defined _

theorem convertAny_defined (floating : PrintfConversion → BitVec 64 → List UInt8) :
    Defined (convertAny floating memory c type specifier args) := by
  unfold convertAny convert
  split_ifs
  · exact vaArg64_defined.bind fun _ => defined_ok _
  · exact signedArgument_defined.bind fun _ => defined_ok _
  · exact unsignedArgument_defined.bind fun _ => defined_ok _
  · exact vaArg_defined.bind fun _ => defined_ok _
  · apply vaArg_defined.bind
    intro word
    dsimp only
    split_ifs
    · intro fault same
      cases same
      exact Or.inr rfl
    · exact defined_ok _
  · exact vaArg_defined.bind fun _ => defined_ok _
  · exact defined_ok _
  · exact defined_ok _

end Conversions

/-! ## Whole formats -/

section Whole

variable {converter : Converter} {text : List UInt8}

/-- A run whose arguments match comes to its end if and only if the format does not end
in a conversion, and else reads behind the null character. -/
def Ends (run : Except PrintfFault (List UInt8)) (cut : Bool) : Prop :=
  (∃ fault, run = .error fault ∧ fault.OfArguments) ∨
    if cut then run = .error .pastEnd else ∃ output, run = .ok output

theorem Ends.map {run : Except PrintfFault (List UInt8)} {cut : Bool} (ends : Ends run cut)
    (more : List UInt8 → List UInt8) : Ends (run.map more) cut := by
  rcases ends with ⟨fault, faulty, ofArguments⟩ | done
  · rw [faulty]
    exact Or.inl ⟨fault, rfl, ofArguments⟩
  · cases cut with
    | true =>
        have past : run = .error .pastEnd := done
        rw [past]
        exact Or.inr rfl
    | false =>
        have returned : ∃ output, run = .ok output := done
        rcases returned with ⟨output, returned⟩
        rw [returned]
        exact Or.inr ⟨more output, rfl⟩

theorem formatLoop_ends (defined : ∀ c type specifier args,
      Defined (converter c type specifier args))
    (nonzero : 0 ∉ text) (args : List (BitVec 32)) :
    Ends (formatLoop converter (text ++ [0]) args) (endsInConversion text) := by
  induction size : text.length using Nat.strong_induction_on generalizing text args with
  | _ size inductionHypothesis =>
      cases text with
      | nil =>
          rw [endsInConversion]
          exact Or.inr ⟨[], formatLoop_null⟩
      | cons ch text =>
          have later : ∀ rest args, rest <:+ text →
              Ends (formatLoop converter (rest ++ [0]) args) (endsInConversion rest) := by
            intro rest args suffixed
            have shorter := suffixed.length_le
            rw [List.length_cons] at size
            exact inductionHypothesis rest.length (by omega)
              (fun member => nonzero (List.mem_cons_of_mem _ (suffixed.subset member))) args rfl
          have visible : ch ≠ 0 := fun zero => nonzero (zero ▸ List.mem_cons_self)
          by_cases plain : ch ≠ 37
          · rw [List.cons_append, formatLoop_literal visible plain, endsInConversion_literal plain]
            exact (later text args (List.suffix_refl text)).map _
          · rw [not_not.mp plain, List.cons_append]
            by_cases percent : text.head? = some 37
            · cases text with
              | nil => cases percent
              | cons next text =>
                  rw [Option.some.inj percent, List.cons_append, formatLoop_percent,
                    endsInConversion_percent]
                  exact (later text args (List.suffix_cons next text)).map _
            · have noPercent : (text ++ [0]).head? ≠ some 37 :=
                fun first => percent ((head?_terminated (by decide)).mp first)
              rcases parseConversion_before args text with
                ⟨⟨c, type, format, left⟩, parse, before⟩ | ⟨fault, parse, ofArguments⟩
              · dsimp only at before
                rw [before] at parse
                cases after : afterConversion text with
                | nil =>
                    rw [after, List.nil_append] at parse
                    rw [formatLoop_conversion noPercent parse, endsInConversion_cut percent after]
                    cases run : converter c type 0 left with
                    | error fault => exact Or.inl ⟨fault, rfl, defined _ _ _ _ fault run⟩
                    | ok converted =>
                        refine Or.inr ?_
                        dsimp only [Except.bind]
                        rw [formatLoop_nil]
                        rfl
                | cons specifier rest =>
                    rw [after, List.cons_append] at parse
                    rw [formatLoop_conversion noPercent parse,
                      endsInConversion_conversion percent after]
                    cases run : converter c type specifier left with
                    | error fault => exact Or.inl ⟨fault, rfl, defined _ _ _ _ fault run⟩
                    | ok converted =>
                        have suffixed : rest <:+ text := by
                          have whole := afterConversion_suffix text
                          rw [after] at whole
                          exact (List.suffix_cons specifier rest).trans whole
                        exact (later rest converted.2 suffixed).map _
              · rw [formatLoop_fault noPercent parse]
                exact Or.inl ⟨fault, rfl, ofArguments⟩

/-- `__vprintf` with these arguments, `%f` included. -/
def vprintfAny (floating : PrintfConversion → BitVec 64 → List UInt8) (memory : Memory)
    (format : List UInt8) (args : List (BitVec 32)) : Except PrintfFault (List UInt8) :=
  formatLoop (convertAny floating memory) format args

/-- The arguments match: there are enough of them, and no calculation with them is
undefined. -/
def Matching (run : Except PrintfFault (List UInt8)) : Prop :=
  ∀ fault, run = .error fault → ¬fault.OfArguments

/-- `__vprintf` returns, and nothing behind the null character has been read. -/
def StaysInside (run : Except PrintfFault (List UInt8)) : Prop := ∃ output, run = .ok output

/-- `parse_conversion` stays inside every format, and `__vprintf` inside those that do
not end in the middle of a conversion. -/
theorem vprintf_inside_iff (floating : PrintfConversion → BitVec 64 → List UInt8)
    (memory : Memory) (text : List UInt8) (args : List (BitVec 32)) (nonzero : 0 ∉ text)
    (matching : Matching (vprintfAny floating memory (text ++ [0]) args)) :
    parseConversion (text ++ [0]) args ≠ .error .pastEnd ∧
      (StaysInside (vprintfAny floating memory (text ++ [0]) args) ↔
        endsInConversion text = false) := by
  constructor
  · intro past
    rcases parseConversion_before args text with ⟨parsed, parse, _⟩ | ⟨fault, parse, faulty⟩
    · rw [past] at parse
      cases parse
    · rw [past] at parse
      cases parse
      rcases faulty with few | range
      · cases few
      · cases range
  · have ends := formatLoop_ends (fun c type specifier args =>
      @convertAny_defined memory c type specifier args floating) nonzero args
    rcases ends with ⟨fault, run, ofArguments⟩ | ends
    · exact absurd ofArguments (matching fault run)
    · cases cut : endsInConversion text with
      | true =>
          rw [cut, if_pos rfl] at ends
          refine iff_of_false ?_ Bool.noConfusion
          intro ⟨output, returned⟩
          rw [vprintfAny, ends] at returned
          cases returned
      | false =>
          rw [cut, if_neg Bool.false_ne_true] at ends
          exact iff_of_true ends rfl

/-- What `%f` outputs does not matter here. -/
def noFloating : PrintfConversion → BitVec 64 → List UInt8 := fun _ _ => []

theorem vprintf_inside_iff_decimal :
    StaysInside (vprintfAny noFloating (fun _ => 0) ([37, 100] ++ [0]) [5#32]) := by
  have parse : parseConversion [100, 0] [5#32] = .ok ⟨{}, .int, [100, 0], [5#32]⟩ := rfl
  have run : vprintfAny noFloating (fun _ => 0) ([37, 100] ++ [0]) [5#32] =
      ((convertAny noFloating (fun _ => 0) {} .int 100 [5#32]).bind fun converted =>
        (formatLoop (convertAny noFloating (fun _ => 0)) [0] converted.2).map
          (converted.1 ++ ·)) :=
    formatLoop_conversion (by decide) parse
  have ends : endsInConversion [37, 100] = false := by
    rw [@endsInConversion_conversion [100] 100 [] (by decide) (by decide), endsInConversion]
  refine (vprintf_inside_iff noFloating (fun _ => 0) [37, 100] [5#32] (by decide) ?_).2.mpr
    ends
  intro fault faulty
  have converted : ∃ output, convertAny noFloating (fun _ => 0) {} .int 100 [5#32] =
      .ok (output, []) := ⟨_, rfl⟩
  rcases converted with ⟨output, converted⟩
  rw [run, converted] at faulty
  dsimp only [Except.bind] at faulty
  rw [formatLoop_null] at faulty
  cases faulty

/-- `"%"` -/
theorem vprintf_leaves_format :
    Matching (vprintfAny noFloating (fun _ => 0) ([37] ++ [0]) []) ∧
      ¬StaysInside (vprintfAny noFloating (fun _ => 0) ([37] ++ [0]) []) := by
  have parse : parseConversion [0] [] = .ok ⟨{}, .int, [0], []⟩ := rfl
  have run : vprintfAny noFloating (fun _ => 0) ([37] ++ [0]) [] =
      ((convertAny noFloating (fun _ => 0) {} .int 0 []).bind fun converted =>
        (formatLoop (convertAny noFloating (fun _ => 0)) [] converted.2).map
          (converted.1 ++ ·)) :=
    formatLoop_conversion (by decide) parse
  have converted : ∃ output, convertAny noFloating (fun _ => 0) {} .int 0 [] =
      .ok (output, []) := ⟨_, rfl⟩
  rcases converted with ⟨output, converted⟩
  rw [run, converted]
  dsimp only [Except.bind]
  rw [formatLoop_nil]
  constructor
  · intro fault faulty
    cases faulty
    intro ofArguments
    rcases ofArguments with few | range
    · cases few
    · cases range
  · intro ⟨output, returned⟩
    cases returned

end Whole

end CS162.Lib

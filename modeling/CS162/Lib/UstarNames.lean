import CS162.Lib.Strtok
import CS162.Lib.Ustar

/-!
# Names in archives

`strip_antisocial_prefixes` of `lib/ustar.c`, run on a string with its null byte, with
the `memcmp`, `strchr` and `strcmp` that it calls.  An access behind the null byte
and a null pointer from `strchr` are `none`.
-/

namespace CS162.Lib

open CS162.Foundation

/-- A byte of a string, or the null byte at its end. -/
def stringByte (name : List UInt8) (place : Nat) : Option UInt8 := (name ++ [0])[place]?

/-- `!memcmp (name + place, text, sizeof text)` -/
def memcmpSame (name : List UInt8) (place : Nat) : List UInt8 → Option Bool
  | [] => some true
  | b :: rest =>
      (stringByte name place).bind fun a =>
        if a ≠ b then some false else memcmpSame name (place + 1) rest

/-- `!strcmp (name + place, text)`, where the text comes with its null byte. -/
def strcmpSame (name : List UInt8) (place : Nat) : List UInt8 → Option Bool
  | [] => none
  | b :: rest =>
      (stringByte name place).bind fun a =>
        if a ≠ 0 ∧ a = b then strcmpSame name (place + 1) rest
        else some (decide (a = b))

/-- `strchr (name + place, '/')`, which is not a null pointer. -/
def strchrSlash (name : List UInt8) (place : Nat) : Option Nat :=
  if place ≤ name.length then strchr (name.drop place) 47 place else none

/-- The condition of the loop of `strip_antisocial_prefixes`. -/
def prefixHere (name : List UInt8) (place : Nat) : Option Bool :=
  (stringByte name place).bind fun c =>
    if c = 47 then some true
    else
      (memcmpSame name place [46, 47]).bind fun dot =>
        if dot then some true else memcmpSame name place [46, 46, 47]

/-- The loop of `strip_antisocial_prefixes`. -/
def stripLoop (name : List UInt8) : Nat → Nat → Option Nat
  | 0, _ => none
  | fuel + 1, place =>
      (prefixHere name place).bind fun here =>
        if here then
          (strchrSlash name place).bind fun slash => stripLoop name fuel (slash + 1)
        else some place

/-- The string literal, or a pointer into the name. -/
inductive StrippedName where
  | dot
  | suffix (place : Nat)

/-- The string that a result points to. -/
def StrippedName.text (name : List UInt8) : StrippedName → List UInt8
  | .dot => [46]
  | .suffix place => name.drop place

/-- `strip_antisocial_prefixes`, step by step. -/
def stripName (fuel : Nat) (name : List UInt8) : Option StrippedName :=
  (stripLoop name fuel 0).bind fun place =>
    (stringByte name place).bind fun c =>
      if c = 0 then some .dot
      else
        (strcmpSame name place [46, 46, 0]).map fun parent =>
          if parent then .dot else .suffix place

/-- A text begins with one of the prefixes. -/
def Antisocial (text : List UInt8) : Prop :=
  [47] <+: text ∨ [46, 47] <+: text ∨ [46, 46, 47] <+: text

instance (text : List UInt8) : Decidable (Antisocial text) := inferInstanceAs (Decidable (_ ∨ _))

/-! ## The accesses -/

section Accesses

variable {front rest : List UInt8}

theorem stringByte_nil (front : List UInt8) : stringByte front front.length = some 0 := by
  simp [stringByte]

theorem stringByte_cons (front : List UInt8) (c : UInt8) (rest : List UInt8) :
    stringByte (front ++ c :: rest) front.length = some c := by
  simp [stringByte]

/-- `memcmp` stops at the null byte, as no prefix has one. -/
theorem memcmpSame_eq {text : List UInt8} (clean : 0 ∉ text) :
    memcmpSame (front ++ rest) front.length text = some (decide (text <+: rest)) := by
  induction text generalizing front rest with
  | nil => simp [memcmpSame]
  | cons b text inductionHypothesis =>
      rcases not_or.mp (fun found => clean (List.mem_cons.mpr found)) with
        ⟨nonzero, cleanRest⟩
      cases rest with
      | nil =>
          rw [memcmpSame, List.append_nil, stringByte_nil, Option.bind_some, if_pos nonzero]
          simp
      | cons c rest =>
          rw [memcmpSame, stringByte_cons, Option.bind_some]
          by_cases same : c = b
          · have later := @inductionHypothesis (front ++ [c]) rest cleanRest
            rw [List.append_assoc, List.singleton_append, List.length_append,
              List.length_singleton] at later
            rw [if_neg (fun different => different same), later, same]
            simp
          · rw [if_pos same]
            simp [List.cons_prefix_cons, Ne.symm same]

theorem strcmpSame_eq {text : List UInt8} (cleanRest : 0 ∉ rest) (clean : 0 ∉ text) :
    strcmpSame (front ++ rest) front.length (text ++ [0]) = some (decide (rest = text)) := by
  induction text generalizing front rest with
  | nil =>
      cases rest with
      | nil =>
          rw [List.nil_append, strcmpSame, List.append_nil, stringByte_nil,
            Option.bind_some, if_neg (by decide)]
          rfl
      | cons c rest =>
          have nonzero : c ≠ 0 := fun null => cleanRest (by simp [null])
          rw [List.nil_append, strcmpSame, stringByte_cons, Option.bind_some,
            if_neg (fun both => nonzero both.2)]
          simp [nonzero]
  | cons b text inductionHypothesis =>
      rcases not_or.mp (fun found => clean (List.mem_cons.mpr found)) with
        ⟨nonzero, cleanText⟩
      cases rest with
      | nil =>
          rw [List.cons_append, strcmpSame, List.append_nil, stringByte_nil,
            Option.bind_some, if_neg (fun both => both.1 rfl)]
          simp [nonzero]
      | cons c rest =>
          rcases not_or.mp (fun found => cleanRest (List.mem_cons.mpr found)) with
            ⟨nonzeroHere, cleanLater⟩
          rw [List.cons_append, strcmpSame, stringByte_cons, Option.bind_some]
          by_cases same : c = b
          · have later := @inductionHypothesis (front ++ [c]) rest cleanLater cleanText
            rw [List.append_assoc, List.singleton_append, List.length_append,
              List.length_singleton] at later
            rw [if_pos ⟨Ne.symm nonzeroHere, same⟩, later, same]
            simp
          · rw [if_neg (fun both => same both.2)]
            simp [same]

theorem prefixHere_eq (front rest : List UInt8) :
    prefixHere (front ++ rest) front.length = some (decide (Antisocial rest)) := by
  have dot := @memcmpSame_eq front rest [46, 47] (by decide)
  have dots := @memcmpSame_eq front rest [46, 46, 47] (by decide)
  cases rest with
  | nil =>
      have none : ¬Antisocial [] := by decide
      rw [List.append_nil] at dot dots ⊢
      rw [prefixHere, stringByte_nil, Option.bind_some, if_neg (by decide), dot, dots]
      simp [none]
  | cons c rest =>
      rw [prefixHere, stringByte_cons, Option.bind_some, dot, dots]
      unfold Antisocial
      by_cases isSlash : c = 47
      · rw [if_pos isSlash, isSlash]
        simp
      · have noSlash : ¬[47] <+: c :: rest := by
          simp [List.cons_prefix_cons, Ne.symm isSlash]
        rw [if_neg isSlash, Option.bind_some]
        by_cases hasDot : [46, 47] <+: c :: rest
        · simp [hasDot]
        · simp [hasDot, noSlash]

end Accesses

/-! ## The loop -/

/-- What is behind the first slash of a text with a prefix. -/
theorem antisocial_split {text : List UInt8} (antisocial : Antisocial text) :
    ∃ head back, text = head ++ 47 :: back ∧
      dropPrefixes text = dropPrefixes back ∧
        ∀ place, strchr text 47 place = some (place + head.length) := by
  rcases antisocial with ⟨back, rfl⟩ | ⟨back, rfl⟩ | ⟨back, rfl⟩
  · refine ⟨[], back, rfl, ?_, fun place => rfl⟩
    cases back with
    | nil => rfl
    | cons second back =>
        cases back with
        | nil => rfl
        | cons third back => rfl
  · refine ⟨[46], back, rfl, ?_, fun place => rfl⟩
    cases back with
    | nil => rfl
    | cons third back => rfl
  · exact ⟨[46, 46], back, rfl, rfl, fun place => rfl⟩

theorem dropPrefixes_of_not_antisocial {text : List UInt8}
    (social : ¬Antisocial text) : dropPrefixes text = text := by
  simp only [Antisocial, not_or] at social
  rcases social with ⟨noSlash, noDot, noDots⟩
  fun_cases dropPrefixes text with
  | case1 => rfl
  | case2 => exact absurd List.prefix_rfl noSlash
  | case3 => rfl
  | case4 second => exact absurd (List.prefix_append [47] [second]) noSlash
  | case5 first second notSlash dot =>
      rw [dot.1, dot.2] at noDot
      exact absurd List.prefix_rfl noDot
  | case6 => rfl
  | case7 second third rest =>
      exact absurd (List.prefix_append [47] (second :: third :: rest)) noSlash
  | case8 first second third rest notSlash dot =>
      rw [dot.1, dot.2] at noDot
      exact absurd (List.prefix_append [46, 47] (third :: rest)) noDot
  | case9 first second third rest notSlash notDot dots =>
      rw [dots.1, dots.2.1, dots.2.2] at noDots
      exact absurd (List.prefix_append [46, 46, 47] rest) noDots
  | case10 => rfl

/-- Each turn of the loop leaves a shorter text with the same result. -/
theorem stripLoop_eq {fuel : Nat} {front rest : List UInt8} (enough : rest.length < fuel) :
    ∃ passed, front ++ rest = passed ++ dropPrefixes rest ∧
      stripLoop (front ++ rest) fuel front.length = some passed.length := by
  induction fuel generalizing front rest with
  | zero => exact absurd enough (Nat.not_lt_zero _)
  | succ fuel inductionHypothesis =>
      rw [stripLoop, prefixHere_eq, Option.bind_some]
      by_cases antisocial : Antisocial rest
      · rcases antisocial_split antisocial with ⟨head, back, split, same, found⟩
        have slash : strchrSlash (front ++ rest) front.length =
            some (front.length + head.length) := by
          rw [strchrSlash, if_pos (by simp), List.drop_left, found]
        have regrouped : front ++ rest = (front ++ head ++ [47]) ++ back := by
          rw [split]
          simp
        have length : front.length + head.length + 1 = (front ++ head ++ [47]).length := by
          simp [Nat.add_assoc]
        have shorter : back.length < fuel := by
          rw [split, List.length_append, List.length_cons] at enough
          omega
        rw [if_pos (decide_eq_true antisocial), slash, Option.bind_some, length, regrouped, same]
        exact inductionHypothesis shorter
      · rw [if_neg (by simpa using antisocial)]
        refine ⟨front, ?_, rfl⟩
        rw [dropPrefixes_of_not_antisocial antisocial]

theorem dropPrefixes_not_antisocial (name : List UInt8) : ¬Antisocial (dropPrefixes name) := by
  intro antisocial
  rcases antisocial_split antisocial with ⟨head, back, split, same, _⟩
  have shorter := (dropPrefixes_suffix back).length_le
  rw [← same, dropPrefixes_idempotent, split, List.length_append, List.length_cons] at shorter
  omega

/-- Where the stripped name is. -/
def strippedName (name : List UInt8) : StrippedName :=
  if dropPrefixes name = [] ∨ dropPrefixes name = [46, 46] then .dot
  else .suffix (name.length - (dropPrefixes name).length)

theorem text_strippedName (name : List UInt8) :
    (strippedName name).text name = stripAntisocialPrefixes name := by
  unfold strippedName stripAntisocialPrefixes
  by_cases special : dropPrefixes name = [] ∨ dropPrefixes name = [46, 46]
  · rw [if_pos special, if_pos special]
    rfl
  · rw [if_neg special, if_neg special]
    exact (List.suffix_iff_eq_drop.mp (dropPrefixes_suffix name)).symm

/-- The steps find the stripped name, and none of them fails. -/
theorem stripName_eq {fuel : Nat} {name : List UInt8} (clean : 0 ∉ name)
    (enough : name.length < fuel) :
    stripName fuel name = some (strippedName name) := by
  rcases @stripLoop_eq fuel [] name enough with ⟨passed, split, looped⟩
  rw [List.nil_append, List.length_nil] at looped
  rw [List.nil_append] at split
  have cleanRest : 0 ∉ dropPrefixes name := by
    intro member
    exact clean ((dropPrefixes_suffix name).subset member)
  have compared := @strcmpSame_eq passed (dropPrefixes name) [46, 46] cleanRest (by decide)
  have place : passed.length = name.length - (dropPrefixes name).length := by
    have lengths := congrArg List.length split
    rw [List.length_append] at lengths
    omega
  rw [← split, List.cons_append, List.cons_append, List.nil_append] at compared
  rw [stripName, looped, Option.bind_some]
  unfold strippedName
  cases stripped : dropPrefixes name with
  | nil =>
      have byte := stringByte_nil passed
      rw [stripped, List.append_nil] at split
      rw [← split] at byte ⊢
      rw [byte, Option.bind_some, if_pos rfl, if_pos (Or.inl rfl)]
  | cons c rest =>
      have byte := stringByte_cons passed c rest
      rw [← stripped, ← split] at byte
      have nonzero : c ≠ 0 := by
        intro null
        rw [stripped, null] at cleanRest
        exact cleanRest List.mem_cons_self
      rw [byte, Option.bind_some, if_neg nonzero, compared, Option.map_some, stripped]
      rw [stripped] at place
      by_cases parent : c :: rest = [46, 46]
      · rw [if_pos (decide_eq_true parent), if_pos (Or.inr parent)]
      · rw [if_neg (by simpa using parent), if_neg (by simpa using parent), place]

/-! ## Safe names -/

/-- A name that does not lead out of the directory where it is looked up. -/
structure Social (text : List UInt8) : Prop where
  nonempty : text ≠ []
  notParent : text ≠ [46, 46]
  noPrefix : ¬Antisocial text

/-- A stripped name is a dot or a safe end of the name. -/
theorem strip_social (name : List UInt8) :
    stripAntisocialPrefixes name = [46] ∨
      (stripAntisocialPrefixes name <:+ name ∧
        Social (stripAntisocialPrefixes name)) := by
  unfold stripAntisocialPrefixes
  by_cases special : dropPrefixes name = [] ∨ dropPrefixes name = [46, 46]
  · left
    exact if_pos special
  · right
    rcases not_or.mp special with ⟨nonempty, notParent⟩
    rw [if_neg special]
    exact ⟨dropPrefixes_suffix name, nonempty, notParent, dropPrefixes_not_antisocial name⟩

/-- The name that `ustar_parse_header` gives for a header that is not zero. -/
theorem parse_fileName {header : Memory} {entry : UstarEntry}
    (parsed : ustarParseHeader header = .ok entry) (used : isAllZeros header = false) :
    entry.fileName = some (stripAntisocialPrefixes
      (cString header nameField.offset nameField.size)) := by
  rw [ustarParseHeader, used, if_neg Bool.false_ne_true] at parsed
  split at parsed
  · cases parsed
  split at parsed
  · cases parsed
  split at parsed
  · cases parsed
  split at parsed
  · cases parsed
  split at parsed
  · cases parsed
  split at parsed
  · split at parsed
    · cases parsed
    split at parsed
    · cases parsed
    · cases parsed
      rfl
  · split at parsed
    · cases parsed
      rfl
    · cases parsed

/-- What `ustar_make_header` stores is the stripped name, which is short enough for
its field. -/
theorem make_eq {fileName : List UInt8} {type : UstarType} {size : Int} {header made : Memory}
    (composed : ustarMakeHeader fileName type size header = some (true, made)) :
    (stripAntisocialPrefixes fileName).length ≤ 99 ∧
      made = madeHeader header (stripAntisocialPrefixes fileName) type size := by
  rw [ustarMakeHeader] at composed
  by_cases known : type = .eof
  · rw [if_pos known] at composed
    cases composed
  · rw [if_neg known] at composed
    dsimp only at composed
    by_cases long : 99 < (stripAntisocialPrefixes fileName).length
    · rw [if_pos long] at composed
      cases composed
    · rw [if_neg long] at composed
      exact ⟨Nat.le_of_not_lt long, (Prod.mk.inj (Option.some.inj composed)).2.symm⟩

/-- For every name with a null byte at its end, `strip_antisocial_prefixes` ends
without a step behind the null byte.  Its result is a dot or a safe end of the name,
and a second call does not change it.  A name that `ustar_make_header` has stored is
read back as it is. -/
theorem strip_antisocial_prefixes_safe (name : List UInt8) (clean : 0 ∉ name) :
    ∃ result : StrippedName,
      (∀ fuel, name.length < fuel → stripName fuel name = some result) ∧
        (result.text name = [46] ∨ (result.text name <:+ name ∧ Social (result.text name))) ∧
        (∃ again, stripName ((result.text name).length + 1) (result.text name) =
            some again ∧ again.text (result.text name) = result.text name) ∧
        ∀ type size header made entry,
          ustarMakeHeader name type size header = some (true, made) →
          ustarParseHeader made = .ok entry →
          cString made nameField.offset nameField.size = result.text name ∧
            entry.fileName = some (result.text name) := by
  have cleanText : 0 ∉ stripAntisocialPrefixes name := strip_no_null clean
  refine ⟨strippedName name, fun fuel enough => stripName_eq clean enough, ?_⟩
  rw [text_strippedName]
  refine ⟨strip_social name, ⟨strippedName (stripAntisocialPrefixes name), ?_, ?_⟩, ?_⟩
  · exact stripName_eq cleanText (Nat.lt_succ_self _)
  · rw [text_strippedName, strip_idempotent]
  · intro type size header made entry composed parsed
    rcases make_eq composed with ⟨short, rfl⟩
    have stored := @madeHeader_name header _ type size short cleanText
    have named := parse_fileName parsed madeHeader_not_zeros
    rw [stored, strip_idempotent] at named
    exact ⟨stored, named⟩

/-- The name `/.././../a`. -/
theorem strip_antisocial_prefixes_safe_a : ∃ result : StrippedName,
      stripName 11 [47, 46, 46, 47, 46, 47, 46, 46, 47, 97] = some result ∧
        (result.text [47, 46, 46, 47, 46, 47, 46, 46, 47, 97] = [46] ∨
          Social (result.text [47, 46, 46, 47, 46, 47, 46, 46, 47, 97])) := by
  rcases strip_antisocial_prefixes_safe [47, 46, 46, 47, 46, 47, 46, 46, 47, 97]
    (by decide) with ⟨result, stripped, safe, _⟩
  refine ⟨result, stripped 11 (by decide), ?_⟩
  rcases safe with dot | suffix
  · exact Or.inl dot
  · exact Or.inr suffix.2

end CS162.Lib

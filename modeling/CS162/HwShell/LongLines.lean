import CS162.HwShell.Tokenizer

/-!
# The longest lines of the shell

Which of the lines that `fgets` can return make `tokenize` abort.
-/

namespace CS162.HwShell

open CS162.Foundation

/-- A character that stands for itself outside of quotes. -/
structure Plain (c : UInt8) : Prop where
  nonzero : c ≠ 0
  squote : c ≠ 39
  dquote : c ≠ 34
  backslash : c ≠ 92
  space : isSpace c = false

theorem plain_iff (c : UInt8) : Plain c ↔ c ≠ 0 ∧ c ≠ 39 ∧ c ≠ 34 ∧ c ≠ 92 ∧ isSpace c = false :=
  ⟨fun plain => ⟨plain.nonzero, plain.squote, plain.dquote, plain.backslash, plain.space⟩,
    fun ⟨nonzero, squote, dquote, backslash, space⟩ =>
      ⟨nonzero, squote, dquote, backslash, space⟩⟩

instance (c : UInt8) : Decidable (Plain c) := decidable_of_iff' _ (plain_iff c)

/-- The characters without the gaps between words. -/
def characters (parts : List (Option UInt8)) : List UInt8 := parts.filterMap id

section Characters

variable {quote : Option UInt8} {c : UInt8} {line part : List UInt8}
  {parts : List (Option UInt8)}

theorem characters_append (parts more : List (Option UInt8)) :
    characters (parts ++ more) = characters parts ++ characters more :=
  List.filterMap_append

theorem unitOf_characters_le (quote : Option UInt8) (c : UInt8) :
    (characters (unitOf quote c).1).length ≤ 1 := by
  cases quote with
  | none =>
      rw [unitOf]
      split_ifs
      · exact Nat.zero_le 1
      · exact Nat.zero_le 1
      · exact Nat.le_refl 1
  | some quote =>
      rw [unitOf]
      split_ifs
      · exact Nat.zero_le 1
      · exact Nat.le_refl 1

/-- Only a plain character outside of quotes is one of a word, and no quote is open
behind it. -/
theorem unitOf_none_full (full : 1 ≤ (characters (unitOf none c).1).length) :
    c ≠ 39 ∧ c ≠ 34 ∧ isSpace c = false ∧ (unitOf none c).2 = none := by
  rw [unitOf] at full ⊢
  by_cases mark : c = 39 ∨ c = 34
  · rw [if_pos mark] at full
    exact absurd full (Nat.not_succ_le_zero 0)
  · rw [if_neg mark] at full ⊢
    rcases not_or.mp mark with ⟨squote, dquote⟩
    by_cases space : isSpace c = true
    · rw [if_pos space] at full
      exact absurd full (Nat.not_succ_le_zero 0)
    · rw [if_neg space]
      exact ⟨squote, dquote, Bool.not_eq_true _ ▸ space, rfl⟩

theorem unitOf_plain (plain : Plain c) : unitOf none c = ([some c], none) := by
  have mark : ¬(c = 39 ∨ c = 34) := not_or.mpr ⟨plain.squote, plain.dquote⟩
  rw [unitOf, if_neg mark, plain.space]
  rfl

/-- Behind a backslash every character is one of a word. -/
theorem units_escaped (quote : Option UInt8) (next : UInt8) (rest : List UInt8) :
    characters (units quote (92 :: next :: rest)) = next :: characters (units quote rest) := by
  rw [units, if_pos rfl]
  rfl

/-- A line does not stand for more characters than it has. -/
theorem units_characters_le (quote : Option UInt8) (line : List UInt8) :
    (characters (units quote line)).length ≤ line.length := by
  induction quote, line using units.induct with
  | case1 quote => exact Nat.le_refl 0
  | case2 quote => exact Nat.zero_le 1
  | case3 quote c literal =>
      rw [units, if_neg literal]
      exact unitOf_characters_le quote c
  | case4 quote next rest inductionHypothesis =>
      rw [units_escaped]
      simp only [List.length_cons]
      omega
  | case5 quote c next rest literal inductionHypothesis =>
      have first := unitOf_characters_le quote c
      rw [units, if_neg literal, characters_append, List.length_append, List.length_cons]
      omega

/-- If no character is lost, all of them are plain. -/
theorem plain_of_full (outside : quote = none) (nonzero : 0 ∉ line)
    (full : line.length ≤ (characters (units quote line)).length) : ∀ c ∈ line, Plain c := by
  induction quote, line using units.induct with
  | case1 quote =>
      intro c impossible
      exact absurd impossible List.not_mem_nil
  | case2 quote => exact absurd full (Nat.not_succ_le_zero 0)
  | case3 quote c literal =>
      subst outside
      rw [units, if_neg literal] at full
      rcases unitOf_none_full full with ⟨squote, dquote, space, _⟩
      rw [List.forall_mem_singleton]
      exact ⟨fun zero => nonzero (zero ▸ List.mem_singleton_self c), squote, dquote, literal, space⟩
  | case4 quote next rest _ =>
      have later := units_characters_le quote rest
      rw [units_escaped] at full
      simp only [List.length_cons] at full
      omega
  | case5 quote c next rest literal inductionHypothesis =>
      subst outside
      have first := unitOf_characters_le none c
      have later := units_characters_le (unitOf none c).2 (next :: rest)
      rw [units, if_neg literal, characters_append, List.length_append, List.length_cons] at full
      have one : 1 ≤ (characters (unitOf none c).1).length := by omega
      rcases unitOf_none_full one with ⟨squote, dquote, space, still⟩
      have nonzeroRest : 0 ∉ next :: rest := fun member =>
        nonzero (List.mem_cons_of_mem c member)
      rw [List.forall_mem_cons]
      refine ⟨?_, inductionHypothesis still nonzeroRest (by omega)⟩
      exact ⟨fun zero => nonzero (zero ▸ List.mem_cons_self), squote, dquote, literal, space⟩

/-- Plain characters stand for themselves. -/
theorem units_plain (plain : ∀ c ∈ line, Plain c) : units none line = line.map some := by
  induction line with
  | nil => rfl
  | cons c rest inductionHypothesis =>
      rcases List.forall_mem_cons.mp plain with ⟨here, later⟩
      cases rest with
      | nil =>
          rw [units, if_neg here.backslash, unitOf_plain here]
          rfl
      | cons next rest =>
          rw [units, if_neg here.backslash, unitOf_plain here, inductionHypothesis later]
          rfl

/-- A word has no more characters than have been read of it and are to come. -/
theorem length_word_le {word : List UInt8} (found : word ∈ wordsFrom part parts) :
    word.length ≤ part.length + (characters parts).length := by
  induction parts generalizing part with
  | nil =>
      rw [wordsFrom] at found
      split_ifs at found
      · exact absurd found List.not_mem_nil
      · rw [List.mem_singleton.mp found]
        exact Nat.le_add_right _ _
  | cons unit parts inductionHypothesis =>
      cases unit with
      | none =>
          have same : characters (none :: parts) = characters parts := rfl
          have later : word ∈ wordsFrom [] parts →
              word.length ≤ part.length + (characters parts).length := by
            intro behind
            have bound := inductionHypothesis behind
            rw [List.length_nil] at bound
            omega
          rw [wordsFrom] at found
          rw [same]
          split_ifs at found
          · exact later found
          · rcases List.mem_cons.mp found with here | behind
            · rw [here]
              exact Nat.le_add_right _ _
            · exact later behind
      | some c =>
          have same : characters (some c :: parts) = c :: characters parts := rfl
          have bound := inductionHypothesis found
          rw [List.length_append, List.length_singleton] at bound
          rw [same, List.length_cons]
          omega

/-- Characters without gaps are one word. -/
theorem wordsFrom_plain (part line : List UInt8) :
    wordsFrom part (line.map some) = wordsFrom (part ++ line) [] := by
  induction line generalizing part with
  | nil => rw [List.map_nil, List.append_nil]
  | cons c rest inductionHypothesis =>
      have later := inductionHypothesis (part ++ [c])
      rw [List.append_assoc] at later
      exact later

end Characters

section Longest

variable {line : List UInt8}

theorem textOf_eq_self (nonzero : 0 ∉ line) : textOf line = line := by
  rw [textOf, List.takeWhile_eq_self_iff]
  intro c member
  exact decide_eq_true fun zero => nonzero (zero ▸ member)

/-- Among the lines that `fgets` can return, only those that are one word from the first to
the last character have a word that is too long. -/
theorem long_word_iff (fits : line.length ≤ 4095) :
    (∃ word ∈ words (textOf line), 4095 ≤ word.length) ↔
      line.length = 4095 ∧ ∀ c ∈ line, Plain c := by
  constructor
  · rintro ⟨word, member, long⟩
    rw [words_eq] at member
    have word_le := length_word_le member
    have units_le := units_characters_le none (textOf line)
    have start : textOf line <+: line := List.takeWhile_prefix _
    have text_le := start.length_le
    rw [List.length_nil, Nat.zero_add] at word_le
    have whole : textOf line = line := start.eq_of_length (by omega)
    have nonzero := textOf_nonzero line
    rw [whole] at word_le units_le nonzero
    exact ⟨by omega, plain_of_full rfl nonzero (by omega)⟩
  · rintro ⟨full, plain⟩
    have nonzero : 0 ∉ line := fun zero => (plain 0 zero).nonzero rfl
    have nonempty : line ≠ [] := by
      intro empty
      rw [empty] at full
      cases full
    have oneWord : words (textOf line) = [line] := by
      rw [textOf_eq_self nonzero, words_eq, units_plain plain, wordsFrom_plain,
        List.nil_append, wordsFrom, List.isEmpty_eq_false_iff.mpr nonempty]
      rfl
    rw [oneWord]
    exact ⟨line, List.mem_singleton_self line, Nat.le_of_eq full.symm⟩

/-- For every line that `fgets` can return, `tokenize` stays inside its buffer.  It calls
`abort` exactly for the lines of 4095 characters in which there are only plain ones. -/
theorem tokenize_copes_iff (token line : List UInt8) (blocks : List (List UInt8))
    (size : token.length = tokenMax) (fits : line.length ≤ 4095) :
    tokenize (token :: blocks) line ≠ .error .overflow ∧
      (tokenize (token :: blocks) line ≠ .error .abort ↔
        line.length < 4095 ∨ ∃ c ∈ line, ¬Plain c) := by
  by_cases long : ∃ word ∈ words (textOf line), 4095 ≤ word.length
  · have aborts := @tokenize_of_long token line blocks size long
    rcases (long_word_iff fits).mp long with ⟨full, plain⟩
    rw [aborts]
    refine ⟨by decide, iff_of_false (fun works => works rfl) ?_⟩
    rintro (short | ⟨c, member, other⟩)
    · omega
    · exact other (plain c member)
  · have short : ∀ word ∈ words (textOf line), word.length < 4095 :=
      fun word member => Nat.lt_of_not_le fun tooLong => long ⟨word, member, tooLong⟩
    rcases @tokenize_of_short token line blocks size short with ⟨token', _, run⟩
    rw [run]
    refine ⟨fun overflow => ?_, iff_of_true (fun abort => ?_) ?_⟩
    · cases overflow
    · cases abort
    · by_contra neither
      rcases not_or.mp neither with ⟨full, plain⟩
      apply long
      rw [long_word_iff fits]
      refine ⟨by omega, fun c member => ?_⟩
      by_contra other
      exact plain ⟨c, member, other⟩

/-- One letter and the end of the line. -/
theorem tokenize_copes_letter :
    tokenize [emptyToken] [97, 10] ≠ .error .overflow ∧
      tokenize [emptyToken] [97, 10] ≠ .error .abort := by
  have copes := tokenize_copes_iff emptyToken [97, 10] [] List.length_replicate (by decide)
  exact ⟨copes.1, copes.2.mpr (Or.inl (by decide))⟩

/-- A line of 4095 letters. -/
theorem tokenize_aborts :
    (List.replicate 4095 (97 : UInt8)).length ≤ 4095 ∧
      tokenize [emptyToken] (List.replicate 4095 97) = .error .abort := by
  have full : (List.replicate 4095 (97 : UInt8)).length = 4095 := List.length_replicate
  have plain : ∀ c ∈ List.replicate 4095 (97 : UInt8), Plain c := by
    intro c member
    rw [List.eq_of_mem_replicate member]
    decide
  refine ⟨Nat.le_of_eq full, tokenize_of_long List.length_replicate ?_⟩
  exact (long_word_iff (Nat.le_of_eq full)).mpr ⟨full, plain⟩

end Longest

end CS162.HwShell

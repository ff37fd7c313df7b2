import CS162.Foundation.Calculations
import Mathlib.Data.List.Basic
import Mathlib.Data.List.TakeWhile

/-!
# The tokenizer of the shell

`tokenize` of `tokenizer.c`.  The words are copied from a static buffer of 4096 bytes into
blocks of their own.
-/

namespace CS162.HwShell

open CS162.Foundation

/-- What ends the program in `tokenize`. -/
inductive TokenizeFault where
  | abort
  /-- A store outside the buffer. -/
  | overflow
  deriving DecidableEq, Repr

/-- Quotes that are open. -/
inductive Mode where
  | normal
  | squote
  | dquote
  deriving DecidableEq, Repr

/-- `n_max`, the size of the buffer. -/
def tokenMax : Nat := 4096

/-- The variables of `tokenize` and the memory that it works on.  Object 0 is the static
array `token`; the others are the blocks of `malloc`, in their order.  A word of the list
is the number of its object. -/
structure Scanner where
  mode : Mode := .normal
  n : Nat := 0
  objects : List (List UInt8)
  tokens : List Nat := []
  deriving DecidableEq

/-- `isspace`. -/
def isSpace (c : UInt8) : Bool := c == 32 || (9 ≤ c && c ≤ 13)

/-- What `strncpy (word, source, size)` leaves in `word`. -/
def strncpy (source : List UInt8) (size : Nat) : List UInt8 :=
  let string := (source.take size).takeWhile (· ≠ 0)
  string ++ List.replicate (size - string.length) 0

namespace Scanner

/-- `token[n] = c`. -/
def poke (s : Scanner) (c : UInt8) : Except TokenizeFault Scanner :=
  if s.n < tokenMax then
    .ok { s with objects := s.objects.modify 0 fun token => token.set s.n c }
  else .error .overflow

/-- `token[n++] = c`. -/
def store (s : Scanner) (c : UInt8) : Except TokenizeFault Scanner := do
  let s ← s.poke c
  return { s with n := s.n + 1 }

/-- `copy_word (token, n)`, `vector_push` and `n = 0`. -/
def copyWord (s : Scanner) : Except TokenizeFault Scanner := do
  let s ← s.poke 0
  return { s with
    n := 0
    objects := s.objects ++ [strncpy (s.objects.getD 0 []) (s.n + 1)]
    tokens := s.tokens ++ [s.objects.length] }

/-- A character that is not a backslash. -/
def character (s : Scanner) (c : UInt8) : Except TokenizeFault Scanner :=
  match s.mode with
  | .normal =>
      if c = 39 then .ok { s with mode := .squote }
      else if c = 34 then .ok { s with mode := .dquote }
      else if isSpace c then
        if 0 < s.n then s.copyWord else .ok s
      else s.store c
  | .squote => if c = 39 then .ok { s with mode := .normal } else s.store c
  | .dquote => if c = 34 then .ok { s with mode := .normal } else s.store c

/-- The test at the end of each round. -/
def check (s : Scanner) : Except TokenizeFault Scanner :=
  if s.n + 1 ≥ tokenMax then .error .abort else .ok s

end Scanner

/-- The loop of `tokenize`.  A backslash takes the next character with it.  The lines of
the shell have at most 4095 characters, so that `i` does not wrap around. -/
def tokenizeLoop : Scanner → List UInt8 → Except TokenizeFault Scanner
  | s, [] => .ok s
  | s, [c] => do
      let s ← if c = 92 then .ok s else s.character c
      s.check
  | s, c :: next :: rest =>
      if c = 92 then do
        let s ← s.store next
        let s ← s.check
        tokenizeLoop s rest
      else do
        let s ← s.character c
        let s ← s.check
        tokenizeLoop s (next :: rest)

/-- `tokenize`, on a memory.  The line ends at its first null byte. -/
def tokenize (objects : List (List UInt8)) (line : List UInt8) :
    Except TokenizeFault (List Nat × List (List UInt8)) := do
  let s ← tokenizeLoop { objects := objects } (line.takeWhile (· ≠ 0))
  let s ← if 0 < s.n then s.copyWord else .ok s
  return (s.tokens, s.objects)

/-- The static array before the first line. -/
def emptyToken : List UInt8 := List.replicate tokenMax 0

/-- What `tokens_get_token` returns for the words of a line, as strings. -/
def lineTokens (line : List UInt8) : Except TokenizeFault (List (List UInt8)) := do
  let (tokens, objects) ← tokenize [emptyToken] line
  return tokens.map fun token => (objects.getD token []).takeWhile (· ≠ 0)

/-! ## The grammar of a line -/

/-- What a character that is not a backslash stands for, with the quote that is open
before it: a character of a word, a gap between words, or nothing; and the quote that is
open behind it. -/
def unitOf : Option UInt8 → UInt8 → List (Option UInt8) × Option UInt8
  | none, c =>
      if c = 39 ∨ c = 34 then ([], some c)
      else if isSpace c then ([none], none)
      else ([some c], none)
  | some quote, c => if c = quote then ([], none) else ([some c], some quote)

/-- The characters of the words of a line and the gaps between them.  A backslash makes
the next character one of a word, and stands for nothing at the end of the line. -/
def units : Option UInt8 → List UInt8 → List (Option UInt8)
  | _, [] => []
  | quote, [c] => if c = 92 then [] else (unitOf quote c).1
  | quote, c :: next :: rest =>
      if c = 92 then some next :: units quote rest
      else (unitOf quote c).1 ++ units (unitOf quote c).2 (next :: rest)

/-- The words of a line: what is between the gaps and is not empty. -/
def words (line : List UInt8) : List (List UInt8) :=
  (((units none line).splitOn none).map fun part => part.filterMap id).filter
    fun word => !word.isEmpty

/-- The words, if a part of the first one has been read. -/
def wordsFrom : List UInt8 → List (Option UInt8) → List (List UInt8)
  | part, [] => if part.isEmpty then [] else [part]
  | part, none :: rest =>
      if part.isEmpty then wordsFrom [] rest else part :: wordsFrom [] rest
  | part, some c :: rest => wordsFrom (part ++ [c]) rest

section Words

variable {part : List UInt8} {parts : List (Option UInt8)}

theorem wordsFrom_eq (part : List UInt8) (read : List (Option UInt8))
    (same : read.reverse.filterMap id = part) :
    wordsFrom part parts =
      ((List.splitOnPPrepend (· == none) parts read).map
        fun part => part.filterMap id).filter fun word => !word.isEmpty := by
  induction parts generalizing part read with
  | nil =>
      rw [List.splitOnPPrepend_nil, List.map_singleton, same, wordsFrom]
      cases part <;> rfl
  | cons unit parts inductionHypothesis =>
      cases unit with
      | none =>
          have later := inductionHypothesis [] [] rfl
          rw [List.splitOnPPrepend_cons_pos rfl, List.map_cons, same, wordsFrom, later]
          cases part <;> rfl
      | some c =>
          have more : (some c :: read).reverse.filterMap id = part ++ [c] := by
            rw [List.reverse_cons, List.filterMap_append, same]
            rfl
          rw [List.splitOnPPrepend_cons_neg rfl, wordsFrom,
            inductionHypothesis (part ++ [c]) (some c :: read) more]

/-- What has been read is a part of a word. -/
theorem length_part_lt {bound : Nat} (positive : 0 < bound)
    (short : ∀ word ∈ wordsFrom part parts, word.length < bound) :
    part.length < bound := by
  induction parts generalizing part with
  | nil =>
      cases part with
      | nil => exact positive
      | cons c part => exact short (c :: part) List.mem_cons_self
  | cons unit parts inductionHypothesis =>
      cases unit with
      | none =>
          cases part with
          | nil => exact positive
          | cons c part => exact short (c :: part) List.mem_cons_self
      | some c =>
          have longer := inductionHypothesis short
          rw [List.length_append] at longer
          omega

/-- The characters of the words are those that the line stands for. -/
theorem character_of_word {word : List UInt8} {c : UInt8}
    (found : word ∈ wordsFrom part parts) (member : c ∈ word) :
    c ∈ part ∨ some c ∈ parts := by
  induction parts generalizing part with
  | nil =>
      cases part with
      | nil => exact absurd found List.not_mem_nil
      | cons first part =>
          rw [List.mem_singleton.mp found] at member
          exact Or.inl member
  | cons unit parts inductionHypothesis =>
      cases unit with
      | none =>
          have later : word ∈ wordsFrom [] parts → some c ∈ none :: parts := by
            intro behind
            rcases inductionHypothesis behind with old | new
            · exact absurd old List.not_mem_nil
            · exact List.mem_cons_of_mem _ new
          cases part with
          | nil => exact Or.inr (later found)
          | cons first part =>
              rcases List.mem_cons.mp found with here | behind
              · exact Or.inl (here ▸ member)
              · exact Or.inr (later behind)
      | some d =>
          rcases inductionHypothesis found with old | new
          · rcases List.mem_append.mp old with before | same
            · exact Or.inl before
            · exact Or.inr (List.mem_singleton.mp same ▸ List.mem_cons_self)
          · exact Or.inr (List.mem_cons_of_mem _ new)

theorem some_mem_unitOf {quote : Option UInt8} {c d : UInt8}
    (member : some d ∈ (unitOf quote c).1) : d = c := by
  unfold unitOf at member
  cases quote <;> grind

theorem some_mem_units {quote : Option UInt8} {line : List UInt8} {c : UInt8}
    (member : some c ∈ units quote line) : c ∈ line := by
  induction quote, line using units.induct with
  | case1 quote => exact absurd member List.not_mem_nil
  | case2 quote => exact absurd member List.not_mem_nil
  | case3 quote d plain =>
      rw [units, if_neg plain] at member
      exact List.mem_singleton.mpr (some_mem_unitOf member)
  | case4 quote next rest inductionHypothesis =>
      rw [units, if_pos rfl] at member
      rcases List.mem_cons.mp member with here | behind
      · cases here
        exact List.mem_cons_of_mem _ List.mem_cons_self
      · exact List.mem_cons_of_mem _ (List.mem_cons_of_mem _ (inductionHypothesis behind))
  | case5 quote d next rest plain inductionHypothesis =>
      rw [units, if_neg plain] at member
      rcases List.mem_append.mp member with here | behind
      · exact some_mem_unitOf here ▸ List.mem_cons_self
      · exact List.mem_cons_of_mem _ (inductionHypothesis behind)

theorem words_eq (line : List UInt8) : words line = wordsFrom [] (units none line) :=
  (wordsFrom_eq [] [] rfl).symm

/-- No word is empty. -/
theorem words_nonempty {line word : List UInt8} (member : word ∈ words line) : word ≠ [] := by
  have kept := (List.mem_filter.mp member).2
  intro empty
  rw [empty] at kept
  exact absurd kept Bool.false_ne_true

end Words

section Scanning

variable {s : Scanner} {blocks : List (List UInt8)} {part : List UInt8}
  {found : List (List UInt8)}

/-- The quote that is open. -/
def Mode.quote : Mode → Option UInt8
  | .normal => none
  | .squote => some 39
  | .dquote => some 34

/-- The buffer holds a part of a word, and each of the words that are complete is a
string in a block of its own. -/
structure Holds (blocks : List (List UInt8)) (part : List UInt8)
    (found : List (List UInt8)) (s : Scanner) : Prop where
  memory : ∃ token, s.objects = token :: (blocks ++ found.map (· ++ [0])) ∧
    token.length = tokenMax ∧ token.take s.n = part
  length : s.n = part.length
  tokens : s.tokens = List.range' (blocks.length + 1) found.length
  nonzero : 0 ∉ part

/-- The copy of a string has its terminating null byte. -/
theorem strncpy_terminated {word behind : List UInt8} (nonzero : 0 ∉ word) :
    strncpy (word ++ 0 :: behind) (word.length + 1) = word ++ [0] := by
  have taken : (word ++ 0 :: behind).take (word.length + 1) = word ++ [0] := by
    rw [List.take_append, List.take_of_length_le (Nat.le_succ _), Nat.add_sub_cancel_left]
    rfl
  have string : (word ++ [0]).takeWhile (· ≠ 0) = word := by
    have all : ∀ c ∈ word, decide (c ≠ 0) = true :=
      fun c member => decide_eq_true fun zero => nonzero (zero ▸ member)
    rw [List.takeWhile_append_of_pos all]
    simp
  unfold strncpy
  rw [taken, string]
  dsimp only
  rw [Nat.add_sub_cancel_left]
  rfl

/-- A store puts a byte behind the part that is used. -/
theorem token_set {token : List UInt8} (c : UInt8) (used : token.take s.n = part)
    (inside : s.n < token.length) :
    token.set s.n c = part ++ c :: token.drop (s.n + 1) := by
  rw [List.set_eq_take_append_cons_drop, if_pos inside, used]

theorem Holds.store {c : UInt8} (holds : Holds blocks part found s)
    (short : part.length < tokenMax) (charNonzero : c ≠ 0) :
    ∃ after, s.store c = .ok after ∧ after.mode = s.mode ∧
      Holds blocks (part ++ [c]) found after := by
  rcases holds.memory with ⟨token, objects, size, used⟩
  have inside : s.n < token.length := by
    rw [size, holds.length]
    exact short
  have stored : s.poke c = .ok { s with
      objects := (part ++ c :: token.drop (s.n + 1)) :: (blocks ++ found.map (· ++ [0])) } := by
    rw [Scanner.poke, if_pos (size ▸ inside), objects, List.modify_zero_cons,
      token_set c used inside]
  rw [Scanner.store, stored]
  refine ⟨_, rfl, rfl, ⟨_, rfl, ?_, ?_⟩, ?_, holds.tokens, ?_⟩
  · rw [← token_set c used inside, List.length_set, size]
  · rw [holds.length, List.take_append, List.take_of_length_le (Nat.le_succ _),
      Nat.add_sub_cancel_left]
    rfl
  · rw [List.length_append, ← holds.length]
    rfl
  · rw [List.mem_append, List.mem_singleton]
    intro either
    rcases either with old | new
    · exact holds.nonzero old
    · exact charNonzero new.symm

theorem Holds.copyWord (holds : Holds blocks part found s) (short : part.length < tokenMax) :
    ∃ after, s.copyWord = .ok after ∧ after.mode = s.mode ∧
      Holds blocks [] (found ++ [part]) after := by
  rcases holds.memory with ⟨token, objects, size, used⟩
  have inside : s.n < token.length := by
    rw [size, holds.length]
    exact short
  have stored : s.poke 0 = .ok { s with
      objects := (part ++ 0 :: token.drop (s.n + 1)) :: (blocks ++ found.map (· ++ [0])) } := by
    rw [Scanner.poke, if_pos (size ▸ inside), objects, List.modify_zero_cons,
      token_set 0 used inside]
  rw [Scanner.copyWord, stored]
  refine ⟨_, rfl, rfl, ⟨part ++ 0 :: token.drop (s.n + 1), ?_, ?_, rfl⟩, rfl, ?_, List.not_mem_nil⟩
  · have copied : strncpy (part ++ 0 :: token.drop (s.n + 1)) (s.n + 1) = part ++ [0] := by
      rw [holds.length]
      exact strncpy_terminated holds.nonzero
    dsimp only
    rw [List.getD_cons_zero, copied, List.map_append, List.map_singleton, List.cons_append, List.append_assoc]
  · rw [← token_set 0 used inside, List.length_set, size]
  · dsimp only
    rw [holds.tokens, List.length_append, List.length_singleton, List.range'_concat,
      List.length_cons, List.length_append, List.length_map, Nat.one_mul,
      Nat.add_right_comm]

/-- A character that is not a backslash does to the scanner what it stands for. -/
theorem Holds.character {c : UInt8} (holds : Holds blocks part found s)
    (short : part.length < tokenMax) (charNonzero : c ≠ 0) (parts : List (Option UInt8)) :
    ∃ after, s.character c = .ok after ∧
      after.mode.quote = (unitOf s.mode.quote c).2 ∧ ∃ part' found',
        Holds blocks part' found' after ∧ (∀ word ∈ found', word ∈ found ∨ word = part) ∧
          found' ++ wordsFrom part' parts =
            found ++ wordsFrom part ((unitOf s.mode.quote c).1 ++ parts) := by
  have old : ∀ word ∈ found, word ∈ found ∨ word = part := fun word member => Or.inl member
  have quoted : ∀ mode, Holds blocks part found { s with mode := mode } :=
    fun mode => ⟨holds.memory, holds.length, holds.tokens, holds.nonzero⟩
  rcases holds.store short charNonzero with ⟨stored, run, same, more⟩
  unfold Scanner.character
  cases mode : s.mode with
  | normal =>
      by_cases squote : c = 39
      · rw [if_pos squote, squote]
        exact ⟨_, rfl, rfl, part, found, quoted _, old, rfl⟩
      · by_cases dquote : c = 34
        · rw [if_neg squote, if_pos dquote, dquote]
          exact ⟨_, rfl, rfl, part, found, quoted _, old, rfl⟩
        · have plain : ¬(c = 39 ∨ c = 34) := not_or.mpr ⟨squote, dquote⟩
          by_cases space : isSpace c = true
          · have unit : unitOf Mode.normal.quote c = ([none], none) := by
              rw [Mode.quote, unitOf, if_neg plain, if_pos space]
            rw [if_neg squote, if_neg dquote, if_pos space, unit, List.singleton_append, wordsFrom]
            by_cases used : 0 < s.n
            · rcases holds.copyWord short with ⟨after, copied, sameMode, word⟩
              have notEmpty : part.isEmpty = false := by
                rw [holds.length] at used
                exact List.isEmpty_eq_false_iff.mpr (List.ne_nil_of_length_pos used)
              rw [if_pos used, notEmpty]
              refine ⟨after, copied, by rw [sameMode, mode]; rfl, _, _, word, ?_, ?_⟩
              · intro other member
                rcases List.mem_append.mp member with before | new
                · exact Or.inl before
                · exact Or.inr (List.mem_singleton.mp new)
              · rw [List.append_assoc]
                rfl
            · have empty : part = [] := by
                rw [holds.length] at used
                exact List.length_eq_zero_iff.mp (Nat.eq_zero_of_not_pos used)
              rw [if_neg used]
              refine ⟨s, rfl, by rw [mode]; rfl, part, found, holds, old, ?_⟩
              rw [empty]
              rfl
          · have unit : unitOf Mode.normal.quote c = ([some c], none) := by
              rw [Mode.quote, unitOf, if_neg plain, if_neg space]
            rw [if_neg squote, if_neg dquote, if_neg space, unit]
            exact ⟨stored, run, by rw [same, mode]; rfl, _, _, more, old, rfl⟩
  | squote =>
      dsimp only
      by_cases squote : c = 39
      · rw [if_pos squote, squote]
        exact ⟨_, rfl, rfl, part, found, quoted _, old, rfl⟩
      · have unit : unitOf Mode.squote.quote c = ([some c], some 39) := by
          rw [Mode.quote, unitOf, if_neg squote]
        rw [if_neg squote, unit]
        exact ⟨stored, run, by rw [same, mode]; rfl, _, _, more, old, rfl⟩
  | dquote =>
      dsimp only
      by_cases dquote : c = 34
      · rw [if_pos dquote, dquote]
        exact ⟨_, rfl, rfl, part, found, quoted _, old, rfl⟩
      · have unit : unitOf Mode.dquote.quote c = ([some c], some 34) := by
          rw [Mode.quote, unitOf, if_neg dquote]
        rw [if_neg dquote, unit]
        exact ⟨stored, run, by rw [same, mode]; rfl, _, _, more, old, rfl⟩

/-- The test passes if the part is short enough. -/
theorem Holds.check (holds : Holds blocks part found s)
    (short : part.length + 1 < tokenMax) : s.check = .ok s := by
  rw [Scanner.check, if_neg]
  rw [holds.length]
  exact Nat.not_le.mpr short

/-- A part of a word is shorter than the bound of the words. -/
theorem length_part_succ_lt {parts : List (Option UInt8)}
    (short : ∀ word ∈ wordsFrom part parts, word.length + 1 < tokenMax) :
    part.length + 1 < tokenMax := by
  have less : part.length < 4095 :=
    length_part_lt (by omega) fun word member => Nat.lt_of_succ_lt_succ (short word member)
  exact Nat.succ_lt_succ less

theorem Holds.check_abort (holds : Holds blocks part found s)
    (long : tokenMax ≤ part.length + 1) : s.check = .error .abort := by
  rw [Scanner.check, if_pos]
  rw [holds.length]
  exact long

/-- At the end of the line no word is too long, if none has been. -/
theorem no_long_word (shortPart : part.length + 1 < tokenMax)
    (shortFound : ∀ word ∈ found, word.length + 1 < tokenMax) :
    ¬∃ word ∈ found ++ wordsFrom part [], tokenMax ≤ word.length + 1 := by
  intro ⟨word, member, tooLong⟩
  rcases List.mem_append.mp member with old | last
  · have short := shortFound word old
    omega
  · rw [wordsFrom] at last
    split_ifs at last
    · exact List.not_mem_nil last
    · rw [List.mem_singleton.mp last] at tooLong
      omega

/-- Words that are complete are short. -/
theorem short_of_kept {found' : List (List UInt8)} (shortPart : part.length + 1 < tokenMax)
    (shortFound : ∀ word ∈ found, word.length + 1 < tokenMax)
    (kept : ∀ word ∈ found', word ∈ found ∨ word = part) :
    ∀ word ∈ found', word.length + 1 < tokenMax := by
  intro word member
  rcases kept word member with old | new
  · exact shortFound word old
  · rw [new]
    exact shortPart

/-- A part that is too long is the start of a word that is. -/
theorem exists_long {parts : List (Option UInt8)} (tooLong : ¬part.length + 1 < tokenMax) :
    ∃ word ∈ found ++ wordsFrom part parts, tokenMax ≤ word.length + 1 := by
  by_contra none
  apply tooLong
  apply length_part_succ_lt
  intro word member
  by_contra long
  exact none ⟨word, List.mem_append_right found member, Nat.le_of_not_lt long⟩

/-- The loop reads what the rest of the line stands for, or aborts because a word that is to
come is too long.  The quote that is open, the part of a word and the words that are complete
go from round to round. -/
theorem Holds.tokenizeLoop_cases {quote : Option UInt8} {rest : List UInt8}
    (holds : Holds blocks part found s) (mode : s.mode.quote = quote) (nonzero : 0 ∉ rest)
    (shortPart : part.length + 1 < tokenMax)
    (shortFound : ∀ word ∈ found, word.length + 1 < tokenMax) :
    (∃ after, tokenizeLoop s rest = .ok after ∧ ∃ part' found',
      Holds blocks part' found' after ∧ part'.length + 1 < tokenMax ∧
        (∀ word ∈ found', word.length + 1 < tokenMax) ∧
        found' ++ wordsFrom part' [] = found ++ wordsFrom part (units quote rest)) ∨
    tokenizeLoop s rest = .error .abort ∧
      ∃ word ∈ found ++ wordsFrom part (units quote rest), tokenMax ≤ word.length + 1 := by
  induction quote, rest using units.induct generalizing s part found with
  | case1 quote => exact Or.inl ⟨s, rfl, part, found, holds, shortPart, shortFound, rfl⟩
  | case2 quote =>
      exact Or.inl ⟨s, holds.check shortPart, part, found, holds, shortPart, shortFound, rfl⟩
  | case3 quote c plain =>
      have charNonzero : c ≠ 0 := fun zero => nonzero (zero ▸ List.mem_singleton_self c)
      rcases holds.character (Nat.lt_of_succ_lt shortPart) charNonzero [] with
        ⟨after, run, quoteAfter, part', found', later, kept, same⟩
      have single : units quote [c] = (unitOf quote c).1 ++ [] := by
        rw [units, if_neg plain, List.append_nil]
      rw [mode] at same
      rw [single, ← same, tokenizeLoop, if_neg plain, bind_of_ok run]
      by_cases short : part'.length + 1 < tokenMax
      · exact Or.inl ⟨after, later.check short, part', found', later, short,
          short_of_kept shortPart shortFound kept, rfl⟩
      · exact Or.inr ⟨later.check_abort (Nat.le_of_not_lt short), exists_long short⟩
  | case4 quote next rest inductionHypothesis =>
      have charNonzero : next ≠ 0 :=
        fun zero => nonzero (zero ▸ List.mem_cons_of_mem _ List.mem_cons_self)
      have nonzeroRest : 0 ∉ rest := fun member =>
        nonzero (List.mem_cons_of_mem _ (List.mem_cons_of_mem _ member))
      rcases holds.store (Nat.lt_of_succ_lt shortPart) charNonzero with
        ⟨stored, run, sameMode, later⟩
      rw [tokenizeLoop, if_pos rfl, bind_of_ok run]
      by_cases short : (part ++ [next]).length + 1 < tokenMax
      · rw [bind_of_ok (later.check short)]
        exact inductionHypothesis later (sameMode ▸ mode) nonzeroRest short shortFound
      · have long : ∃ word ∈ found ++ wordsFrom (part ++ [next]) (units quote rest),
            tokenMax ≤ word.length + 1 := exists_long short
        rw [later.check_abort (Nat.le_of_not_lt short)]
        exact Or.inr ⟨rfl, long⟩
  | case5 quote c next rest plain inductionHypothesis =>
      have charNonzero : c ≠ 0 := fun zero => nonzero (zero ▸ List.mem_cons_self)
      have nonzeroRest : 0 ∉ next :: rest := fun member =>
        nonzero (List.mem_cons_of_mem _ member)
      rcases holds.character (Nat.lt_of_succ_lt shortPart) charNonzero
          (units (unitOf quote c).2 (next :: rest)) with
        ⟨after, run, quoteAfter, part', found', later, kept, same⟩
      have more : units quote (c :: next :: rest) =
          (unitOf quote c).1 ++ units (unitOf quote c).2 (next :: rest) := by
        rw [units, if_neg plain]
      rw [mode] at same quoteAfter
      rw [more, ← same, tokenizeLoop, if_neg plain, bind_of_ok run]
      by_cases short : part'.length + 1 < tokenMax
      · rw [bind_of_ok (later.check short)]
        exact inductionHypothesis later quoteAfter nonzeroRest short
          (short_of_kept shortPart shortFound kept)
      · rw [later.check_abort (Nat.le_of_not_lt short)]
        exact Or.inr ⟨rfl, exists_long short⟩

/-- The part of a line that is tokenized. -/
def textOf (line : List UInt8) : List UInt8 := line.takeWhile (· ≠ 0)

theorem textOf_nonzero (line : List UInt8) : 0 ∉ textOf line := by
  intro member
  have kept := List.mem_takeWhile_imp member
  exact absurd rfl (of_decide_eq_true kept)

/-- A word is a string that is not empty. -/
theorem words_text {line word : List UInt8} (member : word ∈ words (textOf line)) :
    word ≠ [] ∧ 0 ∉ word := by
  refine ⟨words_nonempty member, fun zero => ?_⟩
  rw [words_eq] at member
  rcases character_of_word member zero with none | inLine
  · exact List.not_mem_nil none
  · exact textOf_nonzero line (some_mem_units inLine)

section Lines

variable {token line : List UInt8} {blocks : List (List UInt8)}

theorem holds_start (size : token.length = tokenMax) :
    Holds blocks [] [] { objects := token :: blocks } :=
  ⟨⟨token, by rw [List.map_nil, List.append_nil], size, List.take_zero⟩, rfl, rfl, List.not_mem_nil⟩

/-- If all words are short, each of them gets a block. -/
theorem tokenize_of_short (size : token.length = tokenMax)
    (short : ∀ word ∈ words (textOf line), word.length < 4095) :
    ∃ token', token'.length = tokenMax ∧ tokenize (token :: blocks) line =
      .ok (List.range' (blocks.length + 1) (words (textOf line)).length,
        token' :: (blocks ++ (words (textOf line)).map (· ++ [0]))) := by
  have shortWords : ∀ word ∈ [] ++ wordsFrom [] (units none (textOf line)),
      word.length + 1 < tokenMax := by
    intro word member
    rw [List.nil_append, ← words_eq] at member
    exact Nat.succ_lt_succ (short word member)
  have closed : Mode.normal.quote = none := rfl
  rcases (@holds_start token blocks size).tokenizeLoop_cases closed (textOf_nonzero line)
      (by decide) (fun word none => absurd none List.not_mem_nil) with
    ⟨after, run, part, found, holds, shortPart, _, same⟩ | ⟨_, word, member, tooLong⟩
  swap
  · exact absurd (shortWords word member) (Nat.not_lt.mpr tooLong)
  rw [List.nil_append, ← words_eq] at same
  unfold tokenize
  rw [← textOf, bind_of_ok run]
  by_cases used : 0 < after.n
  · rcases holds.copyWord (Nat.lt_of_succ_lt shortPart) with ⟨last, copied, _, word⟩
    have notEmpty : part.isEmpty = false := by
      rw [holds.length] at used
      exact List.isEmpty_eq_false_iff.mpr (List.ne_nil_of_length_pos used)
    have all : found ++ [part] = words (textOf line) := by
      rw [← same, wordsFrom, notEmpty]
      rfl
    rcases word.memory with ⟨token', objects, size', _⟩
    refine ⟨token', size', ?_⟩
    rw [if_pos used, copied, ← all, ← objects, ← word.tokens]
    rfl
  · have empty : part = [] := by
      rw [holds.length] at used
      exact List.length_eq_zero_iff.mp (Nat.eq_zero_of_not_pos used)
    have all : found = words (textOf line) := by
      rw [← same, empty]
      exact (List.append_nil found).symm
    rcases holds.memory with ⟨token', objects, size', _⟩
    refine ⟨token', size', ?_⟩
    rw [if_neg used, ← all, ← objects, ← holds.tokens]
    rfl

/-- A word that is too long ends the program. -/
theorem tokenize_of_long (size : token.length = tokenMax)
    (long : ∃ word ∈ words (textOf line), 4095 ≤ word.length) :
    tokenize (token :: blocks) line = .error .abort := by
  have longWord : ∃ word ∈ [] ++ wordsFrom [] (units none (textOf line)),
      tokenMax ≤ word.length + 1 := by
    rcases long with ⟨word, member, tooLong⟩
    rw [words_eq] at member
    exact ⟨word, member, Nat.succ_le_succ tooLong⟩
  have closed : Mode.normal.quote = none := rfl
  rcases (@holds_start token blocks size).tokenizeLoop_cases closed (textOf_nonzero line)
      (by decide) (fun word none => absurd none List.not_mem_nil) with
    ⟨_, _, part, found, _, shortPart, shortFound, same⟩ | ⟨aborts, _⟩
  · rw [← same] at longWord
    exact absurd longWord (no_long_word shortPart shortFound)
  · unfold tokenize
    rw [← textOf, aborts]
    rfl

theorem lineTokens_of_short (short : ∀ word ∈ words (textOf line), word.length < 4095) :
    lineTokens line = .ok (words (textOf line)) := by
  rcases @tokenize_of_short emptyToken line [] List.length_replicate short with ⟨token', _, run⟩
  rw [lineTokens, bind_of_ok run]
  apply congrArg Except.ok
  apply List.ext_getElem
  · rw [List.length_map, List.length_range']
  · intro i inside there
    have text := words_text (List.getElem_mem there)
    have all : ∀ c ∈ (words (textOf line))[i], decide (c ≠ 0) = true :=
      fun c member => decide_eq_true fun zero => text.2 (zero ▸ member)
    rw [List.getElem_map, List.getElem_range', List.length_nil, Nat.zero_add, Nat.one_mul,
      Nat.add_comm 1 i, List.getD_cons_succ, List.nil_append, List.getD_eq_getElem?_getD,
      List.getElem?_map, List.getElem?_eq_getElem there, Option.map_some, Option.getD_some,
      List.takeWhile_append_of_pos all]
    exact List.append_nil _

theorem lineTokens_of_long (long : ∃ word ∈ words (textOf line), 4095 ≤ word.length) :
    lineTokens line = .error .abort := by
  have aborts := @tokenize_of_long emptyToken line [] List.length_replicate long
  rw [lineTokens, aborts]
  rfl

end Lines

/-- `tokenize` splits every line without a word of 4095 characters into its words.  Each
of them is a string in a new block, and no object but the buffer changes. -/
theorem tokenize_splits (token line : List UInt8) (blocks : List (List UInt8))
    (size : token.length = tokenMax) (short : ∀ word ∈ words (textOf line), word.length < 4095) :
    let split := words (textOf line)
    (∃ token', token'.length = tokenMax ∧ tokenize (token :: blocks) line =
      .ok (List.range' (blocks.length + 1) split.length,
        token' :: (blocks ++ split.map (· ++ [0])))) ∧
    ∀ word ∈ split, word ≠ [] ∧ 0 ∉ word :=
  ⟨tokenize_of_short size short, fun _ => words_text⟩

/-- Two words, of which the second one is made of three pieces. -/
def twoWords : List UInt8 := [32, 97, 32, 98, 39, 32, 34, 39, 92]

theorem tokenize_splits_twoWords :
    words twoWords = [[97], [98, 32, 34]] ∧ ∃ token', token'.length = tokenMax ∧
      tokenize [emptyToken] twoWords = .ok ([1, 2], [token', [97, 0], [98, 32, 34, 0]]) := by
  have split : words (textOf twoWords) = [[97], [98, 32, 34]] := by decide +kernel
  have short : ∀ word ∈ words (textOf twoWords), word.length < 4095 := by
    rw [split]
    decide
  have result := (tokenize_splits emptyToken twoWords [] List.length_replicate short).1
  rw [split] at result
  exact ⟨by decide +kernel, result⟩

end Scanning

end CS162.HwShell

import Mathlib.Data.List.Basic
import Mathlib.Data.List.TakeWhile

/-!
# Splitting a string

`strtok_r` of `lib/string.c`, with the `strchr` that it calls.  The buffer holds the
string with its null byte and nothing else; an access behind it fails.
-/

namespace CS162.Lib

/-- `strchr`, with the offset that it has come to.  The null byte behind the list is
part of the string. -/
def strchr : List UInt8 → UInt8 → Nat → Option Nat
  | [], c, i => if c = 0 then some i else none
  | x :: rest, c, i =>
      if x = c then some i else if x = 0 then none else strchr rest c (i + 1)

/-- The string and what `save_ptr` points to. -/
structure Strtok where
  buffer : List UInt8
  save : Nat
  deriving DecidableEq

/-- The loop that skips delimiters, from an offset on: whether it has found another
character, and where it has come to. -/
def skipDelimiters (delimiters : List UInt8) : List UInt8 → Nat → Option (Bool × Nat)
  | [], _ => none
  | c :: rest, s =>
      if (strchr delimiters c 0).isSome then
        if c = 0 then some (false, s) else skipDelimiters delimiters rest (s + 1)
      else some (true, s)

/-- The loop that skips the other characters. -/
def skipToken (delimiters : List UInt8) : List UInt8 → Nat → Option Nat
  | [], _ => none
  | c :: rest, s =>
      if (strchr delimiters c 0).isNone then skipToken delimiters rest (s + 1)
      else some s

/-- `strtok_r`, for the string itself or a null pointer: the offset of the token, if
there is one. -/
def strtokR (st : Strtok) (s : Option Nat) (delimiters : List UInt8) :
    Option (Strtok × Option Nat) :=
  let s := s.getD st.save
  (skipDelimiters delimiters (st.buffer.drop s) s).bind fun (found, s) =>
    if found then
      (skipToken delimiters (st.buffer.drop s) s).bind fun stop =>
        (st.buffer[stop]?).bind fun c =>
          if c ≠ 0 then some (⟨st.buffer.set stop 0, stop + 1⟩, some s)
          else some (⟨st.buffer, stop⟩, some s)
    else some (⟨st.buffer, s⟩, none)

/-- A call of `strtok_r`, which begins at an offset. -/
structure StrtokCall where
  delimiters : List UInt8
  start : Nat
  before : Strtok
  after : Strtok
  result : Option Nat

/-- Calls with one set of delimiters after the other. -/
def strtokCalls : Strtok → Option Nat → List (List UInt8) → Option (List StrtokCall)
  | _, _, [] => some []
  | st, s, delimiters :: rest =>
      (strtokR st s delimiters).bind fun (after, result) =>
        (strtokCalls after none rest).map fun calls =>
          ⟨delimiters, s.getD st.save, st, after, result⟩ :: calls

/-- The string at an offset. -/
def stringFrom (buffer : List UInt8) (start : Nat) : List UInt8 :=
  (buffer.drop start).takeWhile (· ≠ 0)

/-- What a call does with the part of the text that is left. -/
inductive StrtokCall.Splits (text : List UInt8) (call : StrtokCall) : Prop
  /-- Only delimiters are left. -/
  | none :
      (∀ c ∈ text.drop call.start, c ∈ call.delimiters) →
      call.result = .none →
      call.after = ⟨call.before.buffer, text.length⟩ →
      Splits text call
  /-- The token ends with the text. -/
  | last (skipped token : List UInt8) :
      text.drop call.start = skipped ++ token →
      (∀ c ∈ skipped, c ∈ call.delimiters) →
      token ≠ [] →
      (∀ c ∈ token, c ∉ call.delimiters) →
      call.result = some (call.start + skipped.length) →
      call.after = ⟨call.before.buffer, text.length⟩ →
      stringFrom call.after.buffer (call.start + skipped.length) = token →
      Splits text call
  /-- A delimiter behind the token is overwritten. -/
  | token (skipped token rest : List UInt8) (delimiter : UInt8) :
      text.drop call.start = skipped ++ token ++ delimiter :: rest →
      (∀ c ∈ skipped, c ∈ call.delimiters) →
      token ≠ [] →
      (∀ c ∈ token, c ∉ call.delimiters) →
      delimiter ∈ call.delimiters →
      call.before.buffer[call.start + skipped.length + token.length]? = some delimiter →
      call.result = some (call.start + skipped.length) →
      call.after = ⟨call.before.buffer.set (call.start + skipped.length + token.length) 0,
          call.start + skipped.length + token.length + 1⟩ →
      stringFrom call.after.buffer (call.start + skipped.length) = token →
      Splits text call

/-- The calls split the text: each begins where the one before has stopped, nothing is
found behind the end, and the tokens stay where they are. -/
structure SplitsAll (text : List UInt8) (calls : List StrtokCall) : Prop where
  splits : ∀ call ∈ calls, call.Splits text
  first : ∀ call ∈ calls.head?, call.start = 0
  next : calls.IsChain fun call later =>
      later.start = call.after.save ∧ later.before = call.after
  ended : calls.Pairwise fun call later =>
      call.after.save = text.length → later.result = none
  kept : calls.Pairwise fun call later =>
      ∀ start ∈ call.result,
        stringFrom later.after.buffer start = stringFrom call.after.buffer start

section Scanning

variable {delimiters : List UInt8}

theorem strchr_isSome (nonzero : 0 ∉ delimiters) (c : UInt8) (i : Nat) :
    (strchr delimiters c i).isSome = true ↔ c = 0 ∨ c ∈ delimiters := by
  induction delimiters generalizing i with
  | nil =>
      rw [strchr]
      by_cases zero : c = 0 <;> simp [zero]
  | cons x rest inductionHypothesis =>
      rcases not_or.mp (mt List.mem_cons.mpr nonzero) with ⟨first, others⟩
      rw [strchr]
      by_cases same : x = c
      · simp [same]
      · rw [if_neg same, if_neg (Ne.symm first), inductionHypothesis others, List.mem_cons]
        simp [Ne.symm same]

/-- The first loop passes delimiters and stops at another character. -/
theorem skipDelimiters_append {skipped rest : List UInt8} {c : UInt8}
    (nonzero : 0 ∉ delimiters) (all : ∀ x ∈ skipped, x ∈ delimiters)
    (other : c = 0 ∨ c ∉ delimiters) (s : Nat) :
    skipDelimiters delimiters (skipped ++ c :: rest) s =
      some (decide (c ≠ 0), s + skipped.length) := by
  induction skipped generalizing s with
  | nil =>
      rw [List.nil_append, skipDelimiters]
      have found := strchr_isSome nonzero c 0
      by_cases zero : c = 0
      · rw [if_pos (found.mpr (Or.inl zero)), if_pos zero]
        simp [zero]
      · have missing : ¬(strchr delimiters c 0).isSome = true := by
          rw [found]
          intro either
          rcases either with stop | member
          · exact zero stop
          · exact (other.resolve_left zero) member
        rw [if_neg missing]
        simp [zero]
  | cons x skipped inductionHypothesis =>
      have member := all x List.mem_cons_self
      have found := (strchr_isSome nonzero x 0).mpr (Or.inr member)
      have notEnd : x ≠ 0 := fun zero => nonzero (zero ▸ member)
      have later := inductionHypothesis
        (fun y inside => all y (List.mem_cons_of_mem x inside)) (s + 1)
      rw [List.cons_append, skipDelimiters, if_pos found, if_neg notEnd, later,
        List.length_cons, Nat.add_assoc, Nat.add_comm 1]

/-- The second loop passes other characters and stops at a delimiter. -/
theorem skipToken_append {token rest : List UInt8} {c : UInt8}
    (nonzero : 0 ∉ delimiters) (tokenNonzero : 0 ∉ token)
    (all : ∀ x ∈ token, x ∉ delimiters) (stop : c = 0 ∨ c ∈ delimiters) (s : Nat) :
    skipToken delimiters (token ++ c :: rest) s = some (s + token.length) := by
  induction token generalizing s with
  | nil =>
      have found := (strchr_isSome nonzero c 0).mpr stop
      have some : ¬(strchr delimiters c 0).isNone = true := by
        rw [Option.isNone_eq_false_iff.mpr found]
        exact Bool.false_ne_true
      rw [List.nil_append, skipToken, if_neg some]
      rfl
  | cons x token inductionHypothesis =>
      rcases not_or.mp (mt List.mem_cons.mpr tokenNonzero) with ⟨first, others⟩
      have missing : (strchr delimiters x 0).isNone = true := by
        rw [← Option.not_isSome, Bool.not_eq_true', ← Bool.not_eq_true, strchr_isSome nonzero]
        intro either
        rcases either with zero | member
        · exact first zero.symm
        · exact all x List.mem_cons_self member
      have later := inductionHypothesis others
        (fun y inside => all y (List.mem_cons_of_mem x inside)) (s + 1)
      rw [List.cons_append, skipToken, if_pos missing, later, List.length_cons,
        Nat.add_assoc, Nat.add_comm 1]

/-- A text consists of delimiters, or has a first run of other characters. -/
theorem exists_token (delimiters text : List UInt8) :
    (∀ c ∈ text, c ∈ delimiters) ∨
      ∃ skipped token left, text = skipped ++ token ++ left ∧
        (∀ c ∈ skipped, c ∈ delimiters) ∧ token ≠ [] ∧
          (∀ c ∈ token, c ∉ delimiters) ∧ ∀ c ∈ left.head?, c ∈ delimiters := by
  induction text with
  | nil =>
      apply Or.inl
      intro c member
      cases member
  | cons c text inductionHypothesis =>
      by_cases delimiter : c ∈ delimiters
      · rcases inductionHypothesis with all | ⟨skipped, token, left, split, skips, rest⟩
        · apply Or.inl
          intro x member
          rcases List.mem_cons.mp member with same | inside
          · rw [same]
            exact delimiter
          · exact all x inside
        · refine Or.inr ⟨c :: skipped, token, left, ?_, ?_, rest⟩
          · rw [split]
            rfl
          · intro x member
            rcases List.mem_cons.mp member with same | inside
            · rw [same]
              exact delimiter
            · exact skips x inside
      · let other : UInt8 → Bool := fun x => decide (x ∉ delimiters)
        refine Or.inr ⟨[], c :: text.takeWhile other, text.dropWhile other, ?_, ?_, ?_, ?_, ?_⟩
        · rw [List.nil_append, List.cons_append, List.takeWhile_append_dropWhile]
        · intro x member
          cases member
        · exact List.cons_ne_nil _ _
        · intro x member
          rcases List.mem_cons.mp member with same | inside
          · rw [same]
            exact delimiter
          · have passes : other x = true := List.mem_takeWhile_imp inside
            exact of_decide_eq_true passes
        · intro x head
          have stops := List.head?_dropWhile_not other text
          rw [Option.mem_def.mp head] at stops
          exact not_not.mp (of_decide_eq_false stops)

end Scanning

section Calls

variable {text buffer : List UInt8} {start : Nat}

/-- From an offset on, the buffer holds the text as it was. -/
structure Holds (text buffer : List UInt8) (start : Nat) : Prop where
  inside : start ≤ text.length
  length : buffer.length = text.length + 1
  rest : buffer.drop start = text.drop start ++ [0]

theorem stringFrom_append {front token rest : List UInt8} (nonzero : 0 ∉ token) :
    stringFrom (front ++ token ++ 0 :: rest) front.length = token := by
  have all : ∀ c ∈ token, decide (c ≠ 0) = true := by
    intro c member
    apply decide_eq_true
    intro zero
    exact nonzero (zero ▸ member)
  rw [stringFrom, List.append_assoc, List.drop_left, List.takeWhile_append_of_pos all]
  simp

/-- A string that ends before a place is the same in a buffer that agrees up to
there. -/
theorem stringFrom_congr {other : List UInt8} {place : Nat}
    (same : other.take place = buffer.take place) (within : place ≤ buffer.length)
    (short : start + (stringFrom buffer start).length < place) :
    stringFrom other start = stringFrom buffer start := by
  have taken : (buffer.take place).length = place := List.length_take_of_le within
  have cut (list : List UInt8) (agrees : list.take place = buffer.take place) :
      list.drop start = (buffer.take place).drop start ++ list.drop place := by
    rw [← List.drop_append_of_le_length (by omega), ← agrees, List.take_append_drop]
  have whole := cut buffer rfl
  have length : ((buffer.take place).drop start).length = place - start := by
    rw [List.length_drop, taken]
  have partly : (((buffer.take place).drop start).takeWhile (· ≠ 0)).length ≠
      ((buffer.take place).drop start).length := by
    intro all
    rw [stringFrom, whole, List.takeWhile_append, if_pos all, List.length_append] at short
    omega
  rw [stringFrom, stringFrom, cut other same, whole, List.takeWhile_append,
    if_neg partly, List.takeWhile_append, if_neg partly]

/-- What a call leaves of the part that has been scanned before. -/
structure Passes (text buffer : List UInt8) (start : Nat) (after : Strtok) : Prop where
  holds : Holds text after.buffer after.save
  forward : start ≤ after.save
  before : after.buffer.take start = buffer.take start

theorem Holds.take_append (holds : Holds text buffer start) :
    buffer = buffer.take start ++ (text.drop start ++ [0]) := by
  rw [← holds.rest, List.take_append_drop]

theorem Holds.length_take (holds : Holds text buffer start) :
    (buffer.take start).length = start := by
  have inside := holds.inside
  have length := holds.length
  exact List.length_take_of_le (by omega)

/-- At the end of the text only the null byte is left. -/
theorem Holds.at_end (holds : Holds text buffer start) : Holds text buffer text.length := by
  have inside := holds.inside
  have rest := congrArg (List.drop (text.length - start)) holds.rest
  have whole : start + (text.length - start) = text.length := by omega
  have all : (text.drop start).length = text.length - start := List.length_drop
  rw [List.drop_drop, whole, ← all, List.drop_left] at rest
  refine ⟨Nat.le_refl _, holds.length, ?_⟩
  rw [rest, List.drop_length]
  rfl

theorem Holds.passes_to_end (holds : Holds text buffer start) :
    Passes text buffer start ⟨buffer, text.length⟩ :=
  ⟨holds.at_end, holds.inside, rfl⟩

section Token

variable {st : Strtok} {s : Option Nat} {delimiters skipped token left : List UInt8}

/-- The buffer up to a token, the token, and what is behind it. -/
theorem Holds.buffer_split (holds : Holds text buffer start)
    (split : text.drop start = skipped ++ token ++ left) :
    buffer = buffer.take start ++ skipped ++ (token ++ (left ++ [0])) := by
  have cut := holds.take_append
  rw [split] at cut
  simp only [List.append_assoc] at cut ⊢
  exact cut

theorem Holds.length_front (holds : Holds text buffer start) (skipped : List UInt8) :
    (buffer.take start ++ skipped).length = start + skipped.length := by
  rw [List.length_append, holds.length_take]

theorem Holds.drop_token (holds : Holds text buffer start)
    (split : text.drop start = skipped ++ token ++ left) :
    buffer.drop (start + skipped.length) = token ++ (left ++ [0]) := by
  have cut := congrArg (List.drop (start + skipped.length)) (holds.buffer_split split)
  rw [← holds.length_front skipped, List.drop_left] at cut
  rw [← holds.length_front skipped]
  exact cut

/-- The characters of a token are not null. -/
theorem token_nonzero (textNonzero : 0 ∉ text)
    (split : text.drop start = skipped ++ token ++ left) : 0 ∉ token := by
  intro member
  apply textNonzero
  apply List.mem_of_mem_drop
  rw [split]
  exact List.mem_append_left left (List.mem_append_right skipped member)

/-- The first loop stops at the first character of a token. -/
theorem skipDelimiters_token (nonzero : 0 ∉ delimiters) (tokenNonzero : 0 ∉ token)
    (holds : Holds text buffer start) (split : text.drop start = skipped ++ token ++ left)
    (skips : ∀ c ∈ skipped, c ∈ delimiters) (some_token : token ≠ [])
    (others : ∀ c ∈ token, c ∉ delimiters) :
    skipDelimiters delimiters (buffer.drop start) start = some (true, start + skipped.length) := by
  cases token with
  | nil => exact absurd rfl some_token
  | cons c token =>
      have notEnd : c ≠ 0 := fun zero => tokenNonzero (zero ▸ List.mem_cons_self)
      have skip := @skipDelimiters_append delimiters skipped (token ++ (left ++ [0])) c
        nonzero skips (Or.inr (others c List.mem_cons_self)) start
      rw [decide_eq_true notEnd] at skip
      rw [holds.rest, split, List.append_assoc, List.append_assoc]
      exact skip

/-- Where only delimiters are left, there is no token. -/
theorem strtokR_none (nonzero : 0 ∉ delimiters) (begins : s.getD st.save = start)
    (holds : Holds text st.buffer start) (all : ∀ c ∈ text.drop start, c ∈ delimiters) :
    strtokR st s delimiters = some (⟨st.buffer, text.length⟩, none) := by
  have inside := holds.inside
  have skip := @skipDelimiters_append _ _ [] 0 nonzero all (Or.inl rfl) start
  have zero : decide ((0 : UInt8) ≠ 0) = false := by decide
  have stop : start + (text.drop start).length = text.length := by
    rw [List.length_drop]
    omega
  rw [← holds.rest, zero, stop] at skip
  rw [strtokR, begins, skip]
  rfl

/-- A token that the text ends with stays as it is. -/
theorem strtokR_last (textNonzero : 0 ∉ text) (nonzero : 0 ∉ delimiters)
    (begins : s.getD st.save = start) (holds : Holds text st.buffer start)
    (split : text.drop start = skipped ++ token ++ [])
    (skips : ∀ c ∈ skipped, c ∈ delimiters) (some_token : token ≠ [])
    (others : ∀ c ∈ token, c ∉ delimiters) :
    strtokR st s delimiters = some (⟨st.buffer, text.length⟩, some (start + skipped.length)) ∧
      stringFrom st.buffer (start + skipped.length) = token := by
  have tokenNonzero := token_nonzero textNonzero split
  have skip := skipDelimiters_token nonzero tokenNonzero holds split skips some_token others
  have stop := @skipToken_append delimiters token [] 0 nonzero tokenNonzero others
    (Or.inl rfl) (start + skipped.length)
  have lengths := congrArg List.length split
  rw [List.append_nil, List.length_drop, List.length_append] at lengths
  have whole : start + skipped.length + token.length = text.length := by
    have inside := holds.inside
    have positive := List.length_pos_of_ne_nil some_token
    omega
  have bufferIs := holds.buffer_split split
  rw [List.nil_append, ← List.append_assoc] at bufferIs
  have place := holds.length_front skipped
  have stopPlace : (st.buffer.take start ++ skipped ++ token).length = text.length := by
    rw [List.length_append, place, whole]
  have last : st.buffer[text.length]? = some 0 := by
    rw [bufferIs, ← stopPlace]
    exact List.getElem?_concat_length
  constructor
  · rw [strtokR, begins, skip]
    simp only [Option.bind_some, if_true]
    rw [holds.drop_token split, List.nil_append, stop, whole, Option.bind_some, last]
    rfl
  · rw [bufferIs, ← place]
    exact stringFrom_append tokenNonzero

/-- The delimiter behind a token is overwritten. -/
theorem strtokR_token {delimiter : UInt8} {rest : List UInt8} (textNonzero : 0 ∉ text)
    (nonzero : 0 ∉ delimiters) (begins : s.getD st.save = start)
    (holds : Holds text st.buffer start)
    (split : text.drop start = skipped ++ token ++ delimiter :: rest)
    (skips : ∀ c ∈ skipped, c ∈ delimiters) (some_token : token ≠ [])
    (others : ∀ c ∈ token, c ∉ delimiters) (isDelimiter : delimiter ∈ delimiters) :
    st.buffer[start + skipped.length + token.length]? = some delimiter ∧
      st.buffer.set (start + skipped.length + token.length) 0 =
        st.buffer.take start ++ skipped ++ token ++ 0 :: (rest ++ [0]) ∧
      strtokR st s delimiters = some (⟨st.buffer.set (start + skipped.length + token.length) 0,
          start + skipped.length + token.length + 1⟩, some (start + skipped.length)) := by
  have tokenNonzero := token_nonzero textNonzero split
  have skip := skipDelimiters_token nonzero tokenNonzero holds split skips some_token others
  have scan := @skipToken_append delimiters token (rest ++ [0]) delimiter nonzero
    tokenNonzero others (Or.inr isDelimiter) (start + skipped.length)
  have notEnd : delimiter ≠ 0 := by
    intro zero
    apply textNonzero
    apply List.mem_of_mem_drop
    rw [split, ← zero]
    exact List.mem_append_right _ List.mem_cons_self
  have bufferIs := holds.buffer_split split
  rw [← List.append_assoc, List.cons_append] at bufferIs
  have stopPlace : (st.buffer.take start ++ skipped ++ token).length =
      start + skipped.length + token.length := by
    rw [List.length_append, holds.length_front]
  have found : st.buffer[start + skipped.length + token.length]? = some delimiter := by
    rw [bufferIs, ← stopPlace, List.getElem?_append_right (Nat.le_refl _), Nat.sub_self]
    rfl
  have written : st.buffer.set (start + skipped.length + token.length) 0 =
      st.buffer.take start ++ skipped ++ token ++ 0 :: (rest ++ [0]) := by
    have changed := congrArg (List.set · (start + skipped.length + token.length) 0) bufferIs
    rw [← stopPlace, List.set_append_right _ _ (Nat.le_refl _), Nat.sub_self] at changed
    rw [← stopPlace]
    exact changed
  refine ⟨found, written, ?_⟩
  rw [strtokR, begins, skip]
  simp only [Option.bind_some, if_true]
  rw [holds.drop_token split, List.cons_append, scan]
  simp only [Option.bind_some, found, if_pos notEnd]

/-- Behind the null byte that is written the text is as it was. -/
theorem Holds.behind_token {delimiter : UInt8} {rest : List UInt8} (holds : Holds text buffer start)
    (split : text.drop start = skipped ++ token ++ delimiter :: rest)
    (written : buffer.set (start + skipped.length + token.length) 0 =
      buffer.take start ++ skipped ++ token ++ 0 :: (rest ++ [0])) :
    Passes text buffer start ⟨buffer.set (start + skipped.length + token.length) 0,
      start + skipped.length + token.length + 1⟩ := by
  have lengths := congrArg List.length split
  rw [List.length_drop, List.length_append, List.length_append, List.length_cons] at lengths
  have restIs : text.drop (start + skipped.length + token.length + 1) = rest := by
    have later := congrArg (List.drop (skipped.length + token.length + 1)) split
    have front : (skipped ++ token ++ [delimiter]).length = skipped.length + token.length + 1 := by
      simp only [List.length_append, List.length_singleton]
    rw [List.drop_drop, ← List.singleton_append, ← List.append_assoc, ← front,
      List.drop_left, front, ← Nat.add_assoc, ← Nat.add_assoc] at later
    exact later
  have placeAfter : (buffer.take start ++ skipped ++ token ++ [0]).length =
      start + skipped.length + token.length + 1 := by
    rw [List.length_append, List.length_append, holds.length_front]
    rfl
  refine ⟨⟨?_, ?_, ?_⟩, ?_, ?_⟩
  · dsimp only
    omega
  · dsimp only
    rw [List.length_set]
    exact holds.length
  · dsimp only
    rw [restIs, written, ← List.singleton_append, ← List.append_assoc, ← placeAfter, List.drop_left]
  · dsimp only
    omega
  · dsimp only
    rw [List.take_set_of_le (by omega)]

end Token

/-- A call goes over delimiters and a token, or to the end of the text. -/
theorem strtokR_splits {st : Strtok} {s : Option Nat} {delimiters : List UInt8}
    (textNonzero : 0 ∉ text) (nonzero : 0 ∉ delimiters)
    (begins : s.getD st.save = start) (holds : Holds text st.buffer start) :
    ∃ after result, strtokR st s delimiters = some (after, result) ∧
      StrtokCall.Splits text ⟨delimiters, start, st, after, result⟩ ∧
      Passes text st.buffer start after := by
  rcases exists_token delimiters (text.drop start) with
    all | ⟨skipped, token, left, split, skips, some_token, others, stops⟩
  · exact ⟨_, _, strtokR_none nonzero begins holds all, .none all rfl rfl, holds.passes_to_end⟩
  · cases left with
    | nil =>
        rcases strtokR_last textNonzero nonzero begins holds split skips some_token others
          with ⟨run, string⟩
        rw [List.append_nil] at split
        exact ⟨_, _, run, .last skipped token split skips some_token others rfl rfl string,
          holds.passes_to_end⟩
    | cons delimiter rest =>
        have isDelimiter := stops delimiter rfl
        have tokenNonzero := token_nonzero textNonzero split
        rcases strtokR_token textNonzero nonzero begins holds split skips some_token others
          isDelimiter with ⟨found, written, run⟩
        have string : stringFrom
            (st.buffer.set (start + skipped.length + token.length) 0)
            (start + skipped.length) = token := by
          rw [written, ← holds.length_front skipped]
          exact stringFrom_append tokenNonzero
        exact ⟨_, _, run,
          .token skipped token rest delimiter split skips some_token others isDelimiter
            found rfl rfl string,
          holds.behind_token split written⟩

/-- A call that comes later leaves what has been scanned. -/
theorem Passes.trans {middle after : Strtok} (first : Passes text buffer start middle)
    (second : Passes text middle.buffer middle.save after) :
    Passes text buffer start after where
  holds := second.holds
  forward := Nat.le_trans first.forward second.forward
  before := by
    have kept := congrArg (List.take start) second.before
    rw [List.take_take, List.take_take, Nat.min_eq_left first.forward] at kept
    exact kept.trans first.before

/-- Behind the end of the text there is no token. -/
theorem StrtokCall.Splits.none_of_end {call : StrtokCall} (splits : call.Splits text)
    (atEnd : call.start = text.length) : call.result = Option.none := by
  have empty : text.drop call.start = [] := by
    rw [atEnd, List.drop_length]
  cases splits with
  | none _ result _ => exact result
  | last skipped token split _ some_token =>
      rw [empty] at split
      exact absurd (List.append_eq_nil_iff.mp split.symm).2 some_token
  | token skipped token rest delimiter split =>
      rw [empty] at split
      cases (List.append_eq_nil_iff.mp split.symm).2

/-- A token stays where it is. -/
theorem StrtokCall.Splits.token_kept {call : StrtokCall} {later : Strtok} {q : Nat}
    (splits : call.Splits text) (holds : Holds text call.after.buffer call.after.save)
    (passes : Passes text call.after.buffer call.after.save later)
    (isToken : call.result = some q) :
    stringFrom later.buffer q = stringFrom call.after.buffer q := by
  cases splits with
  | none _ result _ =>
      rw [result] at isToken
      cases isToken
  | last skipped token _ _ _ _ _ after _ =>
      have atEnd : call.after.save = text.length := by
        rw [after]
      have laterEnd : later.save = text.length := by
        have forward := passes.forward
        have inside := passes.holds.inside
        omega
      have whole := holds.take_append
      have laterWhole := passes.holds.take_append
      rw [atEnd] at whole
      rw [laterEnd] at laterWhole
      have before := passes.before
      rw [atEnd] at before
      rw [laterWhole, before, ← whole]
  | token skipped token rest delimiter _ _ _ _ _ _ result after string =>
      rw [result, Option.some.injEq] at isToken
      have length := holds.length
      have inside := holds.inside
      have place : call.after.save = call.start + skipped.length + token.length + 1 := by
        rw [after]
      apply stringFrom_congr passes.before (by omega)
      rw [← isToken, string]
      omega

/-- All calls but the first begin where the one before has stopped. -/
theorem strtokCalls_splits {delimiterSets : List (List UInt8)} {st : Strtok}
    {s : Option Nat} (textNonzero : 0 ∉ text) (nonzero : ∀ d ∈ delimiterSets, 0 ∉ d)
    (begins : s.getD st.save = start) (holds : Holds text st.buffer start) :
    ∃ calls, strtokCalls st s delimiterSets = some calls ∧
      calls.map StrtokCall.delimiters = delimiterSets ∧
        (∀ call ∈ calls, call.Splits text ∧ Passes text st.buffer start call.after) ∧
          (∀ call ∈ calls.head?, call.start = start ∧ call.before = st) ∧
            (calls.IsChain fun call later =>
              later.start = call.after.save ∧ later.before = call.after) ∧
              (calls.Pairwise fun call later =>
                call.after.save = text.length → later.result = none) ∧
                (calls.Pairwise fun call later =>
                  ∀ start ∈ call.result, stringFrom later.after.buffer start =
                    stringFrom call.after.buffer start) ∧
                  (start = text.length → ∀ call ∈ calls, call.result = none) := by
  induction delimiterSets generalizing st s start with
  | nil => exact ⟨[], rfl, rfl, by simp, by simp, .nil, .nil, .nil, by simp⟩
  | cons delimiters rest inductionHypothesis =>
      rcases strtokR_splits textNonzero (nonzero delimiters List.mem_cons_self) begins
        holds with ⟨after, result, run, splits, passes⟩
      have beginsNext : (none : Option Nat).getD after.save = after.save := rfl
      rcases inductionHypothesis
          (fun d member => nonzero d (List.mem_cons_of_mem delimiters member))
          beginsNext passes.holds with
        ⟨calls, runs, sets, each, first, next, ended, kept, atEnd⟩
      refine ⟨⟨delimiters, start, st, after, result⟩ :: calls, ?_, ?_, ?_, ?_, ?_, ?_, ?_, ?_⟩
      · rw [strtokCalls, run, Option.bind_some]
        dsimp only
        rw [runs, begins]
        rfl
      · rw [List.map_cons, sets]
      · intro call member
        rcases List.mem_cons.mp member with same | inside
        · rw [same]
          exact ⟨splits, passes⟩
        · exact ⟨(each call inside).1, passes.trans (each call inside).2⟩
      · intro call isFirst
        cases isFirst
        exact ⟨rfl, rfl⟩
      · cases calls with
        | nil => exact .singleton _
        | cons second calls => exact .cons_cons (first second rfl) next
      · apply List.pairwise_cons.mpr ⟨_, ended⟩
        intro later member stops
        exact atEnd stops later member
      · apply List.pairwise_cons.mpr ⟨_, kept⟩
        intro later member q isToken
        exact splits.token_kept passes.holds (each later member).2 isToken
      · intro stops call member
        rcases List.mem_cons.mp member with same | inside
        · rw [same]
          exact splits.none_of_end stops
        · have forward := passes.forward
          have inText := passes.holds.inside
          exact atEnd (by omega) call inside

/-- For every text and every sequence of sets of delimiters, no call accesses a byte
behind the null byte of the text, and the calls split the text. -/
theorem strtok_r_splits (text : List UInt8) (save : Nat)
    (delimiterSets : List (List UInt8)) (textNonzero : 0 ∉ text)
    (nonzero : ∀ delimiters ∈ delimiterSets, 0 ∉ delimiters) :
    ∃ calls, strtokCalls ⟨text ++ [0], save⟩ (some 0) delimiterSets = some calls ∧
      calls.map StrtokCall.delimiters = delimiterSets ∧ SplitsAll text calls := by
  have holds : Holds text (text ++ [0]) 0 := ⟨Nat.zero_le _, List.length_append, rfl⟩
  have begins : (some 0).getD save = 0 := rfl
  rcases @strtokCalls_splits text 0 delimiterSets ⟨text ++ [0], save⟩ (some 0) textNonzero
      nonzero begins holds with
    ⟨calls, runs, sets, each, first, next, ended, kept, _⟩
  refine ⟨calls, runs, sets, ⟨?_, ?_, next, ended, kept⟩⟩
  · intro call member
    exact (each call member).1
  · intro call isFirst
    exact (first call isFirst).1

/-- A blank, and then a colon, separate the words of ` ab c:d`. -/
theorem strtok_r_splits_words :
    ∃ calls, strtokCalls ⟨[32, 97, 98, 32, 99, 58, 100] ++ [0], 0⟩ (some 0)
        [[32], [58], []] = some calls ∧
      calls.map StrtokCall.delimiters = [[32], [58], []] ∧
        SplitsAll [32, 97, 98, 32, 99, 58, 100] calls :=
  strtok_r_splits [32, 97, 98, 32, 99, 58, 100] 0 [[32], [58], []] (by decide) (by decide)

end Calls

end CS162.Lib

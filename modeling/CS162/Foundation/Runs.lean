import Mathlib.Data.List.DropRight
import Mathlib.Data.List.Basic

/-!
# Runs in a stream

The elements that satisfy a test form maximal runs, with separators between them.  The
segments of a stream are what is between its separators, and may be empty; all but the
last one are ended by a separator.
-/

namespace CS162.Foundation

universe u

variable {α : Type u}

/-- What is between the separators. -/
def segments (p : α → Bool) (stream : List α) : List (List α) := stream.splitOnP fun a => !p a

/-- The maximal runs of elements that satisfy the test. -/
def runs (p : α → Bool) (stream : List α) : List (List α) :=
  (segments p stream).filter fun run => !run.isEmpty

/-- The segments that a separator ends. -/
def endedSegments (p : α → Bool) (stream : List α) : List (List α) := (segments p stream).dropLast

/-- The runs that a separator ends. -/
def endedRuns (p : α → Bool) (stream : List α) : List (List α) :=
  (endedSegments p stream).filter fun run => !run.isEmpty

variable {p : α → Bool} {word front back : List α} {a : α}

theorem segments_ne_nil (p : α → Bool) (stream : List α) : segments p stream ≠ [] :=
  List.splitOnP_ne_nil _ stream

theorem segments_append_cons (separator : p a = false) :
    segments p (front ++ a :: back) = segments p front ++ segments p back :=
  List.splitOnP_append_cons front back (by simp [separator])

theorem segments_word (inside : ∀ a ∈ word, p a = true) : segments p word = [word] := by
  apply List.splitOnP_eq_singleton
  intro a member
  simp [inside a member]

/-- A separator ends the first segment. -/
theorem segments_word_cons (inside : ∀ a ∈ word, p a = true) (separator : p a = false) :
    segments p (word ++ a :: back) = word :: segments p back := by
  rw [segments_append_cons separator, segments_word inside]
  rfl

theorem endedSegments_word (inside : ∀ a ∈ word, p a = true) : endedSegments p word = [] := by
  rw [endedSegments, segments_word inside]
  rfl

theorem endedSegments_word_cons (inside : ∀ a ∈ word, p a = true) (separator : p a = false) :
    endedSegments p (word ++ a :: back) = word :: endedSegments p back := by
  rw [endedSegments, segments_word_cons inside separator,
    List.dropLast_cons_of_ne_nil (segments_ne_nil p back)]
  rfl

theorem endedRuns_word (inside : ∀ a ∈ word, p a = true) : endedRuns p word = [] := by
  rw [endedRuns, endedSegments_word inside]
  rfl

theorem endedRuns_word_cons (inside : ∀ a ∈ word, p a = true) (separator : p a = false) :
    endedRuns p (word ++ a :: back) =
      if word = [] then endedRuns p back else word :: endedRuns p back := by
  rw [endedRuns, endedSegments_word_cons inside separator]
  by_cases empty : word = []
  · rw [if_pos empty, empty]
    rfl
  · rw [if_neg empty, List.filter_cons_of_pos (by simpa using empty)]
    rfl

theorem runs_append_cons (separator : p a = false) :
    runs p (front ++ a :: back) = runs p front ++ runs p back := by
  rw [runs, segments_append_cons separator, List.filter_append]
  rfl

theorem runs_nil (p : α → Bool) : runs p [] = [] := rfl

theorem runs_cons (separator : p a = false) : runs p (a :: back) = runs p back := by
  have split := @runs_append_cons _ p [] back a separator
  rw [List.nil_append, runs_nil, List.nil_append] at split
  exact split

/-- A stream is the segments that are ended and the elements behind the last
separator. -/
theorem segments_eq (p : α → Bool) (stream : List α) :
    segments p stream = endedSegments p stream ++ [stream.rtakeWhile p] := by
  have split : stream.rdropWhile p ++ stream.rtakeWhile p = stream :=
    List.rdropWhile_append_rtakeWhile
  have inside : ∀ a ∈ stream.rtakeWhile p, p a = true :=
    fun a member => List.mem_rtakeWhile_imp member
  by_cases none : stream.rdropWhile p = []
  · rw [none, List.nil_append] at split
    rw [split] at inside ⊢
    rw [endedSegments_word inside, segments_word inside]
    rfl
  · have separator := List.rdropWhile_last_not p stream none
    have last := List.dropLast_append_getLast none
    have regrouped : (stream.rdropWhile p).dropLast ++
        (stream.rdropWhile p).getLast none :: stream.rtakeWhile p = stream := by
      rw [← List.singleton_append, ← List.append_assoc, last, split]
    have pieces : segments p stream =
        segments p (stream.rdropWhile p).dropLast ++ [stream.rtakeWhile p] := by
      conv_lhs => rw [← regrouped]
      rw [segments_append_cons (by simpa using separator), segments_word inside]
    rw [endedSegments, pieces, List.dropLast_concat]

theorem runs_eq (p : α → Bool) (stream : List α) :
    runs p stream = endedRuns p stream ++
      if stream.rtakeWhile p = [] then [] else [stream.rtakeWhile p] := by
  rw [runs, segments_eq, List.filter_append, endedRuns]
  congr 1
  by_cases none : stream.rtakeWhile p = []
  · simp [none]
  · simp [none]

/-- The elements of the segments are those that satisfy the test. -/
theorem flatten_segments (p : α → Bool) (stream : List α) :
    (segments p stream).flatten = stream.filter p := by
  induction stream with
  | nil => rfl
  | cons a rest inductionHypothesis =>
      rw [segments, List.splitOnP_cons_eq_if_modifyHead]
      rw [segments] at inductionHypothesis
      cases satisfied : p a with
      | false => simp [inductionHypothesis, satisfied]
      | true =>
          rcases List.exists_cons_of_ne_nil (List.splitOnP_ne_nil (fun a => !p a) rest)
            with ⟨first, later, split⟩
          rw [split, List.flatten_cons] at inductionHypothesis
          rw [split]
          simp [inductionHypothesis, satisfied]

theorem flatten_runs (p : α → Bool) (stream : List α) :
    (runs p stream).flatten = stream.filter p := by
  rw [← flatten_segments]
  exact List.flatten_filter_not_isEmpty

/-- There are no runs where no element satisfies the test. -/
theorem runs_eq_nil_iff {stream : List α} : runs p stream = [] ↔ ∀ a ∈ stream, p a = false := by
  constructor
  · intro none a member
    by_contra satisfied
    have found : a ∈ (runs p stream).flatten := by
      rw [flatten_runs]
      exact List.mem_filter.mpr ⟨member, by simpa using satisfied⟩
    rw [none] at found
    cases found
  · intro outside
    have empty : (runs p stream).flatten = [] := by
      rw [flatten_runs, List.filter_eq_nil_iff]
      intro a member
      simp [outside a member]
    rw [List.eq_nil_iff_forall_not_mem]
    intro run member
    have same := List.flatten_eq_nil_iff.mp empty run member
    have nonempty := (List.mem_filter.mp member).2
    rw [same] at nonempty
    cases nonempty

/-- The elements of a run satisfy the test. -/
theorem satisfied_of_mem_runs {stream run : List α} (member : run ∈ runs p stream) :
    ∀ a ∈ run, p a = true := by
  intro a inRun
  have found : a ∈ (runs p stream).flatten := List.mem_flatten.mpr ⟨run, member, inRun⟩
  rw [flatten_runs] at found
  exact (List.mem_filter.mp found).2

/-- A word that begins a stream is part of its first segment. -/
theorem exists_segment (inside : ∀ a ∈ word, p a = true) (stream : List α) :
    ∃ segment ∈ segments p (word ++ stream), word.length ≤ segment.length := by
  induction stream generalizing word with
  | nil =>
      rw [List.append_nil, segments_word inside]
      exact ⟨word, List.mem_singleton_self word, Nat.le_refl _⟩
  | cons a rest inductionHypothesis =>
      cases satisfied : p a with
      | false =>
          rw [segments_word_cons inside satisfied]
          exact ⟨word, List.mem_cons_self, Nat.le_refl _⟩
      | true =>
          have longer : ∀ b ∈ word ++ [a], p b = true := by
            intro b member
            rcases List.mem_append.mp member with before | last
            · exact inside b before
            · rw [List.mem_singleton.mp last]
              exact satisfied
          rcases inductionHypothesis longer with ⟨segment, member, bound⟩
          rw [List.append_assoc, List.singleton_append] at member
          rw [List.length_append] at bound
          exact ⟨segment, member, by omega⟩

/-! ## Prefixes with the same total length -/

theorem length_flatten_le {short long : List (List α)}
    (prefixes : List.Forall₂ (· <+: ·) short long) :
    short.flatten.length ≤ long.flatten.length := by
  induction prefixes with
  | nil => exact Nat.le_refl _
  | cons first _ inductionHypothesis =>
      have bound := first.length_le
      rw [List.flatten_cons, List.flatten_cons, List.length_append, List.length_append]
      omega

/-- Lists that begin with given lists and have no more elements in total are those. -/
theorem eq_of_length_flatten_le {short long : List (List α)}
    (prefixes : List.Forall₂ (· <+: ·) short long)
    (bound : long.flatten.length ≤ short.flatten.length) : long = short := by
  induction prefixes with
  | nil => rfl
  | cons first rest inductionHypothesis =>
      have boundFirst := first.length_le
      have boundRest := length_flatten_le rest
      rw [List.flatten_cons, List.flatten_cons, List.length_append, List.length_append] at bound
      rw [inductionHypothesis (by omega), first.eq_of_length (by omega)]

end CS162.Foundation

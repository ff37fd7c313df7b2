import CS162.Foundation.Runs
import CS162.HwList.WordCount

/-!
# Counting all words

`num_words` of `hw0/words/main.c`.  A `char` is signed and an `int` has 32 bits; an
`int` that leaves its range is undefined and gives `none`.
-/

namespace CS162.Words

open CS162.Foundation
open CS162.HwList (intLimit)

/-- `EOF` -/
def eof : Int := -1

/-- The value of a `char` that an `int` from `fgetc` is assigned to. -/
def toChar (value : Int) : Int := (value + 128) % 256 - 128

/-- `isalpha`. -/
def isalpha (c : Int) : Bool := decide ((65 ≤ c ∧ c ≤ 90) ∨ (97 ≤ c ∧ c ≤ 122))

/-- `++value`, of an `int` that is not negative. -/
def increment (value : Nat) : Option Nat :=
  if value + 1 < intLimit then some (value + 1) else none

/-- The loop of `num_words`.  `fgetc` returns the bytes of the stream and then
`EOF`. -/
def numWordsLoop : List UInt8 → Nat → Nat → Option Nat
  | [], numWords, _ => some numWords
  | byte :: rest, numWords, wordLength =>
      let c := toChar byte.toNat
      if c = eof then some numWords
      else if isalpha c then
        (increment wordLength).bind fun wordLength =>
          numWordsLoop rest numWords wordLength
      else if 0 < wordLength then
        (increment numWords).bind fun numWords => numWordsLoop rest numWords 0
      else numWordsLoop rest numWords wordLength

/-- `num_words`, of a stream or a null pointer. -/
def numWords : Option (List UInt8) → Option Nat
  | none => some 0
  | some infile => numWordsLoop infile 0 0

/-! ## Letters -/

/-- An alphabetic character. -/
def isLetter (byte : UInt8) : Bool := isalpha (toChar byte.toNat)

/-- What the loops take for the end of the stream. -/
def looksLikeEof (byte : UInt8) : Bool := byte = 255

/-- The words of a stream. -/
def words (stream : List UInt8) : List (List UInt8) := runs isLetter stream

/-- The part of a stream that is read: up to its first byte 0xFF. -/
def heard (stream : List UInt8) : List UInt8 := stream.takeWhile (!looksLikeEof ·)

/-- The part that is not read. -/
def unheard (stream : List UInt8) : List UInt8 := stream.dropWhile (!looksLikeEof ·)

theorem toChar_eq_eof_iff (byte : UInt8) : toChar byte.toNat = eof ↔ looksLikeEof byte = true := by
  have small := byte.toNat_lt
  rw [toChar, eof, looksLikeEof, decide_eq_true_eq, ← UInt8.toNat_inj]
  change _ ↔ byte.toNat = 255
  omega

theorem isLetter_eof {byte : UInt8} (last : looksLikeEof byte = true) : isLetter byte = false := by
  rw [isLetter, (toChar_eq_eof_iff byte).mpr last]
  decide

theorem heard_append_unheard (stream : List UInt8) : heard stream ++ unheard stream = stream :=
  List.takeWhile_append_dropWhile

/-- What is not read begins with a byte that is no letter. -/
theorem unheard_cases (stream : List UInt8) :
    unheard stream = [] ∨
      ∃ byte rest, unheard stream = byte :: rest ∧ looksLikeEof byte = true := by
  induction stream with
  | nil => exact Or.inl rfl
  | cons byte rest inductionHypothesis =>
      cases last : looksLikeEof byte with
      | false =>
          have same : unheard (byte :: rest) = unheard rest :=
            List.dropWhile_cons_of_pos (by rw [last]; rfl)
          rw [same]
          exact inductionHypothesis
      | true =>
          have same : unheard (byte :: rest) = byte :: rest :=
            List.dropWhile_cons_of_neg (by rw [last]; exact Bool.false_ne_true)
          exact Or.inr ⟨byte, rest, same, last⟩

theorem heard_silent (stream : List UInt8) : ∀ byte ∈ heard stream, looksLikeEof byte = false := by
  intro byte member
  have here := List.mem_takeWhile_imp member
  simpa using here

/-- The words of a stream are in the part that is read or in the other one. -/
theorem words_eq (stream : List UInt8) :
    words stream = words (heard stream) ++ words (unheard stream) := by
  have split := heard_append_unheard stream
  rcases unheard_cases stream with none | ⟨byte, rest, left, last⟩
  · rw [none, List.append_nil] at split
    rw [none, split]
    simp [words, runs_nil]
  · have separator := isLetter_eof last
    rw [left] at split
    conv_lhs => rw [← split]
    rw [left, words, runs_append_cons separator, words, words, runs_cons separator]

/-! ## The loop -/

/-- The loop counts the runs that a separator ends, unless one of its variables
overflows. -/
theorem numWordsLoop_iff {stream tail word : List UInt8} {count total : Nat}
    (silent : ∀ byte ∈ stream, looksLikeEof byte = false)
    (stops : ∀ count length, numWordsLoop tail count length = some count)
    (letters : ∀ byte ∈ word, isLetter byte = true) (short : word.length < intLimit)
    (few : count < intLimit) :
    numWordsLoop (stream ++ tail) count word.length = some total ↔
      (∀ segment ∈ segments isLetter (word ++ stream), segment.length < intLimit) ∧
        total = count + (endedRuns isLetter (word ++ stream)).length ∧
          total < intLimit := by
  induction stream generalizing word count with
  | nil =>
      rw [List.nil_append, List.append_nil, stops, segments_word letters,
        endedRuns_word letters, Option.some.injEq]
      simp only [List.mem_singleton, forall_eq, short, true_and, List.length_nil]
      omega
  | cons byte rest inductionHypothesis =>
      rcases List.forall_mem_cons.mp silent with ⟨silentHere, silentRest⟩
      have notEof : ¬toChar byte.toNat = eof := by
        rw [toChar_eq_eof_iff, silentHere]
        exact Bool.false_ne_true
      rw [List.cons_append, numWordsLoop, if_neg notEof]
      cases letter : isLetter byte with
      | true =>
          -- the current word gets longer
          have longer : ∀ other ∈ word ++ [byte], isLetter other = true :=
            List.forall_mem_append.mpr ⟨letters, List.forall_mem_singleton.mpr letter⟩
          have regrouped : word ++ byte :: rest = (word ++ [byte]) ++ rest := by
            simp
          have length : (word ++ [byte]).length = word.length + 1 := by simp
          have alpha : isalpha (toChar byte.toNat) = true := letter
          rw [if_pos alpha, increment, regrouped]
          by_cases room : word.length + 1 < intLimit
          · rw [if_pos room, Option.bind_some, ← length]
            exact inductionHypothesis silentRest longer (by rw [length]; exact room) few
          · rcases exists_segment longer rest with ⟨segment, member, long⟩
            rw [length] at long
            rw [if_neg room, Option.bind_none]
            constructor
            · intro impossible
              cases impossible
            · rintro ⟨all, _⟩
              have bound := all segment member
              omega
      | false =>
          -- the current word ends, if there is one
          have later : ∀ count, count < intLimit →
              (numWordsLoop (rest ++ tail) count 0 = some total ↔
                (∀ segment ∈ segments isLetter rest, segment.length < intLimit) ∧
                  total = count + (endedRuns isLetter rest).length ∧
                    total < intLimit) :=
            fun count few => @inductionHypothesis [] count silentRest
              (fun other member => absurd member List.not_mem_nil)
              (Nat.two_pow_pos 31) few
          rw [if_neg (by rw [← isLetter, letter]; exact Bool.false_ne_true),
            segments_word_cons letters letter, endedRuns_word_cons letters letter,
            List.forall_mem_cons]
          simp only [short, true_and]
          by_cases empty : word = []
          · rw [empty, List.length_nil, if_neg (Nat.lt_irrefl 0), later count few, if_pos rfl]
          · have positive : 0 < word.length := List.length_pos_iff.mpr empty
            rw [if_pos positive, increment, if_neg empty, List.length_cons]
            by_cases room : count + 1 < intLimit
            · rw [if_pos room, Option.bind_some, later (count + 1) room]
              have sum : count + 1 + (endedRuns isLetter rest).length =
                  count + ((endedRuns isLetter rest).length + 1) := by
                omega
              rw [sum]
            · rw [if_neg room, Option.bind_none]
              constructor
              · intro impossible
                cases impossible
              · rintro ⟨_, sum, small⟩
                omega

/-- `num_words` counts the runs that are ended in front of the end of the stream or of
a byte 0xFF. -/
theorem numWords_iff (stream : List UInt8) (total : Nat) :
    numWords (some stream) = some total ↔
      (∀ segment ∈ segments isLetter (heard stream), segment.length < intLimit) ∧
        total = (endedRuns isLetter (heard stream)).length ∧ total < intLimit := by
  have stops : ∀ count length, numWordsLoop (unheard stream) count length = some count := by
    intro count length
    rcases unheard_cases stream with none | ⟨byte, rest, left, last⟩
    · rw [none]
      rfl
    · rw [left, numWordsLoop, if_pos ((toChar_eq_eof_iff byte).mpr last)]
  have looped := @numWordsLoop_iff _ _ [] 0 total (heard_silent stream) stops
    (fun other member => absurd member List.not_mem_nil) (Nat.two_pow_pos 31)
    (Nat.two_pow_pos 31)
  rw [heard_append_unheard, List.length_nil, List.nil_append, Nat.zero_add] at looped
  exact looped

/-! ## The streams that are counted right -/

/-- Nothing is missed: no letter stands behind a byte 0xFF, and no word ends at the end
of what is read. -/
structure WordsEnded (stream : List UInt8) : Prop where
  unheard : ∀ byte ∈ unheard stream, isLetter byte = false
  last : ∀ byte ∈ (heard stream).getLast?, isLetter byte = false

theorem rtakeWhile_eq_nil_iff (stream : List UInt8) :
    stream.rtakeWhile isLetter = [] ↔ ∀ byte ∈ stream.getLast?, isLetter byte = false := by
  rw [List.rtakeWhile_eq_nil_iff]
  constructor
  · intro last byte member
    rcases List.mem_getLast?_eq_getLast member with ⟨nonempty, rfl⟩
    simpa using last nonempty
  · intro last nonempty
    simpa using last _ (List.getLast?_eq_some_getLast nonempty)

/-- How many words there are, and how many are counted. -/
theorem length_words (stream : List UInt8) :
    (words stream).length = (endedRuns isLetter (heard stream)).length +
      (if (heard stream).rtakeWhile isLetter = [] then 0 else 1) +
        (words (unheard stream)).length := by
  rw [words_eq, List.length_append, words, runs_eq, List.length_append]
  congr 2
  split <;> rfl

theorem wordsEnded_iff (stream : List UInt8) :
    WordsEnded stream ↔ (endedRuns isLetter (heard stream)).length = (words stream).length := by
  have length := length_words stream
  have unread : words (unheard stream) = [] ↔
      ∀ byte ∈ unheard stream, isLetter byte = false := runs_eq_nil_iff
  have unfinished := rtakeWhile_eq_nil_iff (heard stream)
  constructor
  · intro ended
    rw [if_pos (unfinished.mpr ended.last), unread.mpr ended.unheard, List.length_nil] at length
    omega
  · intro same
    have noneLeft : (words (unheard stream)).length = 0 := by omega
    constructor
    · exact unread.mp (List.eq_nil_of_length_eq_zero noneLeft)
    · rw [← unfinished]
      by_contra some_letters
      rw [if_neg some_letters] at length
      omega

theorem words_eq_ended {stream : List UInt8} (ended : WordsEnded stream) :
    words stream = endedRuns isLetter (heard stream) := by
  rw [words_eq, words, runs_eq, if_pos ((rtakeWhile_eq_nil_iff _).mpr ended.last),
    List.append_nil, words, runs_eq_nil_iff.mpr ended.unheard, List.append_nil]

/-- Only the runs matter for a bound on the lengths of all segments. -/
theorem forall_segments_iff {limit : Nat} (positive : 0 < limit) (stream : List UInt8) :
    (∀ segment ∈ segments isLetter stream, segment.length < limit) ↔
      ∀ word ∈ words stream, word.length < limit := by
  constructor
  · intro all word member
    exact all word (List.mem_filter.mp member).1
  · intro all segment member
    by_cases empty : segment = []
    · rw [empty]
      exact positive
    · exact all segment (List.mem_filter.mpr ⟨member, by simpa using empty⟩)

/-- `num_words` returns the number of words exactly for the streams where no letter
stands behind a byte 0xFF, no word ends at the end of what is read, and no counter
overflows. -/
theorem num_words_counts_iff (stream : List UInt8) :
    numWords (some stream) = some (words stream).length ↔
      WordsEnded stream ∧ (∀ word ∈ words stream, word.length < intLimit) ∧
        (words stream).length < intLimit := by
  have read : WordsEnded stream → words (heard stream) = words stream := by
    intro ended
    rw [words_eq stream, words, words, runs_eq_nil_iff.mpr ended.unheard, List.append_nil]
  rw [numWords_iff, forall_segments_iff (by decide : 0 < intLimit)]
  constructor
  · rintro ⟨short, same, few⟩
    have ended := (wordsEnded_iff stream).mpr same.symm
    rw [read ended] at short
    exact ⟨ended, short, few⟩
  · rintro ⟨ended, short, few⟩
    rw [← read ended] at short
    exact ⟨short, ((wordsEnded_iff stream).mp ended).symm, few⟩

/-- `ab` without a separator behind it. -/
theorem num_words_last : numWords (some [97, 98]) = some 0 ∧ (words [97, 98]).length = 1 := by
  decide

end CS162.Words

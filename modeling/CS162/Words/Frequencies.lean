import CS162.Words.TotalCount

/-!
# Counting each word

`count_words` of `hw0/words/main.c` with `find_word` and `add_word` of
`word_count.c`.  What `malloc` returns has some contents, which the program does not
clear; `malloc` does not fail.  A comparison that runs over the end of a buffer and an
`int` that leaves its range are undefined and give `none`.
-/

namespace CS162.Words

open CS162.Foundation
open CS162.HwList (intLimit)

/-- `MAX_WORD_LEN` -/
def maxWordLen : Nat := 64

/-- The contents of the buffers that `malloc` returns, one after another. -/
structure Heap where
  fresh : Nat → List UInt8
  sized : ∀ mallocs, (fresh mallocs).length = maxWordLen

/-- `tolower`. -/
def tolower (c : Int) : Int := if 65 ≤ c ∧ c ≤ 90 then c + 32 else c

/-- The byte that is stored for a letter. -/
def lower (byte : UInt8) : UInt8 := UInt8.ofNat (tolower (toChar byte.toNat) % 256).toNat

/-- `struct word_count`, with the whole buffer that `word` points to. -/
structure WordCount where
  word : List UInt8
  count : Nat
  deriving DecidableEq

/-- `strcmp (a, b) == 0`, of two buffers. -/
def strcmpSame : List UInt8 → List UInt8 → Option Bool
  | a :: as, b :: bs =>
      if a ≠ b then some false
      else if a = 0 then some true
      else strcmpSame as bs
  | _, _ => none

/-- `find_word`: the place of a word in the list. -/
def findWord (word : List UInt8) : List WordCount → Option (Option Nat)
  | [] => some none
  | wc :: rest =>
      (strcmpSame wc.word word).bind fun same =>
        if same then some (some 0)
        else (findWord word rest).map fun place => place.map (· + 1)

/-- `++wordInList->count` -/
def incrementAt (wclist : List WordCount) (place : Nat) : Option (List WordCount) :=
  (wclist[place]?).bind fun wc =>
    (increment wc.count).map fun count => wclist.set place { wc with count := count }

/-- `add_word`. -/
def addWord (wclist : List WordCount) (word : List UInt8) : Option (List WordCount) :=
  (findWord word wclist).bind fun wordInList =>
    match wordInList with
    | some place => incrementAt wclist place
    | none => some (wclist ++ [{ word := word, count := 1 }])

/-- The loop of `count_words`, after a number of calls of `malloc`. -/
def countWordsLoop (heap : Heap) :
    List UInt8 → List UInt8 → Nat → Nat → List WordCount → Option (List WordCount)
  | [], _, _, _, wclist => some wclist
  | byte :: rest, singleWord, curWordLen, mallocs, wclist =>
      if toChar byte.toNat = eof then some wclist
      else if isLetter byte then
        if curWordLen < maxWordLen then
          countWordsLoop heap rest (singleWord.set curWordLen (lower byte))
            (curWordLen + 1) mallocs wclist
        else
          (addWord wclist singleWord).bind fun wclist =>
            countWordsLoop heap rest ((heap.fresh mallocs).set 0 (lower byte)) 1
              (mallocs + 1) wclist
      else
        (addWord wclist singleWord).bind fun wclist =>
          countWordsLoop heap rest (heap.fresh mallocs) 0 (mallocs + 1) wclist

/-- `count_words`, of a stream or a null pointer, which `fgetc` does not accept. -/
def countWords (heap : Heap) (wclist : List WordCount) :
    Option (List UInt8) → Option (List WordCount)
  | none => none
  | some infile => countWordsLoop heap infile (heap.fresh 0) 0 1 wclist

/-! ## The buffers that are handed over -/

/-- The string in a buffer, if it ends there. -/
def textOf (buffer : List UInt8) : List UInt8 := buffer.takeWhile (· ≠ 0)

/-- A buffer when a word has been stored in it. -/
def bufferOf (heap : Heap) (mallocs : Nat) (word : List UInt8) : List UInt8 :=
  word.map lower ++ (heap.fresh mallocs).drop word.length

/-- The buffers of segments that follow each other. -/
def handedOver (heap : Heap) : Nat → List (List UInt8) → List (List UInt8)
  | _, [] => []
  | mallocs, segment :: rest =>
      bufferOf heap mallocs segment :: handedOver heap (mallocs + 1) rest

/-- A letter goes behind the word. -/
theorem bufferOf_set (heap : Heap) (mallocs : Nat) {word : List UInt8} (byte : UInt8)
    (room : word.length < maxWordLen) :
    (bufferOf heap mallocs word).set word.length (lower byte) =
      bufferOf heap mallocs (word ++ [byte]) := by
  have inside : word.length < (heap.fresh mallocs).length := by
    rw [heap.sized]
    exact room
  have mapped : (word.map lower).length = word.length := List.length_map lower
  rw [bufferOf, bufferOf, List.set_append_right _ _ (by rw [mapped]), mapped,
    Nat.sub_self, List.drop_eq_getElem_cons inside, List.set_cons_zero, List.map_append,
    List.append_assoc, List.length_append]
  rfl

/-- Each separator hands over the segment in front of it. -/
theorem countWordsLoop_eq (heap : Heap) {stream tail word : List UInt8}
    {mallocs : Nat} {wclist : List WordCount} (silent : ∀ byte ∈ stream, looksLikeEof byte = false)
    (stops : ∀ singleWord length mallocs wclist,
      countWordsLoop heap tail singleWord length mallocs wclist = some wclist)
    (letters : ∀ byte ∈ word, isLetter byte = true)
    (short : ∀ segment ∈ segments isLetter (word ++ stream), segment.length < maxWordLen) :
    countWordsLoop heap (stream ++ tail) (bufferOf heap mallocs word) word.length
        (mallocs + 1) wclist =
      (handedOver heap mallocs (endedSegments isLetter (word ++ stream))).foldlM addWord
        wclist := by
  induction stream generalizing word mallocs wclist with
  | nil =>
      rw [List.nil_append, List.append_nil, stops, endedSegments_word letters]
      rfl
  | cons byte rest inductionHypothesis =>
      rcases List.forall_mem_cons.mp silent with ⟨silentHere, silentRest⟩
      have notEof : ¬toChar byte.toNat = eof := by
        rw [toChar_eq_eof_iff, silentHere]
        exact Bool.false_ne_true
      rw [List.cons_append, countWordsLoop, if_neg notEof]
      cases letter : isLetter byte with
      | true =>
          have longer : ∀ other ∈ word ++ [byte], isLetter other = true :=
            List.forall_mem_append.mpr ⟨letters, List.forall_mem_singleton.mpr letter⟩
          have regrouped : word ++ byte :: rest = (word ++ [byte]) ++ rest := by
            simp
          have length : (word ++ [byte]).length = word.length + 1 := by simp
          rw [regrouped] at short
          rcases exists_segment longer rest with ⟨segment, member, long⟩
          have bound := short segment member
          rw [length] at long
          have room : word.length < maxWordLen := by omega
          rw [if_pos rfl, if_pos room, bufferOf_set heap mallocs byte room, regrouped, ← length]
          exact inductionHypothesis silentRest longer short
      | false =>
          have later := fun wclist => @inductionHypothesis [] (mallocs + 1) wclist
            silentRest
            (fun other member => absurd member List.not_mem_nil)
            (fun segment member => short segment (by
              rw [segments_word_cons letters letter]
              exact List.mem_cons_of_mem word member))
          rw [if_neg Bool.false_ne_true, endedSegments_word_cons letters letter,
            handedOver, List.foldlM_cons]
          congr 1
          funext wclist
          exact later wclist

/-- `count_words` adds the buffers of the segments that are ended in front of the end of
the stream or of a byte 0xFF. -/
theorem countWords_eq (heap : Heap) {stream : List UInt8} (wclist : List WordCount)
    (short : ∀ word ∈ words stream, word.length < maxWordLen) :
    countWords heap wclist (some stream) =
      (handedOver heap 0 (endedSegments isLetter (heard stream))).foldlM addWord
        wclist := by
  have stops : ∀ singleWord length mallocs wclist,
      countWordsLoop heap (unheard stream) singleWord length mallocs wclist = some wclist := by
    intro singleWord length mallocs wclist
    rcases unheard_cases stream with none | ⟨byte, rest, left, last⟩
    · rw [none]
      rfl
    · rw [left, countWordsLoop, if_pos ((toChar_eq_eof_iff byte).mpr last)]
  have looped := @countWordsLoop_eq heap _ _ [] 0 wclist (heard_silent stream) stops
    (fun other member => absurd member List.not_mem_nil)
    ((forall_segments_iff (by decide) (heard stream)).mpr fun word member =>
      short word (by
        rw [words_eq]
        exact List.mem_append_left _ member))
  rw [heard_append_unheard] at looped
  exact looped

/-! ## Strings in buffers -/

/-- Comparing strings that end in their buffers. -/
theorem strcmpSame_eq {first second : List UInt8} (ended : 0 ∈ first) (endedToo : 0 ∈ second) :
    strcmpSame first second = some (decide (textOf first = textOf second)) := by
  induction first generalizing second with
  | nil => cases ended
  | cons a as inductionHypothesis =>
      cases second with
      | nil => cases endedToo
      | cons b bs =>
          rw [strcmpSame]
          by_cases same : a = b
          · subst same
            rw [if_neg (not_not_intro rfl)]
            by_cases zero : a = 0
            · simp [zero, textOf]
            · have later := inductionHypothesis
                ((List.mem_cons.mp ended).resolve_left (Ne.symm zero))
                ((List.mem_cons.mp endedToo).resolve_left (Ne.symm zero))
              rw [if_neg zero, later]
              simp [textOf, zero]
          · rw [if_pos same]
            by_cases zero : a = 0
            · have other : b ≠ 0 := fun zeroToo => same (zero.trans zeroToo.symm)
              simp [textOf, zero, other]
            · by_cases zeroToo : b = 0
              · simp [textOf, zero, zeroToo]
              · simp [textOf, zero, zeroToo, same]

/-- Strings compare as the same only if both of them end. -/
theorem strcmpSame_true {first second : List UInt8}
    (same : strcmpSame first second = some true) : 0 ∈ second := by
  induction first generalizing second with
  | nil =>
      rw [strcmpSame] at same
      · cases same
      · intro _ _ _ _ impossible
        cases impossible
  | cons a as inductionHypothesis =>
      cases second with
      | nil =>
          rw [strcmpSame] at same
          · cases same
          · intro c cs d ds _ impossible
            cases impossible
      | cons b bs =>
          rw [strcmpSame] at same
          by_cases equal : a = b
          · rw [if_neg (not_not_intro equal)] at same
            by_cases zero : a = 0
            · rw [← equal, zero]
              exact List.mem_cons_self
            · rw [if_neg zero] at same
              exact List.mem_cons_of_mem b (inductionHypothesis same)
          · rw [if_pos equal] at same
            cases same

/-! ## The list that the strings form -/

/-- An entry with the string in its buffer. -/
def WordCount.read (wc : WordCount) : HwList.WordCount :=
  { word := textOf wc.word, count := wc.count }

/-- The strings of all entries end in their buffers. -/
def Terminated (wclist : List WordCount) : Prop := ∀ wc ∈ wclist, 0 ∈ wc.word

theorem findWord_eq {wclist : List WordCount} {word : List UInt8}
    (terminated : Terminated wclist) (ended : 0 ∈ word) :
    findWord word wclist = some (HwList.findWord (wclist.map WordCount.read) (textOf word)) := by
  induction wclist with
  | nil => rfl
  | cons wc rest inductionHypothesis =>
      have later := inductionHypothesis fun other member =>
        terminated other (List.mem_cons_of_mem wc member)
      rw [findWord, strcmpSame_eq (terminated wc List.mem_cons_self) ended,
        Option.bind_some, later, HwList.findWord, HwList.findWord, List.map_cons,
        List.findIdx?_cons]
      by_cases same : textOf wc.word = textOf word
      · simp [same, WordCount.read]
      · simp [same, WordCount.read]

/-- The place that is found is that of an entry. -/
theorem findWord_some {wclist : List WordCount} {word : List UInt8} {place : Nat}
    (found : findWord word wclist = some (some place)) : 0 ∈ word := by
  induction wclist generalizing place with
  | nil => cases found
  | cons wc rest inductionHypothesis =>
      rw [findWord] at found
      rcases Option.bind_eq_some_iff.mp found with ⟨same, compared, next⟩
      cases same with
      | true => exact strcmpSame_true compared
      | false =>
          rw [if_neg Bool.false_ne_true] at next
          rcases Option.map_eq_some_iff.mp next with ⟨later, found, shifted⟩
          rcases Option.map_eq_some_iff.mp shifted with ⟨_, rfl, _⟩
          exact inductionHypothesis found

theorem incrementAt_eq (wclist : List WordCount) (place : Nat) :
    (incrementAt wclist place).map (List.map WordCount.read) =
      ((wclist.map WordCount.read)[place]?).bind fun wc =>
        (HwList.increment wc).map fun counted =>
          (wclist.map WordCount.read).set place counted := by
  rw [incrementAt, List.getElem?_map]
  cases entry : wclist[place]? with
  | none => rfl
  | some wc =>
      rw [Option.bind_some, Option.map_some, Option.bind_some, HwList.increment,
        increment, WordCount.read]
      by_cases small : wc.count + 1 < intLimit
      · simp [small, List.map_set, WordCount.read]
      · simp [small]

/-- Adding a buffer is adding the string in it. -/
theorem addWord_eq {wclist : List WordCount} {word : List UInt8}
    (terminated : Terminated wclist) (ended : 0 ∈ word) :
    (addWord wclist word).map (List.map WordCount.read) =
      HwList.addWord (wclist.map WordCount.read) (textOf word) := by
  rw [addWord, findWord_eq terminated ended, Option.bind_some, HwList.addWord]
  cases found : HwList.findWord (wclist.map WordCount.read) (textOf word) with
  | some place => exact incrementAt_eq wclist place
  | none => simp [WordCount.read]

/-- What `add_word` does to the list. -/
theorem addWord_cases {wclist after : List WordCount} {word : List UInt8}
    (added : addWord wclist word = some after) :
    (0 ∈ word ∧ ∃ front wc back, wclist = front ++ wc :: back ∧
      after = front ++ { wc with count := wc.count + 1 } :: back) ∨
      after = wclist ++ [{ word := word, count := 1 }] := by
  rw [addWord] at added
  rcases Option.bind_eq_some_iff.mp added with ⟨found, search, chosen⟩
  cases found with
  | none => exact Or.inr (Option.some.inj chosen).symm
  | some place =>
      rcases Option.bind_eq_some_iff.mp chosen with ⟨wc, entry, counted⟩
      rcases Option.map_eq_some_iff.mp counted with ⟨count, incremented, rfl⟩
      rcases List.getElem?_eq_some_iff.mp entry with ⟨inside, here⟩
      rcases HwList.entry_split inside with ⟨front, back, whole, length⟩
      rw [here] at whole
      have next : count = wc.count + 1 := by
        rw [increment] at incremented
        split at incremented
        · exact (Option.some.inj incremented).symm
        · cases incremented
      refine Or.inl ⟨findWord_some search, front, wc, back, whole, ?_⟩
      rw [whole, ← length, HwList.set_middle, next]

/-- The strings of the list still end, if that of the word does, and the other way
round. -/
theorem addWord_terminated {wclist after : List WordCount} {word : List UInt8}
    (added : addWord wclist word = some after) :
    Terminated after ↔ Terminated wclist ∧ 0 ∈ word := by
  rcases addWord_cases added with ⟨ended, front, wc, back, rfl, rfl⟩ | rfl
  · simp only [Terminated, List.forall_mem_append, List.forall_mem_cons]
    exact (and_iff_left ended).symm
  · simp only [Terminated, List.forall_mem_append, List.forall_mem_singleton]

/-- A word adds one to the sum of all counts. -/
theorem addWord_sum {wclist after : List WordCount} {word : List UInt8}
    (added : addWord wclist word = some after) :
    (after.map (·.count)).sum = (wclist.map (·.count)).sum + 1 := by
  rcases addWord_cases added with ⟨_, front, wc, back, rfl, rfl⟩ | rfl
  · simp only [List.map_append, List.map_cons, List.sum_append, List.sum_cons]
    omega
  · simp only [List.map_append, List.map_cons, List.map_nil, List.sum_append,
      List.sum_cons, List.sum_nil]
    omega

theorem addWords_terminated {buffers : List (List UInt8)} {wclist after : List WordCount}
    (added : buffers.foldlM addWord wclist = some after) :
    Terminated after ↔ Terminated wclist ∧ ∀ buffer ∈ buffers, 0 ∈ buffer := by
  induction buffers generalizing wclist with
  | nil =>
      rw [← Option.some.inj added]
      simp
  | cons first rest inductionHypothesis =>
      rw [List.foldlM_cons] at added
      rcases Option.bind_eq_some_iff.mp added with ⟨middle, addedFirst, addedRest⟩
      rw [inductionHypothesis addedRest, addWord_terminated addedFirst,
        List.forall_mem_cons, and_assoc]

theorem addWords_sum {buffers : List (List UInt8)} {wclist after : List WordCount}
    (added : buffers.foldlM addWord wclist = some after) :
    (after.map (·.count)).sum = (wclist.map (·.count)).sum + buffers.length := by
  induction buffers generalizing wclist with
  | nil =>
      rw [← Option.some.inj added]
      rfl
  | cons first rest inductionHypothesis =>
      rw [List.foldlM_cons] at added
      rcases Option.bind_eq_some_iff.mp added with ⟨middle, addedFirst, addedRest⟩
      rw [inductionHypothesis addedRest, addWord_sum addedFirst, List.length_cons]
      omega

/-- Adding buffers is adding the strings in them. -/
theorem addWords_eq {buffers : List (List UInt8)} {wclist : List WordCount}
    (terminated : Terminated wclist) (ended : ∀ buffer ∈ buffers, 0 ∈ buffer) :
    (buffers.foldlM addWord wclist).map (List.map WordCount.read) =
      (buffers.map textOf).foldlM HwList.addWord (wclist.map WordCount.read) := by
  induction buffers generalizing wclist with
  | nil => rfl
  | cons first rest inductionHypothesis =>
      rcases List.forall_mem_cons.mp ended with ⟨endedFirst, endedRest⟩
      rw [List.foldlM_cons, List.map_cons, List.foldlM_cons, ← addWord_eq terminated endedFirst]
      cases added : addWord wclist first with
      | none => rfl
      | some middle =>
          exact inductionHypothesis
            ((addWord_terminated added).mpr ⟨terminated, endedFirst⟩) endedRest

/-! ## The strings of the buffers -/

theorem lower_ne_zero {byte : UInt8} (letter : isLetter byte = true) : lower byte ≠ 0 := by
  have small := byte.toNat_lt
  rw [isLetter, isalpha, toChar, decide_eq_true_eq] at letter
  rw [lower, tolower, toChar]
  intro zero
  have value := congrArg UInt8.toNat zero
  rw [UInt8.toNat_ofNat'] at value
  change _ = 0 at value
  split at value <;> omega

/-- The string in a buffer goes on behind the word until a zero byte. -/
theorem textOf_bufferOf (heap : Heap) (mallocs : Nat) {word : List UInt8}
    (letters : ∀ byte ∈ word, isLetter byte = true) :
    textOf (bufferOf heap mallocs word) =
      word.map lower ++ textOf ((heap.fresh mallocs).drop word.length) := by
  apply List.takeWhile_append_of_pos
  intro byte member
  rcases List.mem_map.mp member with ⟨letter, inWord, rfl⟩
  simpa using lower_ne_zero (letters letter inWord)

/-- The string in a buffer is the word exactly if a zero byte is right behind it. -/
theorem textOf_bufferOf_eq_iff (heap : Heap) (mallocs : Nat) {word : List UInt8}
    (letters : ∀ byte ∈ word, isLetter byte = true) (room : word.length < maxWordLen) :
    textOf (bufferOf heap mallocs word) = word.map lower ↔
      (heap.fresh mallocs)[word.length]? = some 0 := by
  have inside : word.length < (heap.fresh mallocs).length := by
    rw [heap.sized]
    exact room
  rw [textOf_bufferOf heap mallocs letters, List.append_right_eq_self,
    List.drop_eq_getElem_cons inside, List.getElem?_eq_getElem inside]
  by_cases zero : (heap.fresh mallocs)[word.length] = 0
  · simp [textOf, zero]
  · simp [textOf, zero]
    omega

theorem zero_mem_bufferOf {heap : Heap} {mallocs : Nat} {word : List UInt8}
    (clear : (heap.fresh mallocs)[word.length]? = some 0) :
    0 ∈ bufferOf heap mallocs word := by
  apply List.mem_append_right
  apply List.mem_of_getElem? (i := 0)
  rw [List.getElem?_drop]
  exact clear

theorem length_handedOver (heap : Heap) (mallocs : Nat) (segments : List (List UInt8)) :
    (handedOver heap mallocs segments).length = segments.length := by
  induction segments generalizing mallocs with
  | nil => rfl
  | cons first rest inductionHypothesis =>
      rw [handedOver, List.length_cons, inductionHypothesis, List.length_cons]

/-- A zero byte is right behind every word in its buffer. -/
def Clear (heap : Heap) (mallocs : Nat) (words : List (List UInt8)) : Prop :=
  ∀ index word, words[index]? = some word → (heap.fresh (mallocs + index))[word.length]? = some 0

theorem clear_cons {heap : Heap} {mallocs : Nat} {first : List UInt8} {rest : List (List UInt8)} :
    Clear heap mallocs (first :: rest) ↔
      (heap.fresh mallocs)[first.length]? = some 0 ∧ Clear heap (mallocs + 1) rest := by
  constructor
  · intro clear
    refine ⟨clear 0 first rfl, ?_⟩
    intro index word there
    rw [Nat.add_assoc, Nat.add_comm 1]
    exact clear (index + 1) word there
  · rintro ⟨clearFirst, clearRest⟩ index word there
    cases index with
    | zero =>
        cases there
        exact clearFirst
    | succ index =>
        rw [← Nat.add_assoc, Nat.add_right_comm]
        exact clearRest index word there

/-- The strings in the buffers are the words exactly if their buffers are clear behind
them. -/
theorem handedOver_texts_iff {heap : Heap} {mallocs : Nat} {words : List (List UInt8)}
    (letters : ∀ word ∈ words, ∀ byte ∈ word, isLetter byte = true)
    (short : ∀ word ∈ words, word.length < maxWordLen) :
    (handedOver heap mallocs words).map textOf = words.map (List.map lower) ↔
      Clear heap mallocs words := by
  induction words generalizing mallocs with
  | nil =>
      refine iff_of_true rfl ?_
      intro index word impossible
      cases impossible
  | cons first rest inductionHypothesis =>
      rcases List.forall_mem_cons.mp letters with ⟨lettersFirst, lettersRest⟩
      rcases List.forall_mem_cons.mp short with ⟨shortFirst, shortRest⟩
      rw [handedOver, List.map_cons, List.map_cons, List.cons.injEq, clear_cons,
        textOf_bufferOf_eq_iff heap mallocs lettersFirst shortFirst,
        inductionHypothesis lettersRest shortRest]

theorem handedOver_ended {heap : Heap} {mallocs : Nat} {words : List (List UInt8)}
    (clear : Clear heap mallocs words) :
    ∀ buffer ∈ handedOver heap mallocs words, 0 ∈ buffer := by
  induction words generalizing mallocs with
  | nil =>
      intro buffer impossible
      cases impossible
  | cons first rest inductionHypothesis =>
      rcases clear_cons.mp clear with ⟨clearFirst, clearRest⟩
      rw [handedOver, List.forall_mem_cons]
      exact ⟨zero_mem_bufferOf clearFirst, inductionHypothesis clearRest⟩

/-- The strings in the buffers begin with the words. -/
theorem handedOver_prefixes (heap : Heap) (mallocs : Nat) {words : List (List UInt8)}
    (letters : ∀ word ∈ words, ∀ byte ∈ word, isLetter byte = true) :
    List.Forall₂ (· <+: ·) (words.map (List.map lower))
      ((handedOver heap mallocs words).map textOf) := by
  induction words generalizing mallocs with
  | nil => exact List.Forall₂.nil
  | cons first rest inductionHypothesis =>
      rcases List.forall_mem_cons.mp letters with ⟨lettersFirst, lettersRest⟩
      rw [handedOver, List.map_cons, List.map_cons]
      refine List.Forall₂.cons ?_ (inductionHypothesis _ lettersRest)
      rw [textOf_bufferOf heap mallocs lettersFirst]
      exact List.prefix_append _ _

/-! ## What the list has counted -/

/-- The words of a stream in lower case. -/
def lowerWords (stream : List UInt8) : List (List UInt8) := (words stream).map (List.map lower)

/-- One entry for each word of the stream in lower case, with the number of times that it
occurs. -/
structure CountsRight (stream : List UInt8) (wclist : List WordCount) : Prop where
  terminated : Terminated wclist
  once : (wclist.map fun wc => textOf wc.word).Nodup
  entries : ∀ word, (∃ wc ∈ wclist, textOf wc.word = word) ↔ word ∈ lowerWords stream
  counts : ∀ wc ∈ wclist, wc.count = (lowerWords stream).count (textOf wc.word)
  nonempty : ∀ wc ∈ wclist, textOf wc.word ≠ []
  total : numWords (some stream) = some (wclist.map (·.count)).sum

theorem ne_nil_of_mem_lowerWords {stream word : List UInt8}
    (member : word ∈ lowerWords stream) : word ≠ [] := by
  rcases List.mem_map.mp member with ⟨run, inWords, rfl⟩
  have nonempty := (List.mem_filter.mp inWords).2
  simpa using nonempty

theorem countsRight_iff {stream : List UInt8} {wclist : List WordCount}
    (sound : HwList.EntriesSound (wclist.map WordCount.read)) :
    CountsRight stream wclist ↔
      Terminated wclist ∧
        (∀ word, HwList.countOf word (wclist.map WordCount.read) = (lowerWords stream).count word) ∧
          numWords (some stream) = some (wclist.map (·.count)).sum := by
  have counted : ∀ wc ∈ wclist,
      HwList.countOf (textOf wc.word) (wclist.map WordCount.read) = wc.count :=
    fun wc member => sound.countOf_of_mem (List.mem_map_of_mem member)
  have absent : ∀ word, HwList.countOf word (wclist.map WordCount.read) = 0 ↔
      ∀ wc ∈ wclist, textOf wc.word ≠ word := by
    intro word
    rw [HwList.countOf_eq_zero_iff sound.counted, List.forall_mem_map]
    rfl
  constructor
  · intro right
    refine ⟨right.terminated, ?_, right.total⟩
    intro word
    by_cases present : ∃ wc ∈ wclist, textOf wc.word = word
    · rcases present with ⟨wc, member, rfl⟩
      rw [counted wc member, right.counts wc member]
    · have missing : word ∉ lowerWords stream := fun member =>
        present ((right.entries word).mpr member)
      rw [List.count_eq_zero.mpr missing, absent]
      intro wc member same
      exact present ⟨wc, member, same⟩
  · rintro ⟨terminated, same, total⟩
    have entries : ∀ word, (∃ wc ∈ wclist, textOf wc.word = word) ↔ word ∈ lowerWords stream := by
      intro word
      rw [← List.count_pos_iff, ← same, Nat.pos_iff_ne_zero, Ne, absent]
      simp
    refine ⟨terminated, ?_, entries, ?_, ?_, total⟩
    · have once := sound.once
      rw [List.map_map] at once
      exact once
    · intro wc member
      rw [← counted wc member, same]
    · intro wc member
      exact ne_nil_of_mem_lowerWords ((entries _).mp ⟨wc, member, rfl⟩)

/-- Strings that end in their buffers are counted, if there are not too many. -/
theorem addWords_counted {buffers : List (List UInt8)}
    (ended : ∀ buffer ∈ buffers, 0 ∈ buffer) (few : buffers.length < intLimit) :
    ∃ wclist, buffers.foldlM addWord [] = some wclist ∧
      HwList.EntriesSound (wclist.map WordCount.read) ∧
        ∀ word, HwList.countOf word (wclist.map WordCount.read) =
          (buffers.map textOf).count word := by
  have small : ∀ word, HwList.countOf word [] + (buffers.map textOf).count word <
      intLimit := by
    intro word
    have bound : (buffers.map textOf).count word ≤ (buffers.map textOf).length :=
      List.count_le_length
    rw [List.length_map] at bound
    rw [HwList.countOf, Nat.zero_add]
    omega
  rcases HwList.addWords_spec HwList.entriesSound_nil small with ⟨after, added, sound, counts⟩
  have refined := addWords_eq (fun wc member => absurd member List.not_mem_nil) ended
  rw [List.map_nil, added] at refined
  rcases Option.map_eq_some_iff.mp refined with ⟨wclist, ran, rfl⟩
  refine ⟨wclist, ran, sound, ?_⟩
  intro word
  rw [counts, HwList.countOf, Nat.zero_add]

/-- No separator stands at the start of what is read or right behind another one. -/
def SeparatorsApart (stream : List UInt8) : Prop := [] ∉ endedSegments isLetter (heard stream)

theorem separatorsApart_iff (stream : List UInt8) :
    SeparatorsApart stream ↔
      (endedRuns isLetter (heard stream)).length =
        (endedSegments isLetter (heard stream)).length := by
  rw [endedRuns, List.length_filter_eq_length_iff, SeparatorsApart]
  constructor
  · intro apart segment member
    by_cases empty : segment = []
    · exact absurd (empty ▸ member) apart
    · simpa using empty
  · intro nonempty member
    have impossible := nonempty [] member
    cases impossible

theorem words_eq_handed {stream : List UInt8} (apart : SeparatorsApart stream)
    (ended : WordsEnded stream) :
    words stream = endedSegments isLetter (heard stream) := by
  rw [words_eq_ended ended, endedRuns, List.filter_eq_self]
  exact List.length_filter_eq_length_iff.mp ((separatorsApart_iff stream).mp apart)

/-- For a stream whose words have at most 63 letters, the words are counted exactly if
there are single separators between them and one behind the last one, but none in front of
the first one, if the buffer for each word happens to have a zero byte right behind it,
and if there are not too many words. -/
theorem count_words_counts_iff (heap : Heap) (stream : List UInt8)
    (short : ∀ word ∈ words stream, word.length ≤ 63) :
    (∃ wclist, countWords heap [] (some stream) = some wclist ∧
        CountsRight stream wclist) ↔
      SeparatorsApart stream ∧ WordsEnded stream ∧ Clear heap 0 (words stream) ∧
        (words stream).length < intLimit := by
  have room : ∀ word ∈ words stream, word.length < maxWordLen :=
    fun word member => Nat.lt_succ_of_le (short word member)
  have letters : ∀ word ∈ words stream, ∀ byte ∈ word, isLetter byte = true :=
    fun word member => satisfied_of_mem_runs member
  rw [countWords_eq heap [] room]
  constructor
  · rintro ⟨wclist, ran, right⟩
    have handed := length_handedOver heap 0 (endedSegments isLetter (heard stream))
    have sum := addWords_sum ran
    rw [List.map_nil, List.sum_nil, Nat.zero_add, handed] at sum
    -- as many words are counted by the other function
    rcases (numWords_iff stream _).mp right.total with ⟨_, total, few⟩
    have apart : SeparatorsApart stream := (separatorsApart_iff stream).mpr (total.symm.trans sum)
    have endedStrings := ((addWords_terminated ran).mp right.terminated).2
    rcases addWords_counted endedStrings (by omega) with ⟨same, ranToo, sound, counts⟩
    rw [ran] at ranToo
    cases ranToo
    -- the strings are the words in some order
    have perm : ((handedOver heap 0 (endedSegments isLetter (heard stream))).map
        textOf).Perm (lowerWords stream) := by
      rw [List.perm_iff_count]
      intro word
      rw [← counts, ((countsRight_iff sound).mp right).2.1]
    have many := perm.length_eq
    rw [List.length_map, handed, lowerWords, List.length_map] at many
    have ended : WordsEnded stream := (wordsEnded_iff stream).mpr (by omega)
    rw [← words_eq_handed apart ended] at perm
    have same := eq_of_length_flatten_le (handedOver_prefixes heap 0 letters)
      perm.flatten.length_eq.le
    exact ⟨apart, ended, (handedOver_texts_iff letters room).mp same, by omega⟩
  · rintro ⟨apart, ended, clear, few⟩
    have whole := words_eq_handed apart ended
    rw [← whole]
    have handed := length_handedOver heap 0 (words stream)
    rcases addWords_counted (handedOver_ended clear) (by omega) with ⟨wclist, ran, sound, counts⟩
    have sum := addWords_sum ran
    rw [List.map_nil, List.sum_nil, Nat.zero_add, handed] at sum
    refine ⟨wclist, ran, (countsRight_iff sound).mpr ⟨?_, ?_, ?_⟩⟩
    · exact (addWords_terminated ran).mpr
        ⟨fun wc member => absurd member List.not_mem_nil, handedOver_ended clear⟩
    · intro word
      rw [counts, (handedOver_texts_iff letters room).mpr clear]
      rfl
    · rw [sum]
      exact (num_words_counts_iff stream).mpr
        ⟨ended, fun word member => Nat.lt_trans (room word member) (by decide), few⟩

/-- Memory that has not been used before. -/
def zeroHeap : Heap where
  fresh := fun _ => List.replicate maxWordLen 0
  sized := fun _ => List.length_replicate

/-- One word with a separator behind it. -/
theorem count_words_counts_one :
    ∃ wclist, countWords zeroHeap [] (some [97, 10]) = some wclist ∧
      CountsRight [97, 10] wclist := by
  apply (count_words_counts_iff zeroHeap [97, 10] (by decide)).mpr
  have single : words [97, 10] = [[97]] := by decide
  refine ⟨?_, ?_, ?_, ?_⟩
  · unfold SeparatorsApart
    decide
  · have nothing : unheard [97, 10] = [] := rfl
    have separator : (heard [97, 10]).getLast? = some 10 := rfl
    constructor
    · simp [nothing]
    · rw [separator]
      intro byte member
      cases member
      rfl
  · rw [single, clear_cons]
    exact ⟨rfl, fun _ _ there => by cases there⟩
  · rw [single]
    decide

/-- A word with two separators behind it: an empty word is counted as well. -/
theorem count_words_empty :
    ∃ wclist, countWords zeroHeap [] (some [97, 10, 10]) = some wclist ∧
      (∃ wc ∈ wclist, textOf wc.word = []) ∧ ¬CountsRight [97, 10, 10] wclist := by
  refine ⟨[⟨97 :: List.replicate 63 0, 1⟩, ⟨List.replicate 64 0, 1⟩], rfl, ?_, ?_⟩
  · exact ⟨_, List.mem_cons_of_mem _ List.mem_cons_self, rfl⟩
  · intro right
    exact right.nonempty _ (List.mem_cons_of_mem _ List.mem_cons_self) rfl

end CS162.Words

import Mathlib.Algebra.Order.Ring.Nat
import Mathlib.Data.List.Lex
import Mathlib.Data.List.Count
import CS162.Kernel.ListSort

/-!
# Word counts

`word_count_l.c`: a list of words with their counts, to which words are added
one after another.  The list is the sequence that it represents, and `count` is
an `int`: adding to the largest one is undefined and gives `none`.
-/

namespace CS162.HwList

open CS162.Kernel

/-- A string, without the zero byte at its end. -/
abbrev Word := List UInt8

/-- `word_count_t`. -/
structure WordCount where
  word : Word
  count : Nat
  deriving DecidableEq

/-- One more than the largest `int`. -/
def intLimit : Nat := 2 ^ 31

/-- `++wc->count` -/
def increment (wc : WordCount) : Option WordCount :=
  if wc.count + 1 < intLimit then some { wc with count := wc.count + 1 }
  else none

/-- `find_word`: the place of a word in the list. -/
def findWord (wclist : List WordCount) (word : Word) : Option Nat :=
  wclist.findIdx? fun wc => wc.word == word

/-- `add_word`. -/
def addWord (wclist : List WordCount) (word : Word) : Option (List WordCount) :=
  match findWord wclist word with
  | some place =>
      wclist[place]?.bind fun wc =>
        (increment wc).map fun counted => wclist.set place counted
  | none => some (wclist ++ [{ word := word, count := 1 }])

/-- `wordcount_sort`. -/
def wordcountSort (wclist : List WordCount)
    (less : WordCount → WordCount → Bool) : Option (List WordCount) :=
  listSort less (wclist.length + 1) wclist

/-- Words added to an empty list one after another, which is then sorted. -/
def countSequentially (less : WordCount → WordCount → Bool)
    (words : List Word) : Option (List WordCount) :=
  (words.foldlM addWord []).bind fun wclist => wordcountSort wclist less

/-- The order of words that `strcmp` gives. -/
def Alphabetical (a b : Word) : Prop := a.map UInt8.toNat < b.map UInt8.toNat

/-- What `word_helpers.h` says of `less_count`. -/
def LessCount (less : WordCount → WordCount → Bool) : Prop :=
  ∀ a b, less a b = true ↔ a.count < b.count ∨ (a.count = b.count ∧ Alphabetical a.word b.word)

/-! ## Counts -/

/-- How often the list has counted a word. -/
def countOf (word : Word) : List WordCount → Nat
  | [] => 0
  | wc :: rest => (if wc.word = word then wc.count else 0) + countOf word rest

/-- One entry for each word, and none for a word that was not counted. -/
structure EntriesSound (wclist : List WordCount) : Prop where
  once : (wclist.map (·.word)).Nodup
  counted : ∀ wc ∈ wclist, 0 < wc.count
  bounded : ∀ wc ∈ wclist, wc.count < intLimit

theorem countOf_append (word : Word) (left right : List WordCount) :
    countOf word (left ++ right) = countOf word left + countOf word right := by
  induction left with
  | nil => simp [countOf]
  | cons wc rest inductionHypothesis =>
      rw [List.cons_append, countOf, countOf, inductionHypothesis]
      omega

theorem countOf_perm {left right : List WordCount} (perm : left.Perm right)
    (word : Word) : countOf word left = countOf word right := by
  induction perm with
  | nil => rfl
  | cons wc _ inductionHypothesis => rw [countOf, countOf, inductionHypothesis]
  | swap first second rest =>
      simp only [countOf]
      omega
  | trans _ _ firstHypothesis secondHypothesis =>
      exact firstHypothesis.trans secondHypothesis

theorem countOf_eq_zero_iff {word : Word} {wclist : List WordCount}
    (counted : ∀ wc ∈ wclist, 0 < wc.count) :
    countOf word wclist = 0 ↔ ∀ wc ∈ wclist, wc.word ≠ word := by
  induction wclist with
  | nil => simp [countOf]
  | cons wc rest inductionHypothesis =>
      have positive := counted wc List.mem_cons_self
      rw [countOf, Nat.add_eq_zero_iff, inductionHypothesis
        fun other member => counted other (List.mem_cons_of_mem _ member),
        List.forall_mem_cons]
      by_cases same : wc.word = word
      · simp [same]
        omega
      · simp [same]

theorem entry_split {α : Type} {entries : List α} {place : Nat} (inside : place < entries.length) :
    ∃ front back, entries = front ++ entries[place] :: back ∧
      front.length = place := by
  refine ⟨entries.take place, entries.drop (place + 1), ?_, ?_⟩
  · rw [← List.drop_eq_getElem_cons inside, List.take_append_drop]
  · rw [List.length_take]
    omega

theorem set_middle {α : Type} (front back : List α) (old new : α) :
    (front ++ old :: back).set front.length new = front ++ new :: back := by
  rw [List.set_append_right _ _ (Nat.le_refl _), Nat.sub_self]
  rfl

namespace EntriesSound

variable {wclist : List WordCount} {wc : WordCount}

theorem countOf_of_mem (sound : EntriesSound wclist) (member : wc ∈ wclist) :
    countOf wc.word wclist = wc.count := by
  rcases List.append_of_mem member with ⟨front, back, rfl⟩
  have once := sound.once
  rw [List.map_append, List.map_cons] at once
  have apart := List.nodup_append.mp once
  have others : ∀ part : List WordCount,
      (∀ other ∈ part, other ∈ front ++ wc :: back) →
      (∀ other ∈ part, other.word ≠ wc.word) → countOf wc.word part = 0 := by
    intro part within different
    exact (countOf_eq_zero_iff fun other inPart =>
      sound.counted other (within other inPart)).mpr different
  have first : countOf wc.word front = 0 := by
    apply others front
    · intro other inFront
      exact List.mem_append_left _ inFront
    · intro other inFront
      exact apart.2.2 other.word (List.mem_map_of_mem inFront) wc.word List.mem_cons_self
  have last : countOf wc.word back = 0 := by
    apply others back
    · intro other inBack
      exact List.mem_append_right _ (List.mem_cons_of_mem _ inBack)
    · intro other inBack same
      apply (List.nodup_cons.mp apart.2.1).1
      rw [← same]
      exact List.mem_map_of_mem inBack
  rw [countOf_append, countOf, first, last, if_pos rfl]
  omega

/-- The counts of the words decide what the entries are. -/
theorem mem_iff (sound : EntriesSound wclist) :
    wc ∈ wclist ↔ 0 < wc.count ∧ countOf wc.word wclist = wc.count := by
  constructor
  · intro member
    exact ⟨sound.counted wc member, sound.countOf_of_mem member⟩
  · rintro ⟨positive, counted⟩
    have present : ¬∀ other ∈ wclist, other.word ≠ wc.word := by
      rw [← countOf_eq_zero_iff sound.counted]
      omega
    simp only [not_forall, not_not] at present
    rcases present with ⟨other, member, sameWord⟩
    have sameCount := sound.countOf_of_mem member
    rw [sameWord, counted] at sameCount
    have same : wc = other := by
      cases wc
      cases other
      simp_all
    rw [same]
    exact member

theorem perm {other : List WordCount} (sound : EntriesSound wclist)
    (soundOther : EntriesSound other) (same : ∀ word, countOf word wclist = countOf word other) :
    wclist.Perm other := by
  apply (List.perm_ext_iff_of_nodup (List.Nodup.of_map _ sound.once)
    (List.Nodup.of_map _ soundOther.once)).mpr
  intro wc
  rw [sound.mem_iff, soundOther.mem_iff, same]

theorem of_perm {other : List WordCount} (sound : EntriesSound wclist)
    (perm : other.Perm wclist) : EntriesSound other := by
  constructor
  · exact (perm.map _).nodup_iff.mpr sound.once
  · intro wc member
    exact sound.counted wc (perm.mem_iff.mp member)
  · intro wc member
    exact sound.bounded wc (perm.mem_iff.mp member)

/-- An entry for a word that had none. -/
theorem append (sound : EntriesSound wclist) {word : Word}
    (absent : ∀ wc ∈ wclist, wc.word ≠ word) :
    EntriesSound (wclist ++ [{ word := word, count := 1 }]) := by
  constructor
  · rw [List.map_append]
    apply List.nodup_append.mpr
    refine ⟨sound.once, List.nodup_singleton _, ?_⟩
    intro other inList last isLast
    rcases List.mem_map.mp inList with ⟨wc, member, rfl⟩
    rw [List.mem_singleton.mp isLast]
    exact absent wc member
  · intro wc member
    rcases List.mem_append.mp member with inList | isLast
    · exact sound.counted wc inList
    · rw [List.mem_singleton.mp isLast]
      exact Nat.one_pos
  · intro wc member
    rcases List.mem_append.mp member with inList | isLast
    · exact sound.bounded wc inList
    · rw [List.mem_singleton.mp isLast]
      exact Nat.one_lt_two_pow (by omega)

/-- One entry counts one more. -/
theorem set (sound : EntriesSound wclist) {place : Nat}
    (entry : wclist[place]? = some wc) (small : wc.count + 1 < intLimit) :
    EntriesSound (wclist.set place { wc with count := wc.count + 1 }) ∧
      ∀ word, countOf word
          (wclist.set place { wc with count := wc.count + 1 }) =
        countOf word wclist + if wc.word = word then 1 else 0 := by
  rcases List.getElem?_eq_some_iff.mp entry with ⟨inside, rfl⟩
  rcases entry_split inside with ⟨front, back, whole, length⟩
  generalize wclist[place] = wc at whole small ⊢
  subst whole
  subst length
  rw [set_middle]
  constructor
  · constructor
    · have once := sound.once
      rw [List.map_append, List.map_cons] at once ⊢
      exact once
    · intro other member
      rcases List.mem_append.mp member with inFront | inRear
      · exact sound.counted other (List.mem_append_left _ inFront)
      · rcases List.mem_cons.mp inRear with rfl | inBack
        · exact Nat.succ_pos wc.count
        · exact sound.counted other (List.mem_append_right _ (List.mem_cons_of_mem _ inBack))
    · intro other member
      rcases List.mem_append.mp member with inFront | inRear
      · exact sound.bounded other (List.mem_append_left _ inFront)
      · rcases List.mem_cons.mp inRear with rfl | inBack
        · exact small
        · exact sound.bounded other (List.mem_append_right _ (List.mem_cons_of_mem _ inBack))
  · intro word
    simp only [countOf_append, countOf]
    by_cases same : wc.word = word
    · simp only [if_pos same]
      omega
    · simp only [if_neg same]
      rfl

end EntriesSound

/-! ## Adding words -/

theorem findWord_none {wclist : List WordCount} {word : Word}
    (missing : findWord wclist word = none) :
    ∀ wc ∈ wclist, wc.word ≠ word := by
  intro wc member same
  have apart := List.findIdx?_eq_none_iff.mp missing wc member
  simp [same] at apart

theorem findWord_some {wclist : List WordCount} {word : Word} {place : Nat}
    (found : findWord wclist word = some place) :
    ∃ wc, wclist[place]? = some wc ∧ wc.word = word := by
  rcases List.findIdx?_eq_some_iff_getElem.mp found with ⟨inside, same, _⟩
  refine ⟨wclist[place], List.getElem?_eq_getElem inside, ?_⟩
  simpa using same

theorem countOf_lt {wclist : List WordCount} (sound : EntriesSound wclist)
    (word : Word) : countOf word wclist < intLimit := by
  by_cases absent : ∀ wc ∈ wclist, wc.word ≠ word
  · rw [(countOf_eq_zero_iff sound.counted).mpr absent]
    exact Nat.two_pow_pos 31
  · simp only [not_forall, not_not] at absent
    rcases absent with ⟨wc, member, same⟩
    rw [← same, sound.countOf_of_mem member]
    exact sound.bounded wc member

/-- A word that has been counted less than the largest `int` is counted once
more, and no other. -/
theorem addWord_spec {wclist : List WordCount} (sound : EntriesSound wclist)
    {word : Word} (small : countOf word wclist + 1 < intLimit) :
    ∃ after, addWord wclist word = some after ∧ EntriesSound after ∧
      ∀ other, countOf other after = countOf other wclist + if word = other then 1 else 0 := by
  cases found : findWord wclist word with
  | none =>
      have absent := findWord_none found
      refine ⟨_, by rw [addWord, found], sound.append absent, ?_⟩
      intro other
      rw [countOf_append]
      simp [countOf]
  | some place =>
      rcases findWord_some found with ⟨wc, entry, same⟩
      rw [← same, sound.countOf_of_mem (List.mem_of_getElem? entry)] at small
      have counted := sound.set entry small
      refine ⟨_, ?_, counted.1, ?_⟩
      · rw [addWord, found]
        simp [entry, increment, small]
      · rw [← same]
        exact counted.2

/-- Words added one after another, as long as no count overflows. -/
theorem addWords_spec {words : List Word} {wclist : List WordCount} (sound : EntriesSound wclist)
    (small : ∀ word, countOf word wclist + words.count word < intLimit) :
    ∃ after, words.foldlM addWord wclist = some after ∧ EntriesSound after ∧
      ∀ word, countOf word after = countOf word wclist + words.count word := by
  induction words generalizing wclist with
  | nil => exact ⟨wclist, rfl, sound, fun word => rfl⟩
  | cons first rest inductionHypothesis =>
      have firstSmall := small first
      rw [List.count_cons_self] at firstSmall
      rcases addWord_spec sound (by omega : countOf first wclist + 1 < intLimit)
        with ⟨middle, added, soundMiddle, counts⟩
      have restSmall : ∀ word, countOf word middle + rest.count word < intLimit := by
        intro word
        have before := small word
        rw [List.count_cons] at before
        rw [counts]
        simp only [beq_iff_eq] at before
        omega
      rcases inductionHypothesis soundMiddle restSmall with ⟨after, addedAll, soundAfter, allCounts⟩
      refine ⟨after, ?_, soundAfter, ?_⟩
      · rw [List.foldlM_cons, added]
        exact addedAll
      · intro word
        rw [allCounts, counts, List.count_cons]
        simp only [beq_iff_eq]
        omega

theorem entriesSound_nil : EntriesSound [] := by
  constructor <;> simp

/-! ## Sorting by count -/

theorem alphabetical_antisymm {a b : Word} (first : ¬Alphabetical a b)
    (second : ¬Alphabetical b a) : a = b := by
  have same : a.map UInt8.toNat = b.map UInt8.toNat :=
    le_antisymm (not_lt.mp second) (not_lt.mp first)
  exact List.map_injective_iff.mpr (fun _ _ => UInt8.toNat.inj) same

namespace LessCount

variable {less : WordCount → WordCount → Bool}

theorem irrefl (lessCount : LessCount less) (a : WordCount) : less a a = false := by
  by_contra smaller
  rcases (lessCount a a).mp (by simpa using smaller) with first | ⟨_, second⟩
  · exact Nat.lt_irrefl _ first
  · exact lt_irrefl (a.word.map UInt8.toNat) second

theorem trans (lessCount : LessCount less) {a b c : WordCount}
    (first : less a b = true) (second : less b c = true) :
    less a c = true := by
  apply (lessCount a c).mpr
  rcases (lessCount a b).mp first with before | ⟨same, before⟩
  · rcases (lessCount b c).mp second with after | ⟨same, _⟩
    · exact Or.inl (Nat.lt_trans before after)
    · exact Or.inl (same ▸ before)
  · rcases (lessCount b c).mp second with after | ⟨sameAfter, after⟩
    · exact Or.inl (same ▸ after)
    · exact Or.inr ⟨same.trans sameAfter, lt_trans before after⟩

/-- No two different entries are incomparable. -/
theorem antisymm (lessCount : LessCount less) {a b : WordCount}
    (first : less a b = false) (second : less b a = false) : a = b := by
  have notFirst := mt (lessCount a b).mpr (by simp [first])
  have notSecond := mt (lessCount b a).mpr (by simp [second])
  simp only [not_or, not_and] at notFirst notSecond
  have sameCount : a.count = b.count := by omega
  have sameWord := alphabetical_antisymm (notFirst.2 sameCount) (notSecond.2 sameCount.symm)
  cases a
  cases b
  simp_all

theorem strictWeakOrder (lessCount : LessCount less) : StrictWeakOrder less := by
  constructor
  · exact lessCount.irrefl
  · intro a b c
    exact lessCount.trans
  · intro a b c forward backward forward' backward'
    cases lessCount.antisymm forward backward
    cases lessCount.antisymm forward' backward'
    exact ⟨lessCount.irrefl a, lessCount.irrefl a⟩

end LessCount

variable {less : WordCount → WordCount → Bool} {wclist other : List WordCount}

theorem wordcountSort_spec (lessCount : LessCount less) (wclist : List WordCount) :
    ∃ sorted, wordcountSort wclist less = some sorted ∧
      sorted.Perm wclist ∧ Ascending less sorted :=
  listSort_spec lessCount.strictWeakOrder (Nat.lt_succ_self _)

/-- Lists that have counted the same are the same after sorting. -/
theorem wordcountSort_unique (lessCount : LessCount less)
    (sound : EntriesSound wclist) (soundOther : EntriesSound other)
    (same : ∀ word, countOf word wclist = countOf word other) :
    wordcountSort wclist less = wordcountSort other less := by
  rcases wordcountSort_spec lessCount wclist with ⟨sorted, sorts, perm, ascending⟩
  rcases wordcountSort_spec lessCount other with
    ⟨sortedOther, sortsOther, permOther, ascendingOther⟩
  have perms := perm.trans ((sound.perm soundOther same).trans permOther.symm)
  rw [sorts, sortsOther]
  congr 1
  apply ascending.unique ascendingOther perms
  intro a b _ _ forward backward
  exact lessCount.antisymm forward backward

end CS162.HwList

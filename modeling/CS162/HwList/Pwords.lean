import Mathlib.Algebra.BigOperators.Fin
import Mathlib.Data.Fintype.Option
import CS162.Foundation.Tally
import CS162.Foundation.TransitionSystem
import CS162.HwList.WordCount

/-!
# Counting words in parallel

`pwords.c` with `word_count_p.c`: one thread for each file adds its words to a
shared list under a lock, and the main thread joins all of them and sorts the
list.  The threads may interleave between any two accesses to the list.  What is
undefined, such as a null pointer from `malloc` or a count that overflows, stops
the program.
-/

namespace CS162.HwList

open CS162.Foundation
open CS162.Kernel

/-- Where a thread is in `count_words` and `add_word`, with the words it has
still to add. -/
inductive Point where
  | waiting (words : List Word)
  | ready (words : List Word)
  | searching (word : Word) (rest : List Word) (place : Nat)
  | found (word : Word) (rest : List Word) (place : Nat)
  | loaded (word : Word) (rest : List Word) (place : Nat) (wc : WordCount)
  | missing (word : Word) (rest : List Word)
  | created (word : Word) (rest : List Word)
  | unlocking (rest : List Word)
  | exited

namespace Point

/-- The words that are not in the list yet. -/
def pending : Point → List Word
  | .waiting words => words
  | .ready words => words
  | .searching word rest _ => word :: rest
  | .found word rest _ => word :: rest
  | .loaded word rest _ _ => word :: rest
  | .missing word rest => word :: rest
  | .created word rest => word :: rest
  | .unlocking rest => rest
  | .exited => []

/-- The thread is between `pthread_mutex_lock` and `pthread_mutex_unlock`. -/
def locks : Point → Bool
  | .waiting _ => false
  | .ready _ => false
  | .searching _ _ _ => true
  | .found _ _ _ => true
  | .loaded _ _ _ _ => true
  | .missing _ _ => true
  | .created _ _ => true
  | .unlocking _ => true
  | .exited => false

end Point

/-- The main thread, and a thread for each file. -/
abbrev Party (n : Nat) := Option (Fin n)

/-- The shared list with its lock, the threads, and how far `main` is. -/
structure Pwords (n : Nat) where
  lst : List WordCount
  lock : Option (Party n)
  point : Party n → Point
  created : Nat
  joined : Nat
  sorted : Bool

inductive PwordsState (n : Nat) where
  | running (s : Pwords n)
  | stopped

/-- A thread goes on, where `malloc` may fail it, or `main` does. -/
inductive PwordsMove (n : Nat) where
  | run (party : Party n) (malloc : Bool)
  | create (succeeds : Bool)
  | join
  | sort

namespace Pwords

variable {n : Nat}

def setPoint (s : Pwords n) (party : Party n) (point : Point) : Pwords n :=
  { s with point := Function.update s.point party point }

/-- One access of a thread in `count_words_wrapper` and `add_word`. -/
def run (s : Pwords n) (party : Party n) (malloc : Bool) : Option (PwordsState n) :=
  match s.point party with
  | .waiting _ => none
  | .ready [] =>
      -- the main thread does not exit after its words
      if party.isSome then some (.running (s.setPoint party .exited)) else none
  | .ready (word :: rest) =>
      if s.lock.isNone then
        some (.running (setPoint { s with lock := some party } party (.searching word rest 0)))
      else none
  | .searching word rest place =>
      match s.lst[place]? with
      | some wc =>
          if wc.word = word then
            some (.running (s.setPoint party (.found word rest place)))
          else
            some (.running (s.setPoint party (.searching word rest (place + 1))))
      | none => some (.running (s.setPoint party (.missing word rest)))
  | .found word rest place =>
      s.lst[place]?.map fun wc =>
        .running (s.setPoint party (.loaded word rest place wc))
  | .loaded _ rest place wc =>
      match increment wc with
      | some counted =>
          some (.running
            (setPoint { s with lst := s.lst.set place counted } party
              (.unlocking rest)))
      | none => some .stopped
  | .missing word rest =>
      if malloc then some (.running (s.setPoint party (.created word rest)))
      else some .stopped
  | .created word rest =>
      some (.running
        (setPoint { s with lst := s.lst ++ [{ word := word, count := 1 }] }
          party (.unlocking rest)))
  | .unlocking rest =>
      some (.running (setPoint { s with lock := none } party (.ready rest)))
  | .exited => none

/-- The main thread has no words of its own left to count. -/
def mainReady (s : Pwords n) : Bool :=
  match s.point none with
  | .ready [] => true
  | _ => false

/-- `pthread_create` for the next file. -/
def create (s : Pwords n) (succeeds : Bool) : Option (PwordsState n) :=
  if inside : s.created < n then
    if s.mainReady then
      if succeeds then
        let party : Party n := some ⟨s.created, inside⟩
        some (.running
          (setPoint { s with created := s.created + 1 } party (.ready (s.point party).pending)))
      else some .stopped
    else none
  else none

/-- `pthread_join` of the next thread. -/
def join (s : Pwords n) : Option (PwordsState n) :=
  if inside : s.joined < n then
    match s.point (some ⟨s.joined, inside⟩) with
    | .exited =>
        if s.mainReady && s.created == n then
          some (.running { s with joined := s.joined + 1 })
        else none
    | _ => none
  else none

/-- All threads are joined. -/
def allJoined (s : Pwords n) : Bool := s.mainReady && s.created == n && s.joined == n

/-- `wordcount_sort`, in `main`. -/
def sort (less : WordCount → WordCount → Bool) (s : Pwords n) : Option (PwordsState n) :=
  if s.allJoined && s.lock.isNone && !s.sorted then
    (wordcountSort s.lst less).map fun lst =>
      .running { s with lst := lst, sorted := true }
  else none

end Pwords

/-- The words that a thread counts.  The main thread counts those of its input
if there are no files. -/
def partyWords {n : Nat} (words : Fin n → List Word) (stdin : List Word) : Party n → List Word
  | none => if n = 0 then stdin else []
  | some i => words i

/-- All words, thread by thread. -/
def allWords {n : Nat} (words : Fin n → List Word) (stdin : List Word) : List Word :=
  partyWords words stdin none ++ (List.ofFn words).flatten

/-- The list is empty and no thread has been made. -/
def startState {n : Nat} (words : Fin n → List Word) (stdin : List Word) : PwordsState n :=
  .running
    { lst := []
      lock := none
      point := fun party =>
        match party with
        | none => .ready (partyWords words stdin none)
        | some i => .waiting (words i)
      created := 0
      joined := 0
      sorted := false }

/-- All runs of `pwords` where the threads have given words. -/
def pwordsSystem {n : Nat} (less : WordCount → WordCount → Bool)
    (words : Fin n → List Word) (stdin : List Word) :
    TransitionSystem (PwordsState n) (PwordsMove n) where
  initial state := state = startState words stdin
  step state move :=
    match state with
    | .stopped => none
    | .running s =>
        match move with
        | .run party malloc => s.run party malloc
        | .create succeeds => s.create succeeds
        | .join => s.join
        | .sort => s.sort less

/-! ## The invariant -/

/-- What the thread at a point has found out about the list. -/
def PointSound (lst : List WordCount) : Point → Prop
  | .searching word _ place =>
      ∀ wc ∈ lst.take place, wc.word ≠ word
  | .found word _ place => ∃ wc, lst[place]? = some wc ∧ wc.word = word
  | .loaded word _ place wc => lst[place]? = some wc ∧ wc.word = word
  | .missing word _ => ∀ wc ∈ lst, wc.word ≠ word
  | .created word _ => ∀ wc ∈ lst, wc.word ≠ word
  | _ => True

/-- Every word is in the list or still with a thread, and only the thread that
has the lock knows anything of the list. -/
structure PwordsSound {n : Nat} (less : WordCount → WordCount → Bool)
    (words : Party n → List Word) (s : Pwords n) : Prop where
  entries : EntriesSound s.lst
  counts : ∀ word, countOf word s.lst +
      total (fun point => point.pending.count word) s.point =
    total (fun own => own.count word) words
  owner : ∀ party, (s.point party).locks = true → s.lock = some party
  points : ∀ party, PointSound s.lst (s.point party)
  exited : ∀ i : Fin n, i.val < s.joined → s.point (some i) = .exited
  waiting : ∀ i : Fin n, s.created ≤ i.val → ∃ own, s.point (some i) = .waiting own
  finished : s.sorted = true → s.allJoined = true
  inOrder : s.sorted = true → Ascending less s.lst

theorem PointSound.of_not_locks {lst : List WordCount} {point : Point}
    (outside : point.locks = false) : PointSound lst point := by
  cases point with
  | waiting _ => trivial
  | ready _ => trivial
  | searching _ _ _ => cases outside
  | found _ _ _ => cases outside
  | loaded _ _ _ _ => cases outside
  | missing _ _ => cases outside
  | created _ _ => cases outside
  | unlocking _ => cases outside
  | exited => trivial

namespace PwordsSound

variable {n : Nat} {less : WordCount → WordCount → Bool}
variable {words : Party n → List Word} {s : Pwords n}

theorem alone (sound : PwordsSound less words s) {party other : Party n}
    (locks : (s.point party).locks = true) (different : other ≠ party) :
    (s.point other).locks = false := by
  by_contra busy
  have mine := sound.owner party locks
  have theirs := sound.owner other (by simpa using busy)
  rw [mine] at theirs
  cases theirs
  exact different rfl

theorem total_pending (s : Pwords n) (word : Word) (party : Party n) (point : Point) :
    total (fun point => point.pending.count word)
        (Function.update s.point party point) +
        (s.point party).pending.count word =
      total (fun point => point.pending.count word) s.point +
        point.pending.count word :=
  total_update (fun point => point.pending.count word) s.point party point

/-- A thread goes on while no other thread has the lock. -/
theorem goOn (sound : PwordsSound less words s) {party : Party n} {point : Point}
    {lst : List WordCount} {lock : Option (Party n)}
    (others : ∀ other, other ≠ party → (s.point other).locks = false) (entries : EntriesSound lst)
    (counts : ∀ word, countOf word lst + point.pending.count word =
      countOf word s.lst + (s.point party).pending.count word)
    (mine : point.locks = true → lock = some party)
    (pointSound : PointSound lst point) (busy : s.point party ≠ .exited)
    (started : ∀ own, s.point party ≠ .waiting own) (unfinished : s.sorted = false) :
    PwordsSound less words
      (Pwords.setPoint { s with lst := lst, lock := lock } party point) := by
  constructor
  · exact entries
  · intro word
    have moved := total_pending s word party point
    have before := sound.counts word
    have change := counts word
    change countOf word lst +
      total (fun point => point.pending.count word)
        (Function.update s.point party point) = _
    omega
  · intro other locks
    by_cases same : other = party
    · subst same
      apply mine
      simpa only [Pwords.setPoint, Function.update_self] using locks
    · simp [Pwords.setPoint, Function.update_of_ne same, others other same]
        at locks
  · intro other
    by_cases same : other = party
    · subst same
      simp only [Pwords.setPoint, Function.update_self]
      exact pointSound
    · simp only [Pwords.setPoint, Function.update_of_ne same]
      exact PointSound.of_not_locks (others other same)
  · intro i joined
    have other : some i ≠ party := by
      rintro rfl
      exact busy (sound.exited i joined)
    simp only [Pwords.setPoint, Function.update_of_ne other]
    exact sound.exited i joined
  · intro i later
    rcases sound.waiting i later with ⟨own, waits⟩
    have other : some i ≠ party := by
      rintro rfl
      exact started own waits
    simp only [Pwords.setPoint, Function.update_of_ne other]
    exact ⟨own, waits⟩
  · intro finished
    simp [Pwords.setPoint, unfinished] at finished
  · intro finished
    simp [Pwords.setPoint, unfinished] at finished

/-- A thread goes on outside the lock, and keeps its words. -/
theorem goOnOutside (sound : PwordsSound less words s) {party : Party n}
    {point : Point} (created : Nat)
    (waiting : ∀ i : Fin n, created ≤ i.val →
      ∃ own, Function.update s.point party point (some i) = .waiting own)
    (pending : point.pending = (s.point party).pending)
    (outside : point.locks = false) (busy : s.point party ≠ .exited)
    (unfinished : s.sorted = false) :
    PwordsSound less words
      (Pwords.setPoint { s with created := created } party point) := by
  constructor
  · exact sound.entries
  · intro word
    have moved := total_pending s word party point
    rw [pending] at moved
    have before := sound.counts word
    change countOf word s.lst +
      total (fun point => point.pending.count word)
        (Function.update s.point party point) = _
    omega
  · intro other locks
    by_cases same : other = party
    · subst same
      simp [Pwords.setPoint, outside] at locks
    · simp only [Pwords.setPoint, Function.update_of_ne same] at locks
      exact sound.owner other locks
  · intro other
    by_cases same : other = party
    · subst same
      simp only [Pwords.setPoint, Function.update_self]
      exact PointSound.of_not_locks outside
    · simp only [Pwords.setPoint, Function.update_of_ne same]
      exact sound.points other
  · intro i joined
    have other : some i ≠ party := by
      rintro rfl
      exact busy (sound.exited i joined)
    simp only [Pwords.setPoint, Function.update_of_ne other]
    exact sound.exited i joined
  · exact waiting
  · intro finished
    simp [Pwords.setPoint, unfinished] at finished
  · intro finished
    simp [Pwords.setPoint, unfinished] at finished

theorem ready_of_mainReady (ready : s.mainReady = true) : s.point none = .ready [] := by
  unfold Pwords.mainReady at ready
  split at ready
  · assumption
  · cases ready

/-- When all threads are joined, no thread has words left. -/
theorem idle_of_allJoined (sound : PwordsSound less words s) (joined : s.allJoined = true) :
    s.point none = .ready [] ∧ ∀ i, s.point (some i) = .exited := by
  simp only [Pwords.allJoined, Bool.and_eq_true, beq_iff_eq] at joined
  refine ⟨ready_of_mainReady joined.1.1, fun i => ?_⟩
  apply sound.exited i
  rw [joined.2]
  exact i.isLt

theorem unfinished_of_busy (sound : PwordsSound less words s) {party : Party n}
    (busy : s.point party ≠ .exited)
    (working : party = none → s.point none ≠ .ready []) : s.sorted = false := by
  by_contra sorted
  have idle := sound.idle_of_allJoined (sound.finished (by simpa using sorted))
  cases party with
  | none => exact working rfl idle.1
  | some i => exact busy (idle.2 i)

theorem unfinished_of_locks (sound : PwordsSound less words s) {party : Party n}
    (locks : (s.point party).locks = true) : s.sorted = false := by
  apply sound.unfinished_of_busy
  · intro exited
    rw [exited] at locks
    cases locks
  · rintro rfl ready
    rw [ready] at locks
    cases locks

/-- A thread that has the lock goes on. -/
theorem inside (sound : PwordsSound less words s) {party : Party n} {point : Point}
    {lst : List WordCount} (locks : (s.point party).locks = true) (entries : EntriesSound lst)
    (counts : ∀ word, countOf word lst + point.pending.count word =
      countOf word s.lst + (s.point party).pending.count word)
    (pointSound : PointSound lst point) :
    PwordsSound less words
      (Pwords.setPoint { s with lst := lst } party point) := by
  apply sound.goOn (fun other different => sound.alone locks different) entries
    counts (fun _ => sound.owner party locks) pointSound
  · intro exited
    rw [exited] at locks
    cases locks
  · intro own waits
    rw [waits] at locks
    cases locks
  · exact sound.unfinished_of_locks locks

/-- A thread that has the lock goes on and leaves the list as it is. -/
theorem look (sound : PwordsSound less words s) {party : Party n} {current point : Point}
    (here : s.point party = current) (locks : current.locks = true)
    (pending : point.pending = current.pending) (pointSound : PointSound s.lst point) :
    PwordsSound less words (s.setPoint party point) := by
  rw [← here] at locks pending
  apply sound.inside locks sound.entries _ pointSound
  intro word
  rw [pending]

/-- Taking the lock, the search of `add_word`, one of its two changes of the
list, and leaving the lock. -/
theorem run (sound : PwordsSound less words s) {party : Party n} {malloc : Bool}
    {after : Pwords n} (step : s.run party malloc = some (.running after)) :
    PwordsSound less words after := by
  have known := sound.points party
  cases point : s.point party with
  | waiting own => simp [Pwords.run, point] at step
  | ready own =>
      have busy : s.point party ≠ .exited := by
        rw [point]
        exact Point.noConfusion
      cases own with
      | nil =>
          simp only [Pwords.run, point] at step
          split at step
          · rename_i worker
            cases step
            apply sound.goOnOutside s.created _ _ rfl busy
            · apply sound.unfinished_of_busy busy
              rintro rfl
              cases worker
            · intro i later
              rcases sound.waiting i later with ⟨own, waits⟩
              have other : some i ≠ party := by
                rintro rfl
                rw [waits] at point
                cases point
              rw [Function.update_of_ne other]
              exact ⟨own, waits⟩
            · rw [point]
              rfl
          · cases step
      | cons word rest =>
          simp only [Pwords.run, point] at step
          split at step
          · rename_i free
            cases step
            have none : s.lock = none := by simpa using free
            have others : ∀ other, other ≠ party →
                (s.point other).locks = false := by
              intro other _
              by_contra locks
              have owner := sound.owner other (by simpa using locks)
              rw [none] at owner
              cases owner
            refine sound.goOn others sound.entries ?_ (fun _ => rfl) ?_ busy
              ?_ ?_
            · intro other
              rw [point]
              rfl
            · intro wc member
              cases member
            · rw [point]
              intro own
              exact Point.noConfusion
            · apply sound.unfinished_of_busy busy
              rintro rfl
              rw [point]
              simp
          · cases step
  | searching word rest place =>
      rw [point] at known
      simp only [Pwords.run, point] at step
      split at step
      · rename_i wc entry
        split at step
        · rename_i same
          cases step
          exact sound.look point rfl rfl ⟨wc, entry, same⟩
        · rename_i different
          cases step
          refine sound.look point rfl rfl ?_
          intro other member
          rw [List.take_add_one, entry] at member
          rcases List.mem_append.mp member with before | here
          · exact known other before
          · rw [List.mem_singleton.mp here]
            exact different
      · rename_i ended
        cases step
        have short := List.getElem?_eq_none_iff.mp ended
        have all := known
        simp only [PointSound, List.take_of_length_le short] at all
        exact sound.look point rfl rfl all
  | found word rest place =>
      rw [point] at known
      rcases known with ⟨wc, entry, same⟩
      simp only [Pwords.run, point, entry, Option.map_some] at step
      cases step
      exact sound.look point rfl rfl ⟨entry, same⟩
  | loaded word rest place wc =>
      have locks : (s.point party).locks = true := by rw [point]; rfl
      rw [point] at known
      rcases known with ⟨entry, same⟩
      simp only [Pwords.run, point] at step
      split at step
      · rename_i counted increments
        cases step
        rw [increment] at increments
        split at increments
        · rename_i small
          cases increments
          have changed := sound.entries.set entry small
          refine sound.inside locks changed.1 ?_ trivial
          intro other
          rw [changed.2, point, same]
          simp only [Point.pending, List.count_cons, beq_iff_eq]
          omega
        · cases increments
      · cases step
  | missing word rest =>
      rw [point] at known
      simp only [Pwords.run, point] at step
      split at step
      · cases step
        exact sound.look point rfl rfl known
      · cases step
  | created word rest =>
      have locks : (s.point party).locks = true := by rw [point]; rfl
      rw [point] at known
      simp only [Pwords.run, point] at step
      cases step
      refine sound.inside locks (sound.entries.append known) ?_ trivial
      intro other
      rw [countOf_append, point]
      simp only [Point.pending, List.count_cons, beq_iff_eq, countOf]
      omega
  | unlocking rest =>
      have locks : (s.point party).locks = true := by rw [point]; rfl
      simp only [Pwords.run, point] at step
      cases step
      refine sound.goOn (fun other different => sound.alone locks different)
        sound.entries ?_ (fun holds => by cases holds) trivial ?_ ?_ ?_
      · intro other
        rw [point]
        rfl
      · rw [point]
        exact Point.noConfusion
      · rw [point]
        intro own
        exact Point.noConfusion
      · exact sound.unfinished_of_locks locks
  | exited => simp [Pwords.run, point] at step

theorem create (sound : PwordsSound less words s) {succeeds : Bool}
    {after : Pwords n} (step : s.create succeeds = some (.running after)) :
    PwordsSound less words after := by
  rw [Pwords.create] at step
  split at step
  · rename_i inside
    split at step
    · split at step
      · cases step
        rcases sound.waiting ⟨s.created, inside⟩ (Nat.le_refl _) with ⟨own, waits⟩
        have busy : s.point (some ⟨s.created, inside⟩) ≠ .exited := by
          rw [waits]
          exact Point.noConfusion
        refine sound.goOnOutside (s.created + 1) ?_ ?_ ?_ busy ?_
        · intro i later
          rcases sound.waiting i (Nat.le_of_succ_le later) with ⟨own', waits'⟩
          have other : some i ≠ some ⟨s.created, inside⟩ := by
            intro same
            cases same
            exact Nat.not_succ_le_self _ later
          rw [Function.update_of_ne other]
          exact ⟨own', waits'⟩
        · rfl
        · rfl
        · apply sound.unfinished_of_busy busy
          intro main
          cases main
      · cases step
    · cases step
  · cases step

theorem join (sound : PwordsSound less words s) {after : Pwords n}
    (step : s.join = some (.running after)) : PwordsSound less words after := by
  rw [Pwords.join] at step
  split at step
  · rename_i inside
    split at step
    · rename_i exits
      split at step
      · cases step
        refine ⟨sound.entries, sound.counts, sound.owner, sound.points, ?_,
          sound.waiting, ?_, sound.inOrder⟩
        · intro i joined
          by_cases last : i.val = s.joined
          · have same : i = ⟨s.joined, inside⟩ := Fin.ext last
            rw [same]
            exact exits
          · apply sound.exited i
            change i.val < s.joined + 1 at joined
            omega
        · intro sorted
          have joined := sound.finished sorted
          simp only [Pwords.allJoined, Bool.and_eq_true, beq_iff_eq] at joined
          omega
      · cases step
    · cases step
  · cases step

theorem sort (sound : PwordsSound less words s) (lessCount : LessCount less) {after : Pwords n}
    (step : s.sort less = some (.running after)) :
    PwordsSound less words after := by
  rw [Pwords.sort] at step
  split at step
  · rename_i ready
    simp only [Bool.and_eq_true] at ready
    rcases wordcountSort_spec lessCount s.lst with ⟨lst, sorts, perm, ascending⟩
    rw [sorts] at step
    cases step
    have none : s.lock = none := by simpa using ready.1.2
    have outside : ∀ party, (s.point party).locks = false := by
      intro party
      by_contra locks
      have owner := sound.owner party (by simpa using locks)
      rw [none] at owner
      cases owner
    refine ⟨sound.entries.of_perm perm, ?_, sound.owner, ?_, sound.exited,
      sound.waiting, fun _ => ready.1.1, fun _ => ascending⟩
    · intro word
      rw [countOf_perm perm]
      exact sound.counts word
    · intro party
      exact PointSound.of_not_locks (outside party)
  · cases step

end PwordsSound

/-! ## Every interleaving -/

section Runs

variable {n : Nat} {less : WordCount → WordCount → Bool}
variable {words : Fin n → List Word} {stdin : List Word} {s : Pwords n}

theorem pwordsSound_of_initial
    (start : (pwordsSystem less words stdin).initial (.running s)) :
    PwordsSound less (partyWords words stdin) s := by
  cases start
  constructor
  · exact entriesSound_nil
  · intro word
    rw [countOf, Nat.zero_add]
    apply total_congr
    intro party
    cases party <;> rfl
  · intro party locks
    cases party <;> cases locks
  · intro party
    cases party <;> trivial
  · intro i joined
    exact absurd joined (Nat.not_lt_zero _)
  · intro i _
    exact ⟨words i, rfl⟩
  · intro sorted
    cases sorted
  · intro sorted
    cases sorted

/-- A state that has not stopped satisfies the invariant. -/
def PwordsState.Sound (less : WordCount → WordCount → Bool)
    (words : Party n → List Word) : PwordsState n → Prop
  | .running s => PwordsSound less words s
  | .stopped => True

theorem pwordsSound_of_reachable (lessCount : LessCount less)
    (reachable : (pwordsSystem less words stdin).Reachable (.running s)) :
    PwordsSound less (partyWords words stdin) s := by
  have sound : (PwordsState.running s).Sound less (partyWords words stdin) := by
    apply reachable.invariant (PwordsState.Sound less (partyWords words stdin))
    · intro state start
      cases state with
      | running s => exact pwordsSound_of_initial start
      | stopped => trivial
    · intro state move target _ sound step
      cases target with
      | stopped => trivial
      | running after =>
          cases state with
          | stopped => cases step
          | running s =>
              cases move with
              | run party malloc => exact PwordsSound.run sound step
              | create succeeds => exact PwordsSound.create sound step
              | join => exact PwordsSound.join sound step
              | sort => exact PwordsSound.sort sound lessCount step
  exact sound

theorem total_count_partyWords (words : Fin n → List Word) (stdin : List Word) (word : Word) :
    total (fun own : List Word => own.count word) (partyWords words stdin) =
      (allWords words stdin).count word := by
  rw [total, Fintype.sum_option, allWords, List.count_append, List.count_flatten,
    List.map_ofFn, List.sum_ofFn]
  rfl

theorem total_pending_of_allJoined
    (sound : PwordsSound less (partyWords words stdin) s)
    (joined : s.allJoined = true) (word : Word) :
    total (fun point : Point => point.pending.count word) s.point = 0 := by
  have idle := sound.idle_of_allJoined joined
  apply total_eq_zero_iff.mpr
  intro party
  cases party with
  | none =>
      rw [idle.1]
      rfl
  | some i =>
      rw [idle.2 i]
      rfl

end Runs

/-- The list when all threads are joined, against all words in one sequence. -/
structure PwordsGuarantee {n : Nat} (less : WordCount → WordCount → Bool)
    (all : List Word) (s : Pwords n) : Prop where
  once : (s.lst.map (·.word)).Nodup
  counted : ∀ wc ∈ s.lst, wc.word ∈ all ∧ wc.count = all.count wc.word
  complete : ∀ word ∈ all, ∃ wc ∈ s.lst, wc.word = word
  sequential : ∀ order : List Word, order.Perm all →
    ∃ result, countSequentially less order = some result ∧
      wordcountSort s.lst less = some result ∧
      (s.sorted = true → s.lst = result)

/-- Counting in parallel gives the same list as counting the same words one
after another in any order. -/
theorem pwords_equals_sequential {n : Nat}
    (less : WordCount → WordCount → Bool) (lessCount : LessCount less)
    (words : Fin n → List Word) (stdin : List Word) (s : Pwords n)
    (reachable : (pwordsSystem less words stdin).Reachable (.running s))
    (joined : s.allJoined = true) :
    PwordsGuarantee less (allWords words stdin) s := by
  have sound := pwordsSound_of_reachable lessCount reachable
  have counts : ∀ word, countOf word s.lst = (allWords words stdin).count word := by
    intro word
    have all := sound.counts word
    rw [total_pending_of_allJoined sound joined, total_count_partyWords] at all
    exact all
  constructor
  · exact sound.entries.once
  · intro wc member
    have same := sound.entries.countOf_of_mem member
    rw [counts] at same
    refine ⟨?_, same.symm⟩
    apply List.count_pos_iff.mp
    rw [same]
    exact sound.entries.counted wc member
  · intro word member
    have positive := List.count_pos_iff.mpr member
    rw [← counts] at positive
    by_contra absent
    have none : countOf word s.lst = 0 := by
      apply (countOf_eq_zero_iff sound.entries.counted).mpr
      intro wc inList same
      exact absent ⟨wc, inList, same⟩
    omega
  · intro order perm
    have small : ∀ word, countOf word [] + order.count word < intLimit := by
      intro word
      rw [perm.count_eq, ← counts, countOf, Nat.zero_add]
      exact countOf_lt sound.entries word
    rcases addWords_spec entriesSound_nil small with
      ⟨wclist, added, soundSequential, sequentialCounts⟩
    have same : ∀ word, countOf word s.lst = countOf word wclist := by
      intro word
      rw [counts, sequentialCounts, countOf, Nat.zero_add, perm.count_eq]
    have sortsSame := wordcountSort_unique lessCount sound.entries soundSequential same
    rcases wordcountSort_spec lessCount s.lst with ⟨result, sorts, arranged, ascending⟩
    refine ⟨result, ?_, sorts, ?_⟩
    · rw [countSequentially, added, Option.bind_some, ← sortsSame]
      exact sorts
    · intro sorted
      apply (sound.inOrder sorted).unique ascending arranged.symm
      intro a b _ _ forward backward
      exact lessCount.antisymm forward backward

/-- The order that `word_helpers.h` describes. -/
def byCount (a b : WordCount) : Bool :=
  a.count < b.count ∨ (a.count = b.count ∧ a.word.map UInt8.toNat < b.word.map UInt8.toNat)

theorem lessCount_byCount : LessCount byCount := by
  intro a b
  simp [byCount, Alphabetical]

/-- Two files that both begin with the same word. -/
def twoFiles (i : Fin 2) : List Word := if i = 0 then [[97], [98]] else [[97]]

/-- The second thread takes the lock between the two words of the first. -/
def interleaved : List (PwordsMove 2) :=
  [.create true, .create true] ++
    List.replicate 5 (.run (some 0) true) ++
    List.replicate 6 (.run (some 1) true) ++
    List.replicate 7 (.run (some 0) true) ++
    [.join, .join]

def PwordsState.joinedAll {n : Nat} : PwordsState n → Bool
  | .running s => s.allJoined
  | .stopped => false

theorem pwords_equals_sequential_two : ∃ s : Pwords 2,
      (pwordsSystem byCount twoFiles []).Reachable (.running s) ∧
        s.allJoined = true ∧
        PwordsGuarantee byCount (allWords twoFiles []) s := by
  have runs :
      ((pwordsSystem byCount twoFiles []).run (startState twoFiles [])
        interleaved).any PwordsState.joinedAll = true := by
    decide +kernel
  rcases (Option.any_eq_true _ _).mp runs with ⟨state, execution, joined⟩
  cases state with
  | stopped => cases joined
  | running s =>
      have reachable : (pwordsSystem byCount twoFiles []).Reachable (.running s) :=
        .of_run (.initial rfl) execution
      exact ⟨s, reachable, joined,
        pwords_equals_sequential byCount lessCount_byCount twoFiles [] s reachable joined⟩

end CS162.HwList

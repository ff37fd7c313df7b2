import Mathlib.Data.Fintype.Basic
import CS162.Foundation.TransitionSystem

/-!
# Wait lists whose elements carry a private semaphore

The protocol behind a condition variable that gives every waiter a semaphore
of its own.  A waiter initialises its semaphore, joins the list and later
downs the semaphore; a signaller takes the first waiter off the list and then
ups that waiter's semaphore.  Between joining and the down, and between the
removal and the up, anything may happen; only the signallers exclude each
other.
-/

namespace CS162.Foundation

/-- How far a party is with its wait. -/
inductive WaitStage (Condition : Type) where
  | none
  /-- On the list or taken off it, before its down has completed. -/
  | queued (condition : Condition)
  /-- Past its down, before the wait returns. -/
  | woken (condition : Condition)
  deriving DecidableEq, Repr

/-- The party is in a wait on the condition. -/
def WaitStage.on {Condition : Type} (stage : WaitStage Condition) (condition : Condition) : Prop :=
  stage = .queued condition ∨ stage = .woken condition

instance {Condition : Type} [DecidableEq Condition]
    (stage : WaitStage Condition) (condition : Condition) :
    Decidable (stage.on condition) :=
  inferInstanceAs (Decidable (_ ∨ _))

/-- The events of the waits, in the order in which they happen. -/
inductive WaitEvent (Party Condition : Type) where
  /-- The party joined the list. -/
  | waited (condition : Condition) (party : Party)
  /-- A signaller took the party off the list. -/
  | released (condition : Condition) (party : Party)
  /-- The wait of the party returned. -/
  | returned (condition : Condition) (party : Party)
  deriving DecidableEq, Repr

namespace WaitEvent

variable {Party Condition : Type} [DecidableEq Condition]

/-- The parties that joined the list of a condition, in order. -/
def waitedOn (condition : Condition) (history : List (WaitEvent Party Condition)) : List Party :=
  history.filterMap fun
    | .waited here party => if here = condition then some party else none
    | _ => none

/-- The parties taken off the list of a condition, in order. -/
def releasedOn (condition : Condition) (history : List (WaitEvent Party Condition)) : List Party :=
  history.filterMap fun
    | .released here party => if here = condition then some party else none
    | _ => none

@[simp]
theorem waitedOn_append (condition : Condition) (front back : List (WaitEvent Party Condition)) :
    waitedOn condition (front ++ back) = waitedOn condition front ++ waitedOn condition back :=
  List.filterMap_append

@[simp]
theorem releasedOn_append (condition : Condition) (front back : List (WaitEvent Party Condition)) :
    releasedOn condition (front ++ back) =
      releasedOn condition front ++ releasedOn condition back :=
  List.filterMap_append

@[simp]
theorem waitedOn_waited (condition here : Condition) (party : Party) :
    waitedOn condition [.waited here party] = if here = condition then [party] else [] := by
  by_cases same : here = condition <;> simp [waitedOn, same]

@[simp]
theorem waitedOn_released (condition here : Condition) (party : Party) :
    waitedOn condition [.released here party] = [] := rfl

@[simp]
theorem waitedOn_returned (condition here : Condition) (party : Party) :
    waitedOn condition [.returned here party] = [] := rfl

@[simp]
theorem releasedOn_released (condition here : Condition) (party : Party) :
    releasedOn condition [.released here party] = if here = condition then [party] else [] := by
  by_cases same : here = condition <;> simp [releasedOn, same]

@[simp]
theorem releasedOn_waited (condition here : Condition) (party : Party) :
    releasedOn condition [.waited here party] = [] := rfl

@[simp]
theorem releasedOn_returned (condition here : Condition) (party : Party) :
    releasedOn condition [.returned here party] = [] := rfl

end WaitEvent

/-- The lists, the private semaphores and the progress of every party.  The
target of a signaller is the waiter it has taken off a list and not yet
upped. -/
@[ext]
structure WaitState (Party Condition : Type) where
  stage : Party → WaitStage Condition
  target : Party → Option Party
  asleep : Party → Bool
  value : Party → Nat
  line : Party → List Party
  waiters : Condition → List Party
  history : List (WaitEvent Party Condition)

/-- The steps of the protocol. -/
inductive WaitMove (Party Condition : Type) where
  | prepare (party : Party)
  | join (party : Party) (condition : Condition)
  | sleep (party : Party) (condition : Condition)
  | consume (party : Party) (condition : Condition)
  | pop (signaller : Party) (condition : Condition) (waiter : Party)
  | post (signaller waiter : Party)
  | finish (party : Party) (condition : Condition)

section Protocol

variable {Party Condition : Type}
variable [Fintype Party] [DecidableEq Party] [DecidableEq Condition]

open Function (update)

/-- One step of the protocol. -/
def WaitState.step (state : WaitState Party Condition) :
    WaitMove Party Condition → Option (WaitState Party Condition)
  | .prepare party =>
      if state.stage party = .none then
        some { state with
          value := update state.value party 0
          line := update state.line party [] }
      else none
  | .join party condition =>
      if state.stage party = .none ∧ state.value party = 0 then
        some { state with
          stage := update state.stage party (.queued condition)
          waiters := update state.waiters condition (state.waiters condition ++ [party])
          history := state.history ++ [.waited condition party] }
      else none
  | .sleep party condition =>
      if state.stage party = .queued condition ∧
          state.asleep party = false ∧ state.value party = 0 then
        some { state with
          asleep := update state.asleep party true
          line := update state.line party (state.line party ++ [party]) }
      else none
  | .consume party condition =>
      if state.stage party = .queued condition ∧
          state.asleep party = false ∧ 0 < state.value party then
        some { state with
          stage := update state.stage party (.woken condition)
          value := update state.value party (state.value party - 1) }
      else none
  | .pop signaller condition waiter =>
      if (∀ other, state.target other = none) ∧
          (state.waiters condition).head? = some waiter then
        some { state with
          target := update state.target signaller (some waiter)
          waiters := update state.waiters condition (state.waiters condition).tail
          history := state.history ++ [.released condition waiter] }
      else none
  | .post signaller waiter =>
      if state.target signaller = some waiter then
        some { state with
          target := update state.target signaller none
          asleep :=
            if (state.line waiter).head? = some waiter then
              update state.asleep waiter false
            else state.asleep
          value := update state.value waiter (state.value waiter + 1)
          line := update state.line waiter (state.line waiter).tail }
      else none
  | .finish party condition =>
      if state.stage party = .woken condition then
        some { state with
          stage := update state.stage party .none
          history := state.history ++ [.returned condition party] }
      else none

/-- All runs from empty lists with nobody waiting. -/
def waitProtocol (Party Condition : Type)
    [Fintype Party] [DecidableEq Party] [DecidableEq Condition] :
    TransitionSystem (WaitState Party Condition)
      (WaitMove Party Condition) where
  initial state :=
    (∀ party, state.stage party = .none) ∧
    (∀ party, state.target party = none) ∧
    (∀ party, state.asleep party = false) ∧
    (∀ party, state.value party = 0) ∧
    (∀ party, state.line party = []) ∧
    (∀ condition, state.waiters condition = []) ∧
    state.history = []
  step := WaitState.step

/-- The invariant of the protocol.  A queued party is on its list, or a
signaller is about to up it, or its semaphore holds the unit of its release;
these exclude each other. -/
structure WaitSafe (state : WaitState Party Condition) : Prop where
  line : ∀ party, state.line party = if state.asleep party then [party] else []
  asleep :
    ∀ party, state.asleep party = true →
      state.value party = 0 ∧ ∃ condition, state.stage party = .queued condition
  listed :
    ∀ condition party, party ∈ state.waiters condition →
      state.stage party = .queued condition ∧ state.value party = 0 ∧
        ∀ signaller, state.target signaller ≠ some party
  popped :
    ∀ signaller party, state.target signaller = some party →
      state.value party = 0 ∧ ∃ condition, state.stage party = .queued condition
  single : ∀ left right, state.target left ≠ none → state.target right ≠ none → left = right
  posted :
    ∀ condition party, state.stage party = .queued condition →
      party ∉ state.waiters condition →
      (∀ signaller, state.target signaller ≠ some party) →
      state.value party = 1
  idle : ∀ party, (∀ condition, state.stage party ≠ .queued condition) → state.value party = 0
  nodup : ∀ condition, (state.waiters condition).Nodup
  order : ∀ condition,
      WaitEvent.waitedOn condition state.history =
        WaitEvent.releasedOn condition state.history ++ state.waiters condition
  waited : ∀ condition party,
      state.history.count (.waited condition party) =
        state.history.count (.returned condition party) +
          if (state.stage party).on condition then 1 else 0
  released : ∀ condition party,
      state.history.count (.released condition party) =
        state.history.count (.returned condition party) +
          if (state.stage party).on condition ∧
            party ∉ state.waiters condition then 1 else 0

namespace WaitSafe

variable {state target : WaitState Party Condition}

omit [Fintype Party] in
/-- A queued party with a unit has been released, and it is the only unit. -/
theorem value_eq_one (safe : WaitSafe state) {party : Party} {condition : Condition}
    (queued : state.stage party = .queued condition) (positive : 0 < state.value party) :
    state.value party = 1 ∧ ∀ here, party ∉ state.waiters here := by
  have unlisted : ∀ here, party ∉ state.waiters here := by
    intro here member
    have zero := (safe.listed here party member).2.1
    omega
  refine ⟨safe.posted condition party queued (unlisted condition) ?_, unlisted⟩
  intro signaller aimed
  have zero := (safe.popped signaller party aimed).1
  omega

omit [Fintype Party] in
/-- A party that is not queued is on no list and no signaller's target. -/
theorem not_listed_of_idle (safe : WaitSafe state) {party : Party}
    (idle : ∀ condition, state.stage party ≠ .queued condition) :
    (∀ condition, party ∉ state.waiters condition) ∧
      ∀ signaller, state.target signaller ≠ some party := by
  constructor
  · intro condition member
    exact idle condition (safe.listed condition party member).1
  · intro signaller aimed
    obtain ⟨condition, queued⟩ := (safe.popped signaller party aimed).2
    exact idle condition queued

theorem initial (start : (waitProtocol Party Condition).initial state) : WaitSafe state := by
  obtain ⟨stage, aim, asleep, value, line, waiters, history⟩ := start
  constructor <;>
    simp [stage, aim, asleep, value, line, waiters, history,
      WaitStage.on, WaitEvent.waitedOn, WaitEvent.releasedOn]

theorem prepare (safe : WaitSafe state) {party : Party}
    (moved : state.step (.prepare party) = some target) :
    WaitSafe target := by
  simp only [WaitState.step, Option.ite_none_right_eq_some, Option.some.injEq] at moved
  obtain ⟨out, rfl⟩ := moved
  have unused := safe.not_listed_of_idle (by simp [out] : ∀ condition, state.stage party ≠ .queued condition)
  obtain ⟨line, asleep, listed, popped, single, posted, idle, nodup,
    order, waited, released⟩ := safe
  constructor <;> simp only [Function.update_apply]
  case order => exact order
  case nodup => exact nodup
  case single => exact single
  all_goals grind

theorem join (safe : WaitSafe state) {party : Party} {condition : Condition}
    (moved : state.step (.join party condition) = some target) :
    WaitSafe target := by
  simp only [WaitState.step, Option.ite_none_right_eq_some, Option.some.injEq] at moved
  obtain ⟨⟨out, zero⟩, rfl⟩ := moved
  have unused := safe.not_listed_of_idle (by simp [out] : ∀ condition, state.stage party ≠ .queued condition)
  obtain ⟨line, asleep, listed, popped, single, posted, idle, nodup,
    order, waited, released⟩ := safe
  constructor <;> simp only [Function.update_apply]
  case order =>
    intro here
    by_cases same : here = condition
    · subst same
      simp [order]
    · simp [order, same, Ne.symm same]
  case waited => grind [WaitStage.on]
  case released => grind [WaitStage.on]
  all_goals grind

theorem sleep (safe : WaitSafe state) {party : Party} {condition : Condition}
    (moved : state.step (.sleep party condition) = some target) :
    WaitSafe target := by
  simp only [WaitState.step, Option.ite_none_right_eq_some, Option.some.injEq] at moved
  obtain ⟨⟨queued, awake, zero⟩, rfl⟩ := moved
  obtain ⟨line, asleep, listed, popped, single, posted, idle, nodup,
    order, waited, released⟩ := safe
  constructor <;> simp only [Function.update_apply]
  all_goals grind

theorem consume (safe : WaitSafe state) {party : Party} {condition : Condition}
    (moved : state.step (.consume party condition) = some target) :
    WaitSafe target := by
  simp only [WaitState.step, Option.ite_none_right_eq_some, Option.some.injEq] at moved
  obtain ⟨⟨queued, awake, positive⟩, rfl⟩ := moved
  obtain ⟨one, unlisted⟩ := safe.value_eq_one queued positive
  obtain ⟨line, asleep, listed, popped, single, posted, idle, nodup,
    order, waited, released⟩ := safe
  constructor <;> simp only [Function.update_apply]
  case waited => grind [WaitStage.on]
  case released => grind [WaitStage.on]
  all_goals grind

theorem pop (safe : WaitSafe state) {signaller waiter : Party} {condition : Condition}
    (moved : state.step (.pop signaller condition waiter) = some target) :
    WaitSafe target := by
  simp only [WaitState.step, Option.ite_none_right_eq_some, Option.some.injEq] at moved
  obtain ⟨⟨alone, head⟩, rfl⟩ := moved
  obtain ⟨rest, queue⟩ := List.head?_eq_some_iff.mp head
  have first : waiter ∈ state.waiters condition := by simp [queue]
  have elsewhere : ∀ here, waiter ∈ state.waiters here → here = condition := by
    intro here member
    have there := (safe.listed here waiter member).1
    rw [(safe.listed condition waiter first).1] at there
    exact (WaitStage.queued.inj there).symm
  have distinct : waiter ∉ rest ∧ rest.Nodup := by
    have nodup := safe.nodup condition
    rwa [queue, List.nodup_cons] at nodup
  obtain ⟨line, asleep, listed, popped, single, posted, idle, nodup,
    order, waited, released⟩ := safe
  rw [queue, List.tail_cons]
  constructor <;> simp only [Function.update_apply]
  case order =>
    intro here
    by_cases same : here = condition
    · subst same
      simp [order, queue]
    · simp [order, same, Ne.symm same]
  case posted =>
    intro here party queued unlisted aimless
    have other : party ≠ waiter := by
      rintro rfl
      simpa using aimless signaller
    have kept : party ∉ state.waiters here := by grind
    exact posted here party queued kept fun other => by simp [alone other]
  case waited => grind [WaitStage.on]
  case released => grind [WaitStage.on]
  all_goals grind

theorem post (safe : WaitSafe state) {signaller waiter : Party}
    (moved : state.step (.post signaller waiter) = some target) :
    WaitSafe target := by
  simp only [WaitState.step, Option.ite_none_right_eq_some, Option.some.injEq] at moved
  obtain ⟨aimed, rfl⟩ := moved
  obtain ⟨zero, queued⟩ := safe.popped signaller waiter aimed
  obtain ⟨line, asleep, listed, popped, single, posted, idle, nodup,
    order, waited, released⟩ := safe
  constructor <;> simp only [Function.update_apply]
  all_goals grind

theorem finish (safe : WaitSafe state) {party : Party} {condition : Condition}
    (moved : state.step (.finish party condition) = some target) :
    WaitSafe target := by
  simp only [WaitState.step, Option.ite_none_right_eq_some, Option.some.injEq] at moved
  obtain ⟨woken, rfl⟩ := moved
  have unused := safe.not_listed_of_idle (by simp [woken] : ∀ condition, state.stage party ≠ .queued condition)
  obtain ⟨line, asleep, listed, popped, single, posted, idle, nodup,
    order, waited, released⟩ := safe
  constructor <;> simp only [Function.update_apply]
  case order =>
    intro here
    simp [order]
  case waited => grind [WaitStage.on]
  case released => grind [WaitStage.on]
  all_goals grind

/-- Every reachable state of the protocol is safe. -/
theorem of_reachable
    (reachable : (waitProtocol Party Condition).Reachable state) :
    WaitSafe state := by
  refine reachable.invariant WaitSafe (fun _ start => initial start) ?_
  intro state move target _ safe moved
  cases move with
  | prepare party => exact safe.prepare moved
  | join party condition => exact safe.join moved
  | sleep party condition => exact safe.sleep moved
  | consume party condition => exact safe.consume moved
  | pop signaller condition waiter => exact safe.pop moved
  | post signaller waiter => exact safe.post moved
  | finish party condition => exact safe.finish moved

end WaitSafe

end Protocol

end CS162.Foundation

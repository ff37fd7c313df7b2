import Mathlib.Algebra.Order.Ring.Nat
import Mathlib.Data.List.Basic

/-!
# Labelled transition systems

A system is a set of initial states together with a partial step function:
a label says which party moves and resolves its choices, and the step is
`none` where that move is not possible.  This module has the run and
reachability relations, the invariant rule and forward simulations.
-/

namespace CS162.Foundation

universe u v w x

/-- A transition system whose steps are computed from a label. -/
structure TransitionSystem (State : Type u) (Label : Type v) where
  initial : State → Prop
  step : State → Label → Option State

namespace TransitionSystem

section Runs

variable {State : Type u} {Label : Type v}
variable (system : TransitionSystem State Label)

/-- Execute a list of labels in order. -/
def run : State → List Label → Option State
  | state, [] => some state
  | state, label :: rest => (system.step state label).bind (run · rest)

/-- The states that some finite run reaches from an initial state. -/
inductive Reachable : State → Prop
  | initial {state : State} : system.initial state → Reachable state
  | step {state target : State} {label : Label} :
      Reachable state →
      system.step state label = some target →
      Reachable target

/-- The same system with the steps that are not allowed taken away. -/
def restrict (allowed : State → Label → Bool) : TransitionSystem State Label where
  initial := system.initial
  step state label :=
    if allowed state label then system.step state label else none

/-- The same system in which only states that pass a test are entered. -/
def keep (test : State → Bool) : TransitionSystem State Label where
  initial state := system.initial state ∧ test state = true
  step state label := (system.step state label).filter test

/-- A step of the system, or none at all. -/
def Follows (state target : State) : Prop :=
  target = state ∨ ∃ label, system.step state label = some target

variable {system}

theorem keep_step_iff {test : State → Bool} {state target : State} {label : Label} :
    (system.keep test).step state label = some target ↔
      system.step state label = some target ∧ test target = true := by
  simp [keep]

theorem restrict_step_iff {allowed : State → Label → Bool} {state target : State} {label : Label} :
    (system.restrict allowed).step state label = some target ↔
      allowed state label = true ∧ system.step state label = some target := by
  simp [restrict]

theorem run_cons_eq_some
    {state target : State} {label : Label} {rest : List Label} :
    system.run state (label :: rest) = some target ↔
      ∃ middle, system.step state label = some middle ∧
        system.run middle rest = some target := by
  simp [run, Option.bind_eq_some_iff]

theorem Follows.run {state target : State} (follows : system.Follows state target) :
    ∃ labels, system.run state labels = some target := by
  rcases follows with same | ⟨label, step⟩
  · exact ⟨[], congrArg some same.symm⟩
  · exact ⟨[label], run_cons_eq_some.mpr ⟨target, step, rfl⟩⟩

/-- What every step preserves along a run holds at its end. -/
theorem run_invariant
    (invariant : State → Prop)
    (preserved : ∀ state label target,
        invariant state →
        system.step state label = some target →
        invariant target)
    {state target : State} {labels : List Label} (start : invariant state)
    (execution : system.run state labels = some target) :
    invariant target := by
  induction labels generalizing state with
  | nil =>
      simp only [run, Option.some.injEq] at execution
      exact execution ▸ start
  | cons label rest inductionHypothesis =>
      obtain ⟨middle, first, remainder⟩ := run_cons_eq_some.mp execution
      exact inductionHypothesis (preserved state label middle start first) remainder

theorem Reachable.of_run
    {state target : State} {labels : List Label} (reachable : system.Reachable state)
    (execution : system.run state labels = some target) :
    system.Reachable target :=
  run_invariant system.Reachable
    (fun _ _ _ reached moved => reached.step moved)
    reachable execution

/-- Every run of the system with fewer steps is a run of the system. -/
theorem Reachable.of_restrict {allowed : State → Label → Bool} {state : State}
    (reachable : (system.restrict allowed).Reachable state) :
    system.Reachable state := by
  induction reachable with
  | initial start =>
      exact Reachable.initial start
  | step _ moved inductionHypothesis =>
      exact inductionHypothesis.step (restrict_step_iff.mp moved).2

/-- Every run that passes a test is a run of the system. -/
theorem Reachable.of_keep {test : State → Bool} {state : State}
    (reachable : (system.keep test).Reachable state) :
    system.Reachable state := by
  induction reachable with
  | initial start =>
      exact Reachable.initial start.1
  | step _ moved inductionHypothesis =>
      exact inductionHypothesis.step (keep_step_iff.mp moved).1

theorem Reachable.kept {test : State → Bool} {state : State}
    (reachable : (system.keep test).Reachable state) :
    test state = true := by
  cases reachable with
  | initial start => exact start.2
  | step _ moved => exact (keep_step_iff.mp moved).2

/-- The rule for a party that counts its own steps: a property that survives
the steps of the others and moves on with each step of the party itself has
moved on as often as the party had a turn. -/
theorem run_countdown
    (own : Label → Bool) (progress : Nat → State → Prop)
    (advance : ∀ remaining state label target,
        own label = true →
        progress (remaining + 1) state →
        system.step state label = some target →
        progress remaining target)
    (keep : ∀ remaining state label target,
        own label = false →
        progress remaining state →
        system.step state label = some target →
        progress remaining target)
    {state target : State} {labels : List Label} {remaining : Nat}
    (start : progress (labels.countP own + remaining) state)
    (execution : system.run state labels = some target) :
    progress remaining target := by
  induction labels generalizing state with
  | nil =>
      simp only [run, Option.some.injEq] at execution
      subst execution
      simpa using start
  | cons label rest inductionHypothesis =>
      obtain ⟨middle, first, remainder⟩ := run_cons_eq_some.mp execution
      refine inductionHypothesis ?_ remainder
      cases mine : own label with
      | true =>
          rw [List.countP_cons_of_pos mine, Nat.add_right_comm] at start
          exact advance _ state label middle mine start first
      | false =>
          rw [List.countP_cons_of_neg (by simp [mine])] at start
          exact keep _ state label middle mine start first

/-- The invariant rule: what holds initially and is preserved by every step
out of a reachable state holds in every reachable state. -/
theorem Reachable.invariant
    (invariant : State → Prop) (base : ∀ state, system.initial state → invariant state)
    (preserved : ∀ state label target,
        system.Reachable state →
        invariant state →
        system.step state label = some target →
        invariant target)
    {state : State} (reachable : system.Reachable state) :
    invariant state := by
  induction reachable with
  | initial start =>
      exact base _ start
  | step reached moved inductionHypothesis =>
      exact preserved _ _ _ reached inductionHypothesis moved

end Runs

section Simulation

variable {State : Type u} {Label : Type v}
variable {AbstractState : Type w} {AbstractLabel : Type x}

/-- A forward simulation: the image of every step out of a reachable state is
a finite run of the abstract system, possibly the empty one. -/
structure Simulation
    (concrete : TransitionSystem State Label)
    (abstract : TransitionSystem AbstractState AbstractLabel) where
  image : State → AbstractState
  initial : ∀ state, concrete.initial state → abstract.initial (image state)
  step : ∀ state label target,
      concrete.Reachable state →
      abstract.Reachable (image state) →
      concrete.step state label = some target →
      ∃ labels, abstract.run (image state) labels = some (image target)

variable {concrete : TransitionSystem State Label}
variable {abstract : TransitionSystem AbstractState AbstractLabel}

/-- Reachability transfers along a simulation, so every invariant of the
abstract system holds of the image of every concrete run. -/
theorem Simulation.reachable
    (simulation : Simulation concrete abstract)
    {state : State} (reachable : concrete.Reachable state) :
    abstract.Reachable (simulation.image state) := by
  induction reachable with
  | initial start =>
      exact Reachable.initial (simulation.initial _ start)
  | step reached moved inductionHypothesis =>
      obtain ⟨labels, execution⟩ := simulation.step _ _ _ reached inductionHypothesis moved
      exact inductionHypothesis.of_run execution

/-- Where every concrete step is one abstract step or none, the runs that pass a
test of the image have images that pass the test. -/
theorem Reachable.image_keep (image : State → AbstractState)
    (initial : ∀ state, concrete.initial state → abstract.initial (image state))
    (follows : ∀ state label target,
        concrete.Reachable state →
        concrete.step state label = some target →
        abstract.Follows (image state) (image target))
    {test : AbstractState → Bool} {state : State}
    (reachable : (concrete.keep fun state => test (image state)).Reachable state) :
    (abstract.keep test).Reachable (image state) := by
  induction reachable with
  | initial start =>
      exact Reachable.initial ⟨initial _ start.1, start.2⟩
  | step reached moved inductionHypothesis =>
      obtain ⟨moved, passes⟩ := keep_step_iff.mp moved
      rcases follows _ _ _ reached.of_keep moved with same | ⟨label, step⟩
      · rw [same]
        exact inductionHypothesis
      · exact inductionHypothesis.step (keep_step_iff.mpr ⟨step, passes⟩)

end Simulation

end TransitionSystem

end CS162.Foundation

import CS162.Foundation.Tally
import CS162.Foundation.TransitionSystem

/-!
# A lock built from a unit and a holder field

The protocol behind a lock that consists of a binary semaphore and an
unprotected field naming the holder: a party takes the unit, stores its name,
clears the field and puts the unit back, each in a step of its own.  The
parties may interleave in any way between these steps.
-/

namespace CS162.Foundation

/-- How far a party is with the lock. -/
inductive LockPhase where
  | free
  | taken
  | holding
  | cleared
  deriving DecidableEq, Repr

namespace LockPhase

/-- The party has taken the unit and not yet put it back. -/
def owns : LockPhase → Bool
  | .free => false
  | .taken => true
  | .holding => true
  | .cleared => true

end LockPhase

/-- The unit, the holder field and the phase of every party. -/
@[ext]
structure LockState (Party : Type) where
  value : Nat
  holder : Option Party
  phase : Party → LockPhase

/-- The four steps of a party. -/
inductive LockMove (Party : Type) where
  | take (party : Party)
  | store (party : Party)
  | clear (party : Party)
  | put (party : Party)

namespace LockState

variable {Party : Type} [DecidableEq Party]

def setPhase (state : LockState Party) (party : Party) (phase : LockPhase) : LockState Party :=
  { state with phase := Function.update state.phase party phase }

/-- One step of the protocol. -/
def step (state : LockState Party) : LockMove Party → Option (LockState Party)
  | .take party =>
      if state.phase party = .free ∧ 0 < state.value then
        some ({ state with value := state.value - 1 }.setPhase party .taken)
      else none
  | .store party =>
      if state.phase party = .taken then
        some ({ state with holder := some party }.setPhase party .holding)
      else none
  | .clear party =>
      if state.phase party = .holding then
        some ({ state with holder := none }.setPhase party .cleared)
      else none
  | .put party =>
      if state.phase party = .cleared then
        some ({ state with value := state.value + 1 }.setPhase party .free)
      else none

end LockState

section Protocol

variable {Party : Type} [DecidableEq Party]

/-- All runs from one unit, no holder and every party free. -/
def lockProtocol (Party : Type) [DecidableEq Party] :
    TransitionSystem (LockState Party) (LockMove Party) where
  initial state := state.value = 1 ∧ state.holder = none ∧ ∀ party, state.phase party = .free
  step := LockState.step

/-- The unit is with the semaphore or with exactly one party, and the field
names exactly the party that has stored its name and not cleared it. -/
structure LockSafe [Fintype Party] (state : LockState Party) : Prop where
  unit : state.value + tally LockPhase.owns state.phase = 1
  holder : ∀ party, state.holder = some party ↔ state.phase party = .holding

variable [Fintype Party]

omit [DecidableEq Party] in
theorem LockSafe.owner_unique {state : LockState Party}
    (safe : LockSafe state) {left right : Party} (leftOwns : (state.phase left).owns = true)
    (rightOwns : (state.phase right).owns = true) :
    left = right := by
  have unit := safe.unit
  exact eq_of_tally_le_one (by omega) leftOwns rightOwns

omit [DecidableEq Party] in
/-- While a party owns the unit the semaphore has none. -/
theorem LockSafe.value_eq_zero {state : LockState Party} (safe : LockSafe state) {party : Party}
    (owns : (state.phase party).owns = true) :
    state.value = 0 := by
  have unit := safe.unit
  have counted : 0 < tally LockPhase.owns state.phase := tally_pos_iff.mpr ⟨party, owns⟩
  omega

omit [DecidableEq Party] in
/-- While a party owns the unit, no other party is past its take. -/
theorem LockSafe.phase_free {state : LockState Party}
    (safe : LockSafe state) {owner other : Party} (owns : (state.phase owner).owns = true)
    (different : other ≠ owner) :
    state.phase other = .free := by
  by_contra busy
  apply different
  refine safe.owner_unique ?_ owns
  cases phase : state.phase other
  · exact absurd phase busy
  · rfl
  · rfl
  · rfl

theorem LockSafe.initial {state : LockState Party}
    (start : (lockProtocol Party).initial state) : LockSafe state := by
  obtain ⟨value, holder, free⟩ := start
  refine ⟨?_, fun party => ?_⟩
  · have none : tally LockPhase.owns state.phase = 0 :=
      tally_eq_zero_iff.mpr fun party => by rw [free party]; rfl
    omega
  · simp [holder, free party]

theorem LockSafe.step {state target : LockState Party} {move : LockMove Party}
    (safe : LockSafe state) (moved : state.step move = some target) : LockSafe target := by
  have unit := safe.unit
  cases move with
  | take party =>
      simp only [LockState.step, Option.ite_none_right_eq_some, Option.some.injEq] at moved
      obtain ⟨⟨free, positive⟩, rfl⟩ := moved
      have counted := tally_update LockPhase.owns state.phase party .taken
      refine ⟨?_, fun other => ?_⟩
      · simp only [LockState.setPhase]
        rw [free] at counted
        simp only [LockPhase.owns, Bool.toNat_true, Bool.toNat_false]
          at counted
        omega
      · by_cases same : other = party
        · subst same
          simp [LockState.setPhase, safe.holder, free]
        · simp [LockState.setPhase, safe.holder, same]
  | store party =>
      simp only [LockState.step, Option.ite_none_right_eq_some, Option.some.injEq] at moved
      obtain ⟨taken, rfl⟩ := moved
      have owns : (state.phase party).owns = true := by rw [taken]; rfl
      refine ⟨?_, fun other => ?_⟩
      · simp only [LockState.setPhase]
        rw [tally_update_of_eq (by rw [owns]; rfl)]
        exact unit
      · by_cases same : other = party
        · subst same
          simp [LockState.setPhase]
        · have free := safe.phase_free owns same
          simp [LockState.setPhase, same, free, Ne.symm same]
  | clear party =>
      simp only [LockState.step, Option.ite_none_right_eq_some, Option.some.injEq] at moved
      obtain ⟨holding, rfl⟩ := moved
      have owns : (state.phase party).owns = true := by rw [holding]; rfl
      refine ⟨?_, fun other => ?_⟩
      · simp only [LockState.setPhase]
        rw [tally_update_of_eq (by rw [owns]; rfl)]
        exact unit
      · by_cases same : other = party
        · subst same
          simp [LockState.setPhase]
        · have free := safe.phase_free owns same
          simp [LockState.setPhase, same, free]
  | put party =>
      simp only [LockState.step, Option.ite_none_right_eq_some, Option.some.injEq] at moved
      obtain ⟨cleared, rfl⟩ := moved
      have counted := tally_update LockPhase.owns state.phase party .free
      refine ⟨?_, fun other => ?_⟩
      · simp only [LockState.setPhase]
        rw [cleared] at counted
        simp only [LockPhase.owns, Bool.toNat_true, Bool.toNat_false]
          at counted
        omega
      · by_cases same : other = party
        · subst same
          simp [LockState.setPhase, safe.holder, cleared]
        · simp [LockState.setPhase, safe.holder, same]

/-- Every reachable state of the protocol is safe. -/
theorem LockSafe.of_reachable {state : LockState Party}
    (reachable : (lockProtocol Party).Reachable state) : LockSafe state :=
  reachable.invariant LockSafe
    (fun _ start => LockSafe.initial start)
    (fun _ _ _ _ safe moved => safe.step moved)

end Protocol

end CS162.Foundation

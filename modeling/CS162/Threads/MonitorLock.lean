import CS162.Foundation.LockProtocol
import CS162.Threads.MonitorShape

/-!
# Mutual exclusion of the lock

The monitor code follows the lock protocol: `sema_down` and `sema_try_down`
take the unit, the store to `holder` comes after, `lock_release` clears the
field and `sema_up` puts the unit back.  Mutual exclusion, the meaning of
`holder` and the assertions are read off the protocol's invariant.
-/

namespace CS162.Threads

open CS162.Foundation
open Machine

variable {Thread Condition Point Shared Choice : Type}

/-- How far a thread at a point of the monitor code is with the lock. -/
def MonitorPoint.lockPhase : MonitorPoint Thread Condition Point → LockPhase
  | .outside _ => .free
  | .inside _ => .holding
  | .lockAcquire _ => .free
  | .lockAcquired _ => .taken
  | .lockTryAcquire _ _ => .free
  | .lockTryAcquired _ => .taken
  | .lockRelease _ => .holding
  | .lockReleased _ => .cleared
  | .condWait _ _ => .holding
  | .condWaitPush _ _ => .holding
  | .condWaitDown _ _ => .free
  | .condSignal _ _ => .holding
  | .condSignalUp _ _ => .holding
  | .condBroadcast _ _ => .holding

/-- How far a thread is with the lock: a thread in the loop of `sema_down`
does not have it. -/
def lockPhase : MonitorControl Thread Condition Point → LockPhase
  | .running point => point.lockPhase
  | .semaDown _ _ => .free
  | .asleep _ _ => .free
  | .failed => .free

@[simp]
theorem lockPhase_running (point : MonitorPoint Thread Condition Point) :
    lockPhase (.running point : MonitorControl Thread Condition Point) =
      point.lockPhase := rfl

@[simp]
theorem lockPhase_wake (control : MonitorControl Thread Condition Point) :
    lockPhase control.wake = lockPhase control := by
  cases control <;> rfl

@[simp]
theorem lockPhase_acquired (caller : LockCaller Condition Point) :
    (caller.acquired : MonitorPoint Thread Condition Point).lockPhase =
      .holding := by
  cases caller <;> rfl

@[simp]
theorem lockPhase_released (caller : LockCaller Condition Point) :
    (caller.released : MonitorPoint Thread Condition Point).lockPhase =
      .free := by
  cases caller <;> rfl

@[simp]
theorem lockPhase_signalled (caller : SignalCaller Condition Point) :
    (caller.signalled : MonitorPoint Thread Condition Point).lockPhase =
      .holding := by
  cases caller <;> rfl

section Steps

variable [DecidableEq Thread] [DecidableEq Condition]
variable {client : Client Thread Condition Point Shared Choice}
variable {machine target : MonitorMachine Thread Condition Point Shared}
variable {current : Thread}

/-- The lock as the protocol sees it. -/
def lockImage (machine : MonitorMachine Thread Condition Point Shared) : LockState Thread where
  value := (machine.sema (.shared .lock)).value
  holder := machine.data.holder
  phase thread := lockPhase (machine.control thread)

omit [DecidableEq Condition] in
@[simp]
theorem lockImage_phase_setControl (current : Thread)
    (control : MonitorControl Thread Condition Point) :
    (lockImage (machine.setControl current control)).phase =
      Function.update (lockImage machine).phase current
        (lockPhase control) := by
  funext thread
  by_cases same : thread = current
  · subst same
    simp [lockImage]
  · simp [lockImage, same]

omit [DecidableEq Condition] in
@[simp]
theorem lockImage_phase_semaUp (id : SemaId LockSema Thread) :
    (lockImage (machine.semaUp id)).phase = (lockImage machine).phase := by
  funext thread
  simp only [lockImage, semaUp_control]
  split
  · exact lockPhase_wake _
  · rfl

omit [DecidableEq Condition] in
@[simp]
theorem lockImage_phase_setSema (id : SemaId LockSema Thread) (sema : Semaphore Thread) :
    (lockImage (machine.setSema id sema)).phase = (lockImage machine).phase := rfl

omit [DecidableEq Thread] [DecidableEq Condition] in
@[simp]
theorem lockImage_phase_setData (data : MonitorData Thread Condition Shared) :
    (lockImage (machine.setData data)).phase = (lockImage machine).phase := rfl

omit [DecidableEq Thread] [DecidableEq Condition] in
theorem lockImage_phase {current : Thread} {control : MonitorControl Thread Condition Point}
    (here : machine.control current = control) :
    (lockImage machine).phase current = lockPhase control := by
  rw [← here]
  rfl

omit [DecidableEq Condition] in
/-- A step that leaves the lock alone is no step of the protocol. -/
theorem lockRun_of_same
    (value : (lockImage target).value = (lockImage machine).value)
    (holder : (lockImage target).holder = (lockImage machine).holder)
    (phase : (lockImage target).phase = (lockImage machine).phase) :
    ∃ labels, (lockProtocol Thread).run (lockImage machine) labels = some (lockImage target) :=
  ⟨[], congrArg some (LockState.ext value holder phase).symm⟩

omit [DecidableEq Condition] in
/-- A step that only moves the control of one thread, with its lock phase
kept. -/
theorem lockRun_of_control {current : Thread} {before after : MonitorControl Thread Condition Point}
    (here : machine.control current = before) (same : lockPhase after = lockPhase before) :
    ∃ labels, (lockProtocol Thread).run (lockImage machine) labels =
      some (lockImage (machine.setControl current after)) := by
  refine lockRun_of_same rfl rfl ?_
  rw [lockImage_phase_setControl, Function.update_eq_self_iff, lockImage_phase here, same]

omit [DecidableEq Condition] in
theorem lockRun_of_move (move : LockMove Thread)
    (moved : (lockImage machine).step move = some (lockImage target)) :
    ∃ labels, (lockProtocol Thread).run (lockImage machine) labels = some (lockImage target) := by
  refine ⟨[move], ?_⟩
  simp [TransitionSystem.run, lockProtocol, moved]

/-- No assertion on `lock_held_by_current_thread` fails while the holder field
is what the protocol says. -/
theorem monitorAction_ne_assertFail [Fintype Thread] (safe : LockSafe (lockImage machine))
    {current : Thread} {point : MonitorPoint Thread Condition Point}
    (here : machine.control current = .running point) (choice : Choice) :
    monitorAction client current point machine.data choice ≠
      .assertFail := by
  have holder : machine.data.holder = some current ↔ point.lockPhase = .holding := by
    have named := safe.holder current
    rwa [lockImage_phase here] at named
  cases point with
  | outside point =>
      simp only [monitorAction]
      cases client.outer current point machine.data.shared choice <;>
        simp [outerAction]
  | inside point =>
      simp only [monitorAction]
      cases client.inner current point machine.data.shared choice <;>
        simp [innerAction]
  | condSignal condition caller =>
      simp only [monitorAction, lockHeldByCurrentThread_iff, holder,
        MonitorPoint.lockPhase, if_true]
      cases machine.data.waiters condition <;> simp
  | condBroadcast condition next =>
      simp only [monitorAction]
      split <;> simp
  | _ =>
      simp [monitorAction, lockHeldByCurrentThread_iff, holder, MonitorPoint.lockPhase]

/-- Every step of a monitor is a run of the lock protocol. -/
theorem MonitorStep.lockRun [Fintype Thread] (shaped : WellShaped machine)
    (safe : LockSafe (lockImage machine)) (moved : MonitorStep client machine current target) :
    ∃ labels, (lockProtocol Thread).run (lockImage machine) labels = some (lockImage target) := by
  cases moved with
  | outerCompute here =>
      exact lockRun_of_control here rfl
  | outerAcquire here =>
      exact lockRun_of_control here rfl
  | outerTryAcquire here =>
      exact lockRun_of_control here rfl
  | innerCompute here =>
      exact lockRun_of_control here rfl
  | innerRelease here =>
      exact lockRun_of_control here rfl
  | innerWait here =>
      exact lockRun_of_control here rfl
  | innerSignal here =>
      exact lockRun_of_control here rfl
  | innerBroadcast here =>
      exact lockRun_of_control here rfl
  | acquireEnter here =>
      exact lockRun_of_control here rfl
  | @acquireStore caller here =>
      refine lockRun_of_move (.store current) ?_
      have taken : (lockImage machine).phase current = .taken := lockImage_phase here
      simp only [LockState.step, if_pos taken, Option.some.injEq]
      refine LockState.ext rfl ?_ ?_
      · cases caller <;> rfl
      · simp [LockState.setPhase]
  | @tryAcquireTake success failure here held positive =>
      refine lockRun_of_move (.take current) ?_
      have free : (lockImage machine).phase current = .free := lockImage_phase here
      simp only [LockState.step]
      rw [if_pos ⟨free, positive⟩, Option.some.injEq]
      refine LockState.ext ?_ rfl ?_
      · simp [lockImage, LockState.setPhase]
      · simp [LockState.setPhase, MonitorPoint.lockPhase]
  | tryAcquireFail here =>
      exact lockRun_of_control here rfl
  | @tryAcquireStore success here =>
      refine lockRun_of_move (.store current) ?_
      have taken : (lockImage machine).phase current = .taken := lockImage_phase here
      simp only [LockState.step, if_pos taken, Option.some.injEq]
      refine LockState.ext rfl rfl ?_
      simp [LockState.setPhase, MonitorPoint.lockPhase]
  | @releaseClear caller here =>
      refine lockRun_of_move (.clear current) ?_
      have holding : (lockImage machine).phase current = .holding := lockImage_phase here
      simp only [LockState.step, if_pos holding, Option.some.injEq]
      refine LockState.ext rfl rfl ?_
      simp [LockState.setPhase, MonitorPoint.lockPhase]
  | @releaseUp caller here =>
      refine lockRun_of_move (.put current) ?_
      have cleared : (lockImage machine).phase current = .cleared := lockImage_phase here
      have zero : (lockImage machine).value = 0 := safe.value_eq_zero (by rw [cleared]; rfl)
      simp only [LockState.step, if_pos cleared, Option.some.injEq]
      refine LockState.ext ?_ ?_ ?_
      · -- one up from zero does not wrap around
        simp only [lockImage] at zero
        simp [lockImage, LockState.setPhase, zero, unsignedModulus]
      · simp [lockImage, LockState.setPhase]
      · simp [LockState.setPhase]
  | waitInit here =>
      refine lockRun_of_same (by simp [lockImage]) rfl ?_
      simp [lockImage_phase here, MonitorPoint.lockPhase]
  | waitPush here =>
      exact lockRun_of_control here rfl
  | waitEnter here =>
      exact lockRun_of_control here rfl
  | signalNone here =>
      exact lockRun_of_control here (lockPhase_signalled _)
  | signalPop here =>
      exact lockRun_of_control here rfl
  | @signalUp waiter caller here =>
      refine lockRun_of_same (by simp [lockImage]) (by simp [lockImage]) ?_
      rw [lockImage_phase_setControl, lockImage_phase_semaUp,
        Function.update_eq_self_iff, lockImage_phase here]
      exact lockPhase_signalled caller
  | broadcastDone here =>
      exact lockRun_of_control here rfl
  | broadcastNext here =>
      exact lockRun_of_control here rfl
  | @downSleep id next here =>
      refine lockRun_of_same ?_ rfl ?_
      · cases id with
        | shared sema =>
            simp [lockImage]
        | frame owner =>
            simp [lockImage]
      · simp [lockImage_phase here, lockPhase]
  | @downTake id next here positive =>
      have shape := shaped current
      rw [here] at shape
      have free : (lockImage machine).phase current = .free := lockImage_phase here
      cases id with
      | shared sema =>
          obtain ⟨caller, rfl⟩ := shape
          refine lockRun_of_move (.take current) ?_
          simp only [LockState.step]
          rw [if_pos ⟨free, positive⟩, Option.some.injEq]
          refine LockState.ext ?_ rfl ?_
          · simp [lockImage, LockState.setPhase]
          · simp [LockState.setPhase, MonitorPoint.lockPhase]
      | frame owner =>
          obtain ⟨rfl, condition, next, rfl⟩ := shape
          refine lockRun_of_same (by simp [lockImage]) rfl ?_
          simp [free, MonitorPoint.lockPhase]
  | assertFail here asserted =>
      exact absurd asserted (monitorAction_ne_assertFail safe here _)

/-- The monitor follows the lock protocol. -/
def lockSimulation [Fintype Thread] (client : Client Thread Condition Point Shared Choice)
    (shared : Shared) :
    TransitionSystem.Simulation
      (monitorSystem client shared) (lockProtocol Thread) where
  image := lockImage
  initial := by
    rintro machine rfl
    exact ⟨rfl, rfl, fun _ => rfl⟩
  step := by
    intro machine turn target reachable imageReachable moved
    obtain ⟨current, moved⟩ := MonitorStep.of_step moved
    exact MonitorStep.lockRun (.of_reachable reachable) (.of_reachable imageReachable) moved

theorem lockSafe_of_reachable [Fintype Thread] {shared : Shared}
    (reachable : (monitorSystem client shared).Reachable machine) :
    LockSafe (lockImage machine) :=
  .of_reachable ((lockSimulation client shared).reachable reachable)

/-- The thread has returned from a successful acquire and its release has
not yet cleared the holder. -/
def holdsLock (control : MonitorControl Thread Condition Point) : Prop :=
  lockPhase control = .holding

/-- The thread is past its successful `sema_down` or `sema_try_down` and
before the increment of the matching `sema_up`. -/
def ownsUnit (control : MonitorControl Thread Condition Point) : Bool := (lockPhase control).owns

/-- What the lock promises in every state. -/
structure LockGuarantee [Fintype Thread]
    (machine : MonitorMachine Thread Condition Point Shared) : Prop where
  exclusive : ∀ left right,
      holdsLock (machine.control left) →
      holdsLock (machine.control right) →
      left = right
  holder : ∀ thread, machine.data.holder = some thread ↔ holdsLock (machine.control thread)
  unit : (machine.sema (.shared .lock)).value + tally ownsUnit machine.control = 1
  asserts : ∀ thread, machine.control thread ≠ .failed

/-- No thread ever stops at a failed assertion. -/
theorem control_ne_failed [Fintype Thread] {shared : Shared}
    (reachable : (monitorSystem client shared).Reachable machine)
    (thread : Thread) : machine.control thread ≠ .failed := by
  revert thread
  let sound : Thread → MonitorControl Thread Condition Point → Prop :=
    fun _ control => control ≠ .failed
  refine reachable.invariant (fun machine => ∀ thread, sound thread (machine.control thread)) ?_ ?_
  · rintro machine rfl thread
    simp [sound, monitorInitial]
  · intro machine turn target reached all moved
    have safe := lockSafe_of_reachable reached
    have awake :
        ∀ thread control, sound thread control →
          sound thread control.wake := by
      intro _ control
      cases control <;> simp [sound, Control.wake]
    obtain ⟨current, moved⟩ := MonitorStep.of_step moved
    cases moved with
    | assertFail here asserted =>
        exact absurd asserted (monitorAction_ne_assertFail safe here _)
    | releaseUp =>
        exact
          forall_update_control sound
            (forall_semaUp_control sound awake all _) (by simp [sound])
    | signalUp =>
        exact
          forall_update_control sound
            (forall_semaUp_control sound awake all _) (by simp [sound])
    | _ =>
        exact forall_update_control sound all (by simp [sound])

/-- Mutual exclusion, the meaning of `holder`, the conservation of the unit
and the absence of failed assertions, in every state that any interleaving of
the clients of one lock reaches. -/
theorem lock_guarantee [Fintype Thread] (client : Client Thread Condition Point Shared Choice)
    (shared : Shared) (reachable : (monitorSystem client shared).Reachable machine) :
    LockGuarantee machine := by
  have safe := lockSafe_of_reachable reachable
  refine ⟨?_, safe.holder, ?_, control_ne_failed reachable⟩
  · intro left right leftHolds rightHolds
    apply safe.owner_unique
    · show (lockPhase (machine.control left)).owns = true
      rw [leftHolds]
      rfl
    · show (lockPhase (machine.control right)).owns = true
      rw [rightHolds]
      rfl
  · have counted :
        tally ownsUnit machine.control = tally LockPhase.owns (lockImage machine).phase :=
      tally_congr fun _ => rfl
    rw [counted]
    exact safe.unit

end Steps

/-- A client that takes the lock with either function and gives it back. -/
def lockUser : Client (Fin 2) Unit Unit Unit Bool where
  start _ := ()
  outer _ _ _ try_ :=
    if try_ then .lockTryAcquire () () else .lockAcquire ()
  inner _ _ _ _ := .lockRelease ()

/-- The first thread has the unit but has not stored its name when the second
tries and fails; then the first becomes the holder. -/
def lockRace (first second : Thread) : List (Turn LockSema Thread Bool) :=
  [.thread first false, .thread first false, .thread first false,
    .thread second true, .thread second true, .thread first false]

theorem lock_guarantee_race : ∃ machine,
      (monitorSystem lockUser ()).run (monitorInitial lockUser ()) (lockRace 0 1) = some machine ∧
      machine.data.holder = some 0 ∧
      LockGuarantee machine := by
  obtain ⟨machine, execution, holder⟩ : ∃ machine,
        (monitorSystem lockUser ()).run (monitorInitial lockUser ()) (lockRace 0 1) = some machine ∧
        machine.data.holder = some 0 :=
    ⟨_, rfl, rfl⟩
  exact ⟨machine, execution, holder, lock_guarantee lockUser () (.of_run (.initial rfl) execution)⟩

end CS162.Threads

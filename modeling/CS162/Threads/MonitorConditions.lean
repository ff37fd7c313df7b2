import CS162.Threads.MonitorLock

/-!
# Condition variables lose no signal and invent none

The monitor code follows the protocol of wait lists with private semaphores.
The lock supplies the exclusion of signallers that the protocol asks for; the
order of releases, the accounting of releases and returns and the fate of a
signal that overtakes its waiter are read off the protocol's invariant.
-/

namespace CS162.Threads

open CS162.Foundation
open Machine

variable {Thread Condition Point Shared Choice : Type}

/-- How far a thread at a point of the monitor code is with `cond_wait`. -/
def MonitorPoint.waitStage : MonitorPoint Thread Condition Point → WaitStage Condition
  | .lockRelease (.condWait condition _) => .queued condition
  | .lockReleased (.condWait condition _) => .queued condition
  | .condWaitDown condition _ => .queued condition
  | .lockAcquire (.condWait condition _) => .woken condition
  | .lockAcquired (.condWait condition _) => .woken condition
  | _ => .none

/-- The stage of a thread whose down has not completed yet. -/
def beforeDown : WaitStage Condition → WaitStage Condition
  | .woken condition => .queued condition
  | stage => stage

/-- How far a thread is with `cond_wait`. -/
def waitStage : MonitorControl Thread Condition Point → WaitStage Condition
  | .running point => point.waitStage
  | .semaDown (.shared _) next => next.waitStage
  | .asleep (.shared _) next => next.waitStage
  | .semaDown (.frame _) next => beforeDown next.waitStage
  | .asleep (.frame _) next => beforeDown next.waitStage
  | .failed => .none

/-- The waiter that a thread has taken off a list and not yet upped. -/
def signalTarget : MonitorControl Thread Condition Point → Option Thread
  | .running (.condSignalUp waiter _) => some waiter
  | _ => none

/-- The thread sleeps on the semaphore of its own frame. -/
def frameAsleep : MonitorControl Thread Condition Point → Bool
  | .asleep (.frame _) _ => true
  | _ => false

@[simp]
theorem waitStage_wake (control : MonitorControl Thread Condition Point) :
    waitStage control.wake = waitStage control := by
  cases control with
  | asleep id next => cases id <;> rfl
  | _ => rfl

@[simp]
theorem signalTarget_wake (control : MonitorControl Thread Condition Point) :
    signalTarget control.wake = signalTarget control := by
  cases control <;> rfl

@[simp]
theorem frameAsleep_wake (control : MonitorControl Thread Condition Point) :
    frameAsleep control.wake = false := by
  cases control <;> rfl

@[simp]
theorem waitStage_signalled (caller : SignalCaller Condition Point) :
    (caller.signalled : MonitorPoint Thread Condition Point).waitStage =
      .none := by
  cases caller <;> rfl

@[simp]
theorem signalTarget_signalled (caller : SignalCaller Condition Point) :
    signalTarget
      (.running caller.signalled : MonitorControl Thread Condition Point) =
        none := by
  cases caller <;> rfl

/-- A thread that is about to up a waiter holds the lock. -/
theorem lockPhase_of_signalTarget
    {control : MonitorControl Thread Condition Point} {waiter : Thread}
    (aimed : signalTarget control = some waiter) :
    lockPhase control = .holding := by
  cases control with
  | running point => cases point <;> simp_all [signalTarget, MonitorPoint.lockPhase]
  | _ => simp [signalTarget] at aimed

section Steps

variable [DecidableEq Thread] [DecidableEq Condition]
variable {client : Client Thread Condition Point Shared Choice}
variable {machine target : MonitorMachine Thread Condition Point Shared}
variable {current : Thread}

/-- The conditions as the protocol sees them. -/
def waitImage (machine : MonitorMachine Thread Condition Point Shared) :
    WaitState Thread Condition where
  stage thread := waitStage (machine.control thread)
  target thread := signalTarget (machine.control thread)
  asleep thread := frameAsleep (machine.control thread)
  value thread := (machine.sema (.frame thread)).value
  line thread := (machine.sema (.frame thread)).waiters
  waiters := machine.data.waiters
  history := machine.data.history

omit [DecidableEq Thread] [DecidableEq Condition] in
theorem waitStage_of_here {control : MonitorControl Thread Condition Point}
    (here : machine.control current = control) :
    (waitImage machine).stage current = waitStage control := by
  rw [← here]
  rfl

omit [DecidableEq Condition] in
@[simp]
theorem waitImage_stage_setControl
    (control : MonitorControl Thread Condition Point) :
    (waitImage (machine.setControl current control)).stage =
      Function.update (waitImage machine).stage current
        (waitStage control) :=
  Function.comp_update waitStage machine.control current control

omit [DecidableEq Condition] in
@[simp]
theorem waitImage_target_setControl
    (control : MonitorControl Thread Condition Point) :
    (waitImage (machine.setControl current control)).target =
      Function.update (waitImage machine).target current
        (signalTarget control) :=
  Function.comp_update signalTarget machine.control current control

omit [DecidableEq Condition] in
@[simp]
theorem waitImage_asleep_setControl
    (control : MonitorControl Thread Condition Point) :
    (waitImage (machine.setControl current control)).asleep =
      Function.update (waitImage machine).asleep current
        (frameAsleep control) :=
  Function.comp_update frameAsleep machine.control current control

omit [DecidableEq Condition] in
theorem waitImage_stage_same
    {before after : MonitorControl Thread Condition Point}
    (here : machine.control current = before) (same : waitStage after = waitStage before) :
    (waitImage (machine.setControl current after)).stage = (waitImage machine).stage := by
  rw [waitImage_stage_setControl, same, ← here]
  exact Function.update_eq_self _ _

omit [DecidableEq Condition] in
theorem waitImage_target_same
    {before after : MonitorControl Thread Condition Point} (here : machine.control current = before)
    (same : signalTarget after = signalTarget before) :
    (waitImage (machine.setControl current after)).target = (waitImage machine).target := by
  rw [waitImage_target_setControl, same, ← here]
  exact Function.update_eq_self _ _

omit [DecidableEq Condition] in
theorem waitImage_asleep_same
    {before after : MonitorControl Thread Condition Point}
    (here : machine.control current = before) (same : frameAsleep after = frameAsleep before) :
    (waitImage (machine.setControl current after)).asleep = (waitImage machine).asleep := by
  rw [waitImage_asleep_setControl, same, ← here]
  exact Function.update_eq_self _ _

omit [DecidableEq Condition] in
/-- A step that changes the semaphore in the frame of one thread. -/
theorem waitImage_value_update (owner : Thread) (sema : Semaphore Thread)
    (changed : target.sema = Function.update machine.sema (.frame owner) sema) :
    (waitImage target).value = Function.update (waitImage machine).value owner sema.value := by
  funext thread
  by_cases same : thread = owner
  · subst same
    simp [waitImage, changed]
  · simp [waitImage, changed, same]

omit [DecidableEq Condition] in
theorem waitImage_line_update (owner : Thread) (sema : Semaphore Thread)
    (changed : target.sema = Function.update machine.sema (.frame owner) sema) :
    (waitImage target).line = Function.update (waitImage machine).line owner sema.waiters := by
  funext thread
  by_cases same : thread = owner
  · subst same
    simp [waitImage, changed]
  · simp [waitImage, changed, same]

omit [DecidableEq Condition] in
theorem waitImage_value_same {owner : Thread} {sema : Semaphore Thread}
    (changed : target.sema = Function.update machine.sema (.frame owner) sema)
    (same : sema.value = (machine.sema (.frame owner)).value) :
    (waitImage target).value = (waitImage machine).value := by
  rw [waitImage_value_update owner sema changed, same]
  exact Function.update_eq_self _ _

omit [DecidableEq Condition] in
theorem waitImage_line_same {owner : Thread} {sema : Semaphore Thread}
    (changed : target.sema = Function.update machine.sema (.frame owner) sema)
    (same : sema.waiters = (machine.sema (.frame owner)).waiters) :
    (waitImage target).line = (waitImage machine).line := by
  rw [waitImage_line_update owner sema changed, same]
  exact Function.update_eq_self _ _

variable [Fintype Thread]

/-- The protocol has no move for a step, or one. -/
def WaitFollows (machine target : MonitorMachine Thread Condition Point Shared) : Prop :=
  (waitProtocol Thread Condition).Follows (waitImage machine) (waitImage target)

theorem waitFollows_of_same (same : waitImage target = waitImage machine) :
    WaitFollows machine target :=
  Or.inl same

/-- A step that only moves the control of one thread, with its part in the
protocol kept. -/
theorem waitFollows_of_control
    {before after : MonitorControl Thread Condition Point}
    (here : machine.control current = before) (stage : waitStage after = waitStage before)
    (aim : signalTarget after = signalTarget before)
    (asleep : frameAsleep after = frameAsleep before) :
    WaitFollows machine (machine.setControl current after) := by
  apply waitFollows_of_same
  exact
    WaitState.ext (waitImage_stage_same here stage)
      (waitImage_target_same here aim) (waitImage_asleep_same here asleep)
      rfl rfl rfl rfl

theorem waitFollows_of_move (move : WaitMove Thread Condition)
    (moved : (waitImage machine).step move = some (waitImage target)) :
    WaitFollows machine target :=
  Or.inr ⟨move, moved⟩

omit [DecidableEq Condition] [Fintype Thread] in
theorem waitImage_stage_semaUp (id : SemaId LockSema Thread) :
    (waitImage (machine.semaUp id)).stage = (waitImage machine).stage := by
  funext thread
  simp only [waitImage, semaUp_control]
  split <;> simp

omit [DecidableEq Condition] [Fintype Thread] in
theorem waitImage_target_semaUp (id : SemaId LockSema Thread) :
    (waitImage (machine.semaUp id)).target = (waitImage machine).target := by
  funext thread
  simp only [waitImage, semaUp_control]
  split <;> simp

omit [DecidableEq Condition] [Fintype Thread] in
theorem waitImage_asleep_semaUp (id : SemaId LockSema Thread) {waiter : Thread}
    (only : ∀ thread, (machine.sema id).waiters.head? = some thread → thread = waiter) :
    (waitImage (machine.semaUp id)).asleep =
      if (machine.sema id).waiters.head? = some waiter then
        Function.update (waitImage machine).asleep waiter false
      else (waitImage machine).asleep := by
  funext thread
  simp only [waitImage, semaUp_control]
  by_cases first : (machine.sema id).waiters.head? = some thread
  · obtain rfl := only thread first
    simp [first]
  · rw [if_neg first]
    by_cases same : thread = waiter
    · subst same
      rw [if_neg first]
    · split <;> simp [same]

omit [DecidableEq Condition] [Fintype Thread] in
/-- An up of the lock only wakes threads that sleep on the lock. -/
theorem waitImage_semaUp_lock (sound : QueueSound machine) :
    waitImage (machine.semaUp (.shared .lock)) = waitImage machine := by
  refine WaitState.ext (waitImage_stage_semaUp _) (waitImage_target_semaUp _) ?_ ?_ ?_ ?_ ?_
  · funext thread
    simp only [waitImage, semaUp_control]
    split
    · rename_i first
      obtain ⟨next, asleep⟩ := ((sound (.shared .lock)).2 thread).mp (List.mem_of_head? first)
      rw [asleep]
      rfl
    · rfl
  all_goals simp [waitImage]

omit [DecidableEq Thread] [DecidableEq Condition] in
/-- The holder of the lock is the only possible signaller. -/
theorem no_target_of_holding
    (safe : LockSafe (lockImage machine)) (holding : lockPhase (machine.control current) = .holding)
    (aimless : signalTarget (machine.control current) = none)
    (other : Thread) : (waitImage machine).target other = none := by
  cases aimed : (waitImage machine).target other with
  | none => rfl
  | some waiter =>
      have otherHolds := lockPhase_of_signalTarget aimed
      have same : other = current := by
        apply safe.owner_unique
        · show (lockPhase (machine.control other)).owns = true
          rw [otherHolds]
          rfl
        · show (lockPhase (machine.control current)).owns = true
          rw [holding]
          rfl
      subst same
      exact aimed.symm.trans aimless

section Moves

variable {condition : Condition} {next : Point}

/-- A waiter has the lock again. -/
theorem waitFollows_acquireStore
    (here : machine.control current = .running (.lockAcquired (.condWait condition next))) :
    WaitFollows machine
      ((machine.setData
        (lockAcquireStore machine.data current (.condWait condition next))).setControl
          current (.running (LockCaller.condWait condition next).acquired)) := by
  refine waitFollows_of_move (.finish current condition) ?_
  have woken : (waitImage machine).stage current = .woken condition := waitStage_of_here here
  simp only [WaitState.step]
  rw [if_pos woken]
  refine congrArg some (WaitState.ext ?_ ?_ ?_ rfl rfl rfl rfl)
  · exact Eq.symm (waitImage_stage_setControl _)
  · exact Eq.symm (waitImage_target_same here rfl)
  · exact Eq.symm (waitImage_asleep_same here rfl)

/-- An up of the lock is none of a private semaphore. -/
theorem waitFollows_releaseUp (sound : QueueSound machine) {caller : LockCaller Condition Point}
    (here : machine.control current = .running (.lockReleased caller)) :
    WaitFollows machine
      ((machine.semaUp (.shared .lock)).setControl current (.running caller.released)) := by
  have awake : (machine.semaUp (.shared .lock)).control current =
      .running (.lockReleased caller) := by
    rw [semaUp_control, here]
    split <;> rfl
  have follows := waitFollows_of_control awake
    (by cases caller <;> rfl : waitStage (.running caller.released) = _)
    (by cases caller <;> rfl) rfl
  rwa [WaitFollows, waitImage_semaUp_lock sound] at follows

theorem waitFollows_waitInit
    (here : machine.control current = .running (.condWait condition next)) :
    WaitFollows machine
      ((machine.setSema (.frame current) (.semaInit 0)).setControl
        current (.running (.condWaitPush condition next))) := by
  refine waitFollows_of_move (.prepare current) ?_
  have out : (waitImage machine).stage current = .none := waitStage_of_here here
  simp only [WaitState.step]
  rw [if_pos out]
  refine congrArg some (WaitState.ext ?_ ?_ ?_ ?_ ?_ rfl rfl)
  · exact Eq.symm (waitImage_stage_same here rfl)
  · exact Eq.symm (waitImage_target_same here rfl)
  · exact Eq.symm (waitImage_asleep_same here rfl)
  · exact Eq.symm (waitImage_value_update current (.semaInit 0) rfl)
  · exact Eq.symm (waitImage_line_update current (.semaInit 0) rfl)

theorem waitFollows_waitPush (safe : WaitSafe (waitImage machine))
    (here : machine.control current = .running (.condWaitPush condition next)) :
    WaitFollows machine
      ((machine.setData
        ((machine.data.setWaiters condition
          (machine.data.waiters condition ++ [current])).record
            (.waited condition current))).setControl
          current (.running (.lockRelease (.condWait condition next)))) := by
  refine waitFollows_of_move (.join current condition) ?_
  have out : (waitImage machine).stage current = .none := waitStage_of_here here
  have zero : (waitImage machine).value current = 0 := safe.idle current (by simp [out])
  simp only [WaitState.step]
  rw [if_pos ⟨out, zero⟩]
  refine congrArg some (WaitState.ext ?_ ?_ ?_ rfl rfl rfl rfl)
  · exact Eq.symm (waitImage_stage_setControl _)
  · exact Eq.symm (waitImage_target_same here rfl)
  · exact Eq.symm (waitImage_asleep_same here rfl)

variable {waiter : Thread} {caller : SignalCaller Condition Point}

/-- The first waiter is taken off the list. -/
theorem waitFollows_signalPop {rest : List Thread} (lockSafe : LockSafe (lockImage machine))
    (here : machine.control current = .running (.condSignal condition caller))
    (queue : machine.data.waiters condition = waiter :: rest) :
    WaitFollows machine
      ((machine.setData
        ((machine.data.setWaiters condition rest).record
          (.released condition waiter))).setControl
            current (.running (.condSignalUp waiter caller))) := by
  refine waitFollows_of_move (.pop current condition waiter) ?_
  have alone : ∀ other, (waitImage machine).target other = none :=
    no_target_of_holding lockSafe (by rw [here]; rfl) (by rw [here]; rfl)
  have head : ((waitImage machine).waiters condition).head? = some waiter := by
    simp [waitImage, queue]
  simp only [WaitState.step]
  rw [if_pos ⟨alone, head⟩]
  refine congrArg some (WaitState.ext ?_ ?_ ?_ rfl rfl ?_ rfl)
  · exact Eq.symm (waitImage_stage_same here rfl)
  · exact Eq.symm (waitImage_target_setControl _)
  · exact Eq.symm (waitImage_asleep_same here rfl)
  · show
      Function.update machine.data.waiters condition
          (machine.data.waiters condition).tail =
        Function.update machine.data.waiters condition rest
    rw [queue, List.tail_cons]

/-- The private semaphore of a waiter is upped. -/
theorem waitFollows_signalUp (safe : WaitSafe (waitImage machine))
    (here : machine.control current = .running (.condSignalUp waiter caller)) :
    WaitFollows machine
      ((machine.semaUp (.frame waiter)).setControl
        current (.running caller.signalled)) := by
  refine waitFollows_of_move (.post current waiter) ?_
  have aimed : (waitImage machine).target current = some waiter := by
    show signalTarget (machine.control current) = some waiter
    rw [here]
    rfl
  have zero : (machine.sema (.frame waiter)).value = 0 := (safe.popped current waiter aimed).1
  have only :
      ∀ thread, (machine.sema (.frame waiter)).waiters.head? = some thread →
        thread = waiter := by
    intro thread head
    have line := safe.line waiter
    change (machine.sema (.frame waiter)).waiters = _ at line
    rw [line] at head
    split at head <;> simp_all
  have awake : (machine.semaUp (.frame waiter)).control current =
      .running (.condSignalUp waiter caller) := by
    rw [semaUp_control, here]
    split <;> rfl
  have upped :
      ((machine.semaUp (.frame waiter)).setControl current
        (.running caller.signalled)).sema =
          Function.update machine.sema (.frame waiter)
            (machine.sema (.frame waiter)).semaUp :=
    semaUp_sema machine (.frame waiter)
  simp only [WaitState.step]
  rw [if_pos aimed]
  refine congrArg some (WaitState.ext ?_ ?_ ?_ ?_ ?_ ?_ ?_)
  · refine Eq.symm (Eq.trans ?_ (waitImage_stage_semaUp (.frame waiter)))
    exact waitImage_stage_same awake (waitStage_signalled caller)
  · refine Eq.symm (Eq.trans (waitImage_target_setControl _) ?_)
    rw [signalTarget_signalled, waitImage_target_semaUp]
  · refine Eq.symm (Eq.trans (waitImage_asleep_same awake rfl) ?_)
    exact waitImage_asleep_semaUp (.frame waiter) only
  · refine Eq.symm (Eq.trans (waitImage_value_update waiter _ upped) ?_)
    rw [Semaphore.semaUp_value_of_lt (by rw [zero]; decide)]
    rfl
  · refine Eq.symm (Eq.trans (waitImage_line_update waiter _ upped) ?_)
    rw [Semaphore.semaUp_waiters]
    rfl
  · simp [waitImage]
  · simp [waitImage]

/-- A change of the semaphore of the lock is none of a private one. -/
theorem waitFollows_shared {sema : LockSema} {value : Semaphore Thread}
    {before after : MonitorControl Thread Condition Point}
    (here : machine.control current = before) (stage : waitStage after = waitStage before)
    (aim : signalTarget after = signalTarget before)
    (asleep : frameAsleep after = frameAsleep before) :
    WaitFollows machine
      ((machine.setSema (.shared sema) value).setControl current after) := by
  apply waitFollows_of_same
  refine WaitState.ext (waitImage_stage_same here stage)
    (waitImage_target_same here aim) (waitImage_asleep_same here asleep)
    ?_ ?_ rfl rfl <;> simp [waitImage]

/-- A waiter goes to sleep. -/
theorem waitFollows_frameSleep
    (here : machine.control current =
      .semaDown (.frame current) (.lockAcquire (.condWait condition next)))
    (zero : (machine.sema (.frame current)).value = 0) :
    WaitFollows machine
      ((machine.setSema (.frame current)
        ((machine.sema (.frame current)).enqueue current)).setControl
          current
          (.asleep (.frame current) (.lockAcquire (.condWait condition next)))) := by
  refine waitFollows_of_move (.sleep current condition) ?_
  have queued : (waitImage machine).stage current = .queued condition := waitStage_of_here here
  have awake : (waitImage machine).asleep current = false := by
    show frameAsleep (machine.control current) = false
    rw [here]
    rfl
  simp only [WaitState.step]
  rw [if_pos ⟨queued, awake, zero⟩]
  refine congrArg some (WaitState.ext ?_ ?_ ?_ ?_ ?_ rfl rfl)
  · exact Eq.symm (waitImage_stage_same here rfl)
  · exact Eq.symm (waitImage_target_same here rfl)
  · exact Eq.symm (waitImage_asleep_setControl _)
  · exact Eq.symm (waitImage_value_same rfl rfl)
  · exact Eq.symm (waitImage_line_update current (.enqueue _ current) rfl)

/-- A waiter goes on. -/
theorem waitFollows_frameTake
    (here : machine.control current =
      .semaDown (.frame current) (.lockAcquire (.condWait condition next)))
    (positive : 0 < (machine.sema (.frame current)).value) :
    WaitFollows machine
      ((machine.setSema (.frame current)
        (machine.sema (.frame current)).take).setControl
          current (.running (.lockAcquire (.condWait condition next)))) := by
  refine waitFollows_of_move (.consume current condition) ?_
  have queued : (waitImage machine).stage current = .queued condition := waitStage_of_here here
  have awake : (waitImage machine).asleep current = false := by
    show frameAsleep (machine.control current) = false
    rw [here]
    rfl
  simp only [WaitState.step]
  rw [if_pos ⟨queued, awake, positive⟩]
  refine congrArg some (WaitState.ext ?_ ?_ ?_ ?_ ?_ rfl rfl)
  · exact Eq.symm (waitImage_stage_setControl _)
  · exact Eq.symm (waitImage_target_same here rfl)
  · exact Eq.symm (waitImage_asleep_same here rfl)
  · exact Eq.symm (waitImage_value_update current (.take _) rfl)
  · exact Eq.symm (waitImage_line_same rfl rfl)

end Moves

/-- Every step of a monitor is one of the protocol of its conditions, or none. -/
theorem MonitorStep.waitFollows
    (shaped : WellShaped machine) (sound : QueueSound machine)
    (lockSafe : LockSafe (lockImage machine)) (safe : WaitSafe (waitImage machine))
    (moved : MonitorStep client machine current target) :
    WaitFollows machine target := by
  cases moved with
  | outerCompute here => exact waitFollows_of_control here rfl rfl rfl
  | outerAcquire here => exact waitFollows_of_control here rfl rfl rfl
  | outerTryAcquire here => exact waitFollows_of_control here rfl rfl rfl
  | innerCompute here => exact waitFollows_of_control here rfl rfl rfl
  | innerRelease here => exact waitFollows_of_control here rfl rfl rfl
  | innerWait here => exact waitFollows_of_control here rfl rfl rfl
  | innerSignal here => exact waitFollows_of_control here rfl rfl rfl
  | innerBroadcast here => exact waitFollows_of_control here rfl rfl rfl
  | @acquireEnter caller here =>
      exact waitFollows_of_control here (by cases caller <;> rfl) rfl rfl
  | @acquireStore caller here =>
      cases caller with
      | client next => exact waitFollows_of_control here rfl rfl rfl
      | condWait condition next => exact waitFollows_acquireStore here
  | tryAcquireTake here => exact waitFollows_shared here rfl rfl rfl
  | tryAcquireFail here => exact waitFollows_of_control here rfl rfl rfl
  | tryAcquireStore here => exact waitFollows_of_control here rfl rfl rfl
  | @releaseClear caller here =>
      exact waitFollows_of_control here (by cases caller <;> rfl) rfl rfl
  | releaseUp here => exact waitFollows_releaseUp sound here
  | waitInit here => exact waitFollows_waitInit here
  | waitPush here => exact waitFollows_waitPush safe here
  | waitEnter here => exact waitFollows_of_control here rfl rfl rfl
  | signalNone here =>
      exact waitFollows_of_control here (waitStage_signalled _)
        (signalTarget_signalled _) rfl
  | signalPop here holder queue => exact waitFollows_signalPop lockSafe here queue
  | signalUp here => exact waitFollows_signalUp safe here
  | broadcastDone here => exact waitFollows_of_control here rfl rfl rfl
  | broadcastNext here => exact waitFollows_of_control here rfl rfl rfl
  | @downSleep id next here zero =>
      have shape := shaped current
      rw [here] at shape
      cases id with
      | shared sema => exact waitFollows_shared here rfl rfl rfl
      | frame owner =>
          obtain ⟨rfl, condition, next, rfl⟩ := shape
          exact waitFollows_frameSleep here zero
  | @downTake id next here positive =>
      have shape := shaped current
      rw [here] at shape
      cases id with
      | shared sema =>
          obtain ⟨caller, rfl⟩ := shape
          exact waitFollows_shared here rfl rfl rfl
      | frame owner =>
          obtain ⟨rfl, condition, next, rfl⟩ := shape
          exact waitFollows_frameTake here positive
  | assertFail here asserted =>
      exact absurd asserted (monitorAction_ne_assertFail lockSafe here _)

/-- The monitor follows the protocol of its conditions. -/
def waitSimulation
    (client : Client Thread Condition Point Shared Choice) (shared : Shared) :
    TransitionSystem.Simulation
      (monitorSystem client shared) (waitProtocol Thread Condition) where
  image := waitImage
  initial := by
    rintro machine rfl
    exact ⟨fun _ => rfl, fun _ => rfl, fun _ => rfl, fun _ => rfl, fun _ => rfl, fun _ => rfl, rfl⟩
  step := by
    intro machine turn target reachable imageReachable moved
    obtain ⟨current, moved⟩ := MonitorStep.of_step moved
    exact
      (MonitorStep.waitFollows (.of_reachable reachable) (.of_reachable reachable)
        (lockSafe_of_reachable reachable) (.of_reachable imageReachable) moved).run

theorem waitSafe_of_reachable {shared : Shared}
    (reachable : (monitorSystem client shared).Reachable machine) :
    WaitSafe (waitImage machine) :=
  .of_reachable ((waitSimulation client shared).reachable reachable)

end Steps

end CS162.Threads

import CS162.Threads.Monitor

/-!
# The moves of a monitor

Everything one step of a monitor can do, as one relation with a rule for each
branch of the code.  The invariants of the lock, of the conditions and of the
clients are derived from these rules; none of them unfolds the step function.
-/

namespace CS162.Threads

open Machine

variable {Thread Condition Point Shared Choice : Type}
variable [DecidableEq Thread] [DecidableEq Condition]

/-- One rule for each branch of the monitor code, executed by the current
thread. -/
inductive MonitorStep
    (client : Client Thread Condition Point Shared Choice)
    (machine : MonitorMachine Thread Condition Point Shared) (current : Thread) :
    MonitorMachine Thread Condition Point Shared → Prop
  | outerCompute {here next : Point}
      {choice : Choice} {shared : Shared} :
      machine.control current = .running (.outside here) →
      client.outer current here machine.data.shared choice = .compute next shared →
      MonitorStep client machine current
        ((machine.setData (machine.data.setShared shared)).setControl
          current (.running (.outside next)))
  | outerAcquire {here next : Point} {choice : Choice} :
      machine.control current = .running (.outside here) →
      client.outer current here machine.data.shared choice = .lockAcquire next →
      MonitorStep client machine current
        (machine.setControl current (.running (.lockAcquire (.client next))))
  | outerTryAcquire {here success failure : Point}
      {choice : Choice} :
      machine.control current = .running (.outside here) →
      client.outer current here machine.data.shared choice = .lockTryAcquire success failure →
      MonitorStep client machine current
        (machine.setControl current
          (.running (.lockTryAcquire success failure)))
  | innerCompute {here next : Point}
      {choice : Choice} {shared : Shared} :
      machine.control current = .running (.inside here) →
      client.inner current here machine.data.shared choice = .compute next shared →
      MonitorStep client machine current
        ((machine.setData (machine.data.setShared shared)).setControl
          current (.running (.inside next)))
  | innerRelease {here next : Point} {choice : Choice} :
      machine.control current = .running (.inside here) →
      client.inner current here machine.data.shared choice = .lockRelease next →
      MonitorStep client machine current
        (machine.setControl current (.running (.lockRelease (.client next))))
  | innerWait {here next : Point} {choice : Choice}
      {condition : Condition} :
      machine.control current = .running (.inside here) →
      client.inner current here machine.data.shared choice = .condWait condition next →
      MonitorStep client machine current
        (machine.setControl current (.running (.condWait condition next)))
  | innerSignal {here next : Point} {choice : Choice}
      {condition : Condition} :
      machine.control current = .running (.inside here) →
      client.inner current here machine.data.shared choice = .condSignal condition next →
      MonitorStep client machine current
        (machine.setControl current
          (.running (.condSignal condition (.client next))))
  | innerBroadcast {here next : Point} {choice : Choice}
      {condition : Condition} :
      machine.control current = .running (.inside here) →
      client.inner current here machine.data.shared choice = .condBroadcast condition next →
      MonitorStep client machine current
        (machine.setControl current (.running (.condBroadcast condition next)))
  | acquireEnter {caller : LockCaller Condition Point} :
      machine.control current = .running (.lockAcquire caller) →
      machine.data.holder ≠ some current →
      MonitorStep client machine current
        (machine.setControl current
          (.semaDown (.shared .lock) (.lockAcquired caller)))
  | acquireStore {caller : LockCaller Condition Point} :
      machine.control current = .running (.lockAcquired caller) →
      MonitorStep client machine current
        ((machine.setData
          (lockAcquireStore machine.data current caller)).setControl
            current (.running caller.acquired))
  | tryAcquireTake {success failure : Point} :
      machine.control current = .running (.lockTryAcquire success failure) →
      machine.data.holder ≠ some current →
      0 < (machine.sema (.shared .lock)).value →
      MonitorStep client machine current
        ((machine.setSema (.shared .lock)
          (machine.sema (.shared .lock)).take).setControl
            current (.running (.lockTryAcquired success)))
  | tryAcquireFail {success failure : Point} :
      machine.control current = .running (.lockTryAcquire success failure) →
      machine.data.holder ≠ some current →
      (machine.sema (.shared .lock)).value = 0 →
      MonitorStep client machine current
        (machine.setControl current (.running (.outside failure)))
  | tryAcquireStore {success : Point} :
      machine.control current = .running (.lockTryAcquired success) →
      MonitorStep client machine current
        ((machine.setData (machine.data.setHolder (some current))).setControl
          current (.running (.inside success)))
  | releaseClear {caller : LockCaller Condition Point} :
      machine.control current = .running (.lockRelease caller) →
      machine.data.holder = some current →
      MonitorStep client machine current
        ((machine.setData (machine.data.setHolder none)).setControl
          current (.running (.lockReleased caller)))
  | releaseUp {caller : LockCaller Condition Point} :
      machine.control current = .running (.lockReleased caller) →
      MonitorStep client machine current
        ((machine.semaUp (.shared .lock)).setControl
          current (.running caller.released))
  | waitInit {condition : Condition} {next : Point} :
      machine.control current = .running (.condWait condition next) →
      machine.data.holder = some current →
      MonitorStep client machine current
        ((machine.setSema (.frame current) (.semaInit 0)).setControl
          current (.running (.condWaitPush condition next)))
  | waitPush {condition : Condition} {next : Point} :
      machine.control current = .running (.condWaitPush condition next) →
      MonitorStep client machine current
        ((machine.setData
          ((machine.data.setWaiters condition
            (machine.data.waiters condition ++ [current])).record
              (.waited condition current))).setControl
            current (.running (.lockRelease (.condWait condition next))))
  | waitEnter {condition : Condition} {next : Point} :
      machine.control current = .running (.condWaitDown condition next) →
      MonitorStep client machine current
        (machine.setControl current
          (.semaDown (.frame current)
            (.lockAcquire (.condWait condition next))))
  | signalNone {condition : Condition}
      {caller : SignalCaller Condition Point} :
      machine.control current = .running (.condSignal condition caller) →
      machine.data.holder = some current →
      machine.data.waiters condition = [] →
      MonitorStep client machine current
        (machine.setControl current (.running caller.signalled))
  | signalPop {waiter : Thread} {condition : Condition}
      {caller : SignalCaller Condition Point} {rest : List Thread} :
      machine.control current = .running (.condSignal condition caller) →
      machine.data.holder = some current →
      machine.data.waiters condition = waiter :: rest →
      MonitorStep client machine current
        ((machine.setData
          ((machine.data.setWaiters condition rest).record
            (.released condition waiter))).setControl
              current (.running (.condSignalUp waiter caller)))
  | signalUp {waiter : Thread}
      {caller : SignalCaller Condition Point} :
      machine.control current = .running (.condSignalUp waiter caller) →
      MonitorStep client machine current
        ((machine.semaUp (.frame waiter)).setControl
          current (.running caller.signalled))
  | broadcastDone {condition : Condition} {next : Point} :
      machine.control current = .running (.condBroadcast condition next) →
      machine.data.waiters condition = [] →
      MonitorStep client machine current
        (machine.setControl current (.running (.inside next)))
  | broadcastNext {condition : Condition} {next : Point} :
      machine.control current = .running (.condBroadcast condition next) →
      machine.data.waiters condition ≠ [] →
      MonitorStep client machine current
        (machine.setControl current
          (.running (.condSignal condition (.condBroadcast condition next))))
  | downSleep {id : SemaId LockSema Thread}
      {next : MonitorPoint Thread Condition Point} :
      machine.control current = .semaDown id next →
      (machine.sema id).value = 0 →
      MonitorStep client machine current
        ((machine.setSema id ((machine.sema id).enqueue current)).setControl
          current (.asleep id next))
  | downTake {id : SemaId LockSema Thread}
      {next : MonitorPoint Thread Condition Point} :
      machine.control current = .semaDown id next →
      0 < (machine.sema id).value →
      MonitorStep client machine current
        ((machine.setSema id (machine.sema id).take).setControl current (.running next))
  /-- An `ASSERT` on `lock_held_by_current_thread` failed. -/
  | assertFail  {point : MonitorPoint Thread Condition Point} {choice : Choice} :
      machine.control current = .running point →
      monitorAction client current point machine.data choice = .assertFail →
      MonitorStep client machine current (machine.setControl current .failed)

omit [DecidableEq Condition] in
theorem lockHeldByCurrentThread_iff
    {data : MonitorData Thread Condition Shared} {current : Thread} :
    lockHeldByCurrentThread data current = true ↔ data.holder = some current := by
  simp [lockHeldByCurrentThread]

/-- What a thread does at a point of the monitor code is one of the rules. -/
theorem MonitorStep.of_perform
    {client : Client Thread Condition Point Shared Choice}
    {machine : MonitorMachine Thread Condition Point Shared}
    {current : Thread} {point : MonitorPoint Thread Condition Point}
    (here : machine.control current = .running point) (choice : Choice) :
    MonitorStep client machine current
      (machine.perform current
        (monitorAction client current point machine.data choice)) := by
  by_cases asserted : monitorAction client current point machine.data choice = .assertFail
  · rw [asserted]
    exact .assertFail here asserted
  cases point with
  | outside point =>
      cases call : client.outer current point machine.data.shared choice with
      | compute next shared =>
          simp only [monitorAction, call, outerAction]
          exact .outerCompute here call
      | lockAcquire next =>
          simp only [monitorAction, call, outerAction]
          exact .outerAcquire here call
      | lockTryAcquire success failure =>
          simp only [monitorAction, call, outerAction]
          exact .outerTryAcquire here call
  | inside point =>
      cases call : client.inner current point machine.data.shared choice with
      | compute next shared =>
          simp only [monitorAction, call, innerAction]
          exact .innerCompute here call
      | lockRelease next =>
          simp only [monitorAction, call, innerAction]
          exact .innerRelease here call
      | condWait condition next =>
          simp only [monitorAction, call, innerAction]
          exact .innerWait here call
      | condSignal condition next =>
          simp only [monitorAction, call, innerAction]
          exact .innerSignal here call
      | condBroadcast condition next =>
          simp only [monitorAction, call, innerAction]
          exact .innerBroadcast here call
  | lockAcquire caller =>
      by_cases held : machine.data.holder = some current
      · simp [monitorAction, lockHeldByCurrentThread_iff.mpr held] at asserted
      · simp only [monitorAction, lockHeldByCurrentThread_iff, if_neg held]
        exact .acquireEnter here held
  | lockAcquired caller =>
      exact .acquireStore here
  | lockTryAcquire success failure =>
      by_cases held : machine.data.holder = some current
      · simp [monitorAction, lockHeldByCurrentThread_iff.mpr held] at asserted
      · simp only [monitorAction, lockHeldByCurrentThread_iff, if_neg held]
        by_cases positive : 0 < (machine.sema (.shared .lock)).value
        · rw [perform_semaTryDown_of_pos _ _ _ _ positive]
          exact .tryAcquireTake here held positive
        · have zero : (machine.sema (.shared .lock)).value = 0 := by omega
          rw [perform_semaTryDown_of_zero _ _ _ _ zero]
          exact .tryAcquireFail here held zero
  | lockTryAcquired success =>
      exact .tryAcquireStore here
  | lockRelease caller =>
      by_cases held : machine.data.holder = some current
      · simp only [monitorAction, lockHeldByCurrentThread_iff, if_pos held]
        exact .releaseClear here held
      · simp [monitorAction, lockHeldByCurrentThread_iff, held] at asserted
  | lockReleased caller =>
      exact .releaseUp here
  | condWait condition next =>
      by_cases held : machine.data.holder = some current
      · simp only [monitorAction, lockHeldByCurrentThread_iff, if_pos held]
        exact .waitInit here held
      · simp [monitorAction, lockHeldByCurrentThread_iff, held] at asserted
  | condWaitPush condition next =>
      exact .waitPush here
  | condWaitDown condition next =>
      exact .waitEnter here
  | condSignal condition caller =>
      by_cases held : machine.data.holder = some current
      · simp only [monitorAction, lockHeldByCurrentThread_iff, if_pos held]
        cases queue : machine.data.waiters condition with
        | nil =>
            exact .signalNone here held queue
        | cons waiter rest =>
            exact .signalPop here held queue
      · simp [monitorAction, lockHeldByCurrentThread_iff, held] at asserted
  | condSignalUp waiter caller =>
      exact .signalUp here
  | condBroadcast condition next =>
      cases queue : machine.data.waiters condition with
      | nil =>
          simp only [monitorAction, queue, List.isEmpty_nil, if_true]
          exact .broadcastDone here queue
      | cons waiter rest =>
          simp only [monitorAction, queue, List.isEmpty_cons, Bool.false_eq_true, if_false]
          exact .broadcastNext here (by simp [queue])

/-- A turn of a thread is one of the rules for that thread. -/
theorem MonitorStep.of_thread
    {client : Client Thread Condition Point Shared Choice}
    {machine target : MonitorMachine Thread Condition Point Shared}
    {current : Thread} {choice : Choice}
    (moved : machine.step (monitorCode client) (.thread current choice) = some target) :
    MonitorStep client machine current target := by
  cases here : machine.control current with
  | running point =>
      simp only [Machine.step, here, Option.some.injEq] at moved
      subst moved
      exact MonitorStep.of_perform here choice
  | semaDown id next =>
      simp only [Machine.step, here, Option.some.injEq] at moved
      subst moved
      unfold Machine.semaDown
      by_cases zero : (machine.sema id).value = 0
      · rw [if_pos zero]
        exact .downSleep here zero
      · rw [if_neg zero]
        exact .downTake here (by omega)
  | asleep id next =>
      simp [Machine.step, here] at moved
  | failed =>
      simp [Machine.step, here] at moved

/-- Every step of a monitor is one of the rules for some thread. -/
theorem MonitorStep.of_step
    {client : Client Thread Condition Point Shared Choice}
    {machine target : MonitorMachine Thread Condition Point Shared}
    {turn : Turn LockSema Thread Choice}
    (moved : machine.step (monitorCode client) turn = some target) :
    ∃ current, MonitorStep client machine current target := by
  cases turn with
  | thread current choice =>
      exact ⟨current, .of_thread moved⟩
  | interruptUp sema =>
      simp [Machine.step, monitorCode] at moved
  | interruptTryDown sema =>
      simp [Machine.step, monitorCode] at moved

end CS162.Threads

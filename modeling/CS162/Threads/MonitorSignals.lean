import CS162.Threads.MonitorConditions

/-!
# What the condition operations do

The holder of the lock runs through `cond_signal` and `cond_broadcast` at its
own pace: no other thread can touch the lists or the record of releases in
between.  Together with the invariant of the wait lists this says what one
signal and one broadcast release and when a wait returns.
-/

namespace CS162.Threads

open CS162.Foundation
open Machine

variable {Thread Condition Point Shared Choice : Type}

/-- The turn belongs to the thread. -/
def Turn.isOf [DecidableEq Thread] (current : Thread) : Turn LockSema Thread Choice → Bool
  | .thread mover _ => mover = current
  | .interruptUp _ => false
  | .interruptTryDown _ => false

/-- How many turns of a run belong to the thread. -/
def ownTurns [DecidableEq Thread] (current : Thread)
    (turns : List (Turn LockSema Thread Choice)) : Nat :=
  turns.countP (Turn.isOf current)

section Steps

variable [Fintype Thread] [DecidableEq Thread] [DecidableEq Condition]
variable {client : Client Thread Condition Point Shared Choice}
variable {machine target : MonitorMachine Thread Condition Point Shared}
variable {shared : Shared} {current : Thread}

/-- The thread stands at the point, the lists and the record are as given. -/
structure Standing
    (client : Client Thread Condition Point Shared Choice) (shared : Shared)
    (current : Thread) (point : MonitorPoint Thread Condition Point)
    (waiters : Condition → List Thread) (history : List (WaitEvent Thread Condition))
    (machine : MonitorMachine Thread Condition Point Shared) : Prop where
  reachable : (monitorSystem client shared).Reachable machine
  here : machine.control current = .running point
  waiters : machine.data.waiters = waiters
  history : machine.data.history = history

/-- Another thread cannot move the holder of the lock, nor touch the lists or
the record. -/
theorem MonitorStep.frame_of_other {other : Thread}
    {point : MonitorPoint Thread Condition Point} (safe : LockSafe (lockImage machine))
    (here : machine.control current = .running point) (holding : point.lockPhase = .holding)
    (different : other ≠ current) (moved : MonitorStep client machine other target) :
    target.control current = machine.control current ∧
      target.data.waiters = machine.data.waiters ∧
      target.data.history = machine.data.history := by
  have owns : ((lockImage machine).phase current).owns = true := by
    rw [lockImage_phase here, lockPhase_running, holding]
    rfl
  have free : lockPhase (machine.control other) = .free := safe.phase_free owns different
  cases moved with
  | innerCompute there => simp [there, MonitorPoint.lockPhase] at free
  | innerRelease there => simp [there, MonitorPoint.lockPhase] at free
  | innerWait there => simp [there, MonitorPoint.lockPhase] at free
  | innerSignal there => simp [there, MonitorPoint.lockPhase] at free
  | innerBroadcast there => simp [there, MonitorPoint.lockPhase] at free
  | acquireStore there => simp [there, MonitorPoint.lockPhase] at free
  | tryAcquireStore there => simp [there, MonitorPoint.lockPhase] at free
  | releaseClear there => simp [there, MonitorPoint.lockPhase] at free
  | releaseUp there => simp [there, MonitorPoint.lockPhase] at free
  | waitInit there => simp [there, MonitorPoint.lockPhase] at free
  | waitPush there => simp [there, MonitorPoint.lockPhase] at free
  | signalNone there => simp [there, MonitorPoint.lockPhase] at free
  | signalPop there => simp [there, MonitorPoint.lockPhase] at free
  | signalUp there => simp [there, MonitorPoint.lockPhase] at free
  | broadcastDone there => simp [there, MonitorPoint.lockPhase] at free
  | broadcastNext there => simp [there, MonitorPoint.lockPhase] at free
  | outerCompute => simp [Ne.symm different, MonitorData.setShared]
  | _ => simp [Ne.symm different]

theorem Standing.keep
    {point : MonitorPoint Thread Condition Point} {waiters : Condition → List Thread}
    {history : List (WaitEvent Thread Condition)}
    (standing : Standing client shared current point waiters history machine)
    (holding : point.lockPhase = .holding) {turn : Turn LockSema Thread Choice}
    (foreign : turn.isOf current = false)
    (moved : (monitorSystem client shared).step machine turn = some target) :
    Standing client shared current point waiters history target := by
  obtain ⟨reachable, here, sameWaiters, sameHistory⟩ := standing
  cases turn with
  | thread other choice =>
      have different : other ≠ current := by
        simpa [Turn.isOf] using foreign
      obtain ⟨control, lists, record⟩ :=
        MonitorStep.frame_of_other (lockSafe_of_reachable reachable) here
          holding different (.of_thread moved)
      exact ⟨reachable.step moved, control.trans here, lists.trans sameWaiters,
          record.trans sameHistory⟩
  | interruptUp sema =>
      simp [monitorSystem, Machine.step, monitorCode] at moved
  | interruptTryDown sema =>
      simp [monitorSystem, Machine.step, monitorCode] at moved

omit [Fintype Thread] in
/-- A turn of a standing thread performs the action of its point. -/
theorem Standing.own
    {point : MonitorPoint Thread Condition Point} {waiters : Condition → List Thread}
    {history : List (WaitEvent Thread Condition)}
    (standing : Standing client shared current point waiters history machine)
    {turn : Turn LockSema Thread Choice} (mine : turn.isOf current = true)
    (moved : (monitorSystem client shared).step machine turn = some target) :
    (monitorSystem client shared).Reachable target ∧
      ∃ choice,
        target =
          machine.perform current
            (monitorAction client current point machine.data choice) := by
  refine ⟨standing.reachable.step moved, ?_⟩
  cases turn with
  | thread mover choice =>
      obtain rfl : mover = current := by
        simpa [Turn.isOf] using mine
      refine ⟨choice, ?_⟩
      simp only [monitorSystem, Machine.step, standing.here, Option.some.injEq] at moved
      exact moved.symm
  | interruptUp sema =>
      simp [Turn.isOf] at mine
  | interruptTryDown sema =>
      simp [Turn.isOf] at mine

theorem Standing.held
    {point : MonitorPoint Thread Condition Point} {waiters : Condition → List Thread}
    {history : List (WaitEvent Thread Condition)}
    (standing : Standing client shared current point waiters history machine)
    (holding : point.lockPhase = .holding) :
    lockHeldByCurrentThread machine.data current = true := by
  rw [lockHeldByCurrentThread_iff]
  apply ((lockSafe_of_reachable standing.reachable).holder current).mpr
  rw [lockImage_phase standing.here]
  exact holding

section OwnTurns

variable {condition : Condition} {next : Point} {waiter : Thread}
variable {caller : SignalCaller Condition Point}
variable {waiters : Condition → List Thread} {rest : List Thread}
variable {history : List (WaitEvent Thread Condition)}
variable {turn : Turn LockSema Thread Choice}

theorem Standing.signalNone
    (standing :
      Standing client shared current (.condSignal condition caller) waiters history machine)
    (empty : waiters condition = []) (mine : turn.isOf current = true)
    (moved : (monitorSystem client shared).step machine turn = some target) :
    Standing client shared current caller.signalled waiters history
      target := by
  obtain ⟨reachable, choice, rfl⟩ := standing.own mine moved
  have held := standing.held rfl
  have queue : machine.data.waiters condition = [] := by
    rw [standing.waiters, empty]
  refine ⟨reachable, ?_, ?_, ?_⟩
  · simp [monitorAction, held, queue, perform]
  · simp [monitorAction, held, queue, perform, standing.waiters]
  · simp [monitorAction, held, queue, perform, standing.history]

theorem Standing.signalPop
    (standing :
      Standing client shared current (.condSignal condition caller) waiters history machine)
    (queued : waiters condition = waiter :: rest) (mine : turn.isOf current = true)
    (moved : (monitorSystem client shared).step machine turn = some target) :
    Standing client shared current (.condSignalUp waiter caller)
      (Function.update waiters condition rest)
      (history ++ [.released condition waiter]) target := by
  obtain ⟨reachable, choice, rfl⟩ := standing.own mine moved
  have held := standing.held rfl
  have queue : machine.data.waiters condition = waiter :: rest := by
    rw [standing.waiters, queued]
  refine ⟨reachable, ?_, ?_, ?_⟩
  · simp [monitorAction, held, queue, perform]
  · simp [monitorAction, held, queue, perform, MonitorData.record,
      MonitorData.setWaiters, standing.waiters]
  · simp [monitorAction, held, queue, perform, MonitorData.record,
      MonitorData.setWaiters, standing.history]

omit [Fintype Thread] in
theorem Standing.signalUp
    (standing :
      Standing client shared current (.condSignalUp waiter caller) waiters history machine)
    (mine : turn.isOf current = true)
    (moved : (monitorSystem client shared).step machine turn = some target) :
    Standing client shared current caller.signalled waiters history
      target := by
  obtain ⟨reachable, choice, rfl⟩ := standing.own mine moved
  refine ⟨reachable, ?_, ?_, ?_⟩
  · simp [monitorAction, perform]
  · simp [monitorAction, perform, standing.waiters]
  · simp [monitorAction, perform, standing.history]

omit [Fintype Thread] in
theorem Standing.broadcastDone
    (standing :
      Standing client shared current (.condBroadcast condition next) waiters history machine)
    (empty : waiters condition = []) (mine : turn.isOf current = true)
    (moved : (monitorSystem client shared).step machine turn = some target) :
    Standing client shared current (.inside next) waiters history
      target := by
  obtain ⟨reachable, choice, rfl⟩ := standing.own mine moved
  have queue : machine.data.waiters condition = [] := by
    rw [standing.waiters, empty]
  refine ⟨reachable, ?_, ?_, ?_⟩
  · simp [monitorAction, queue, perform]
  · simp [monitorAction, queue, perform, standing.waiters]
  · simp [monitorAction, queue, perform, standing.history]

omit [Fintype Thread] in
theorem Standing.broadcastNext
    (standing :
      Standing client shared current (.condBroadcast condition next) waiters history machine)
    (queued : waiters condition ≠ []) (mine : turn.isOf current = true)
    (moved : (monitorSystem client shared).step machine turn = some target) :
    Standing client shared current
      (.condSignal condition (.condBroadcast condition next)) waiters history
      target := by
  obtain ⟨reachable, choice, rfl⟩ := standing.own mine moved
  have queue : (machine.data.waiters condition).isEmpty = false := by
    simpa [standing.waiters] using queued
  refine ⟨reachable, ?_, ?_, ?_⟩
  · simp [monitorAction, queue, perform]
  · simpa [monitorAction, queue, perform] using standing.waiters
  · simpa [monitorAction, queue, perform] using standing.history

end OwnTurns

/-- The stages of one `cond_signal` that finds a waiter, by the number of
steps left. -/
inductive Signalling
    (client : Client Thread Condition Point Shared Choice) (shared : Shared)
    (current : Thread) (condition : Condition) (caller : SignalCaller Condition Point)
    (waiters : Condition → List Thread) (waiter : Thread) (rest : List Thread)
    (history : List (WaitEvent Thread Condition)) :
    Nat → MonitorMachine Thread Condition Point Shared → Prop
  | called {machine : MonitorMachine Thread Condition Point Shared} :
      Standing client shared current (.condSignal condition caller) waiters history machine →
      Signalling client shared current condition caller waiters waiter rest
        history 2 machine
  | popped {machine : MonitorMachine Thread Condition Point Shared} :
      Standing client shared current (.condSignalUp waiter caller)
        (Function.update waiters condition rest)
        (history ++ [.released condition waiter]) machine →
      Signalling client shared current condition caller waiters waiter rest
        history 1 machine
  | signalled {machine : MonitorMachine Thread Condition Point Shared} :
      Standing client shared current caller.signalled
        (Function.update waiters condition rest)
        (history ++ [.released condition waiter]) machine →
      Signalling client shared current condition caller waiters waiter rest history 0 machine

/-- After its two steps `cond_signal` has taken the first waiter off the list
and nothing else has happened to the lists or the record, whatever the other
threads did in the meantime. -/
theorem signal_run
    {condition : Condition} {caller : SignalCaller Condition Point}
    {waiters : Condition → List Thread} {waiter : Thread}
    {rest : List Thread} {history : List (WaitEvent Thread Condition)}
    (queued : waiters condition = waiter :: rest)
    (standing :
      Standing client shared current (.condSignal condition caller) waiters history machine)
    {turns : List (Turn LockSema Thread Choice)}
    (execution : (monitorSystem client shared).run machine turns = some target)
    (two : ownTurns current turns = 2) :
    Standing client shared current caller.signalled
      (Function.update waiters condition rest)
      (history ++ [.released condition waiter]) target := by
  have finished :
      Signalling client shared current condition caller waiters waiter rest
        history 0 target := by
    refine TransitionSystem.run_countdown (Turn.isOf current) _ ?_ ?_
      (by rw [← ownTurns, two]; exact .called standing) execution
    · intro remaining machine turn target mine signalling moved
      cases signalling with
      | called standing => exact .popped (standing.signalPop queued mine moved)
      | popped standing => exact .signalled (standing.signalUp mine moved)
    · intro remaining machine turn target foreign signalling moved
      cases signalling with
      | called standing => exact .called (standing.keep rfl foreign moved)
      | popped standing => exact .popped (standing.keep rfl foreign moved)
      | signalled standing =>
          exact .signalled (standing.keep (lockPhase_signalled caller) foreign moved)
  cases finished with
  | signalled standing => exact standing

/-- The stages of a `cond_broadcast`, by the number of steps left.  The
waiters released so far and those still on the list make up the list that the
broadcast found. -/
inductive Broadcasting
    (client : Client Thread Condition Point Shared Choice) (shared : Shared)
    (current : Thread) (condition : Condition) (next : Point)
    (waiters : Condition → List Thread) (history : List (WaitEvent Thread Condition)) :
    Nat → MonitorMachine Thread Condition Point Shared → Prop
  | test {released pending : List Thread}
      {machine : MonitorMachine Thread Condition Point Shared} :
      waiters condition = released ++ pending →
      Standing client shared current (.condBroadcast condition next)
        (Function.update waiters condition pending)
        (history ++ released.map (.released condition)) machine →
      Broadcasting client shared current condition next waiters history
        (3 * pending.length + 1) machine
  | signal {waiter : Thread} {released pending : List Thread}
      {machine : MonitorMachine Thread Condition Point Shared} :
      waiters condition = released ++ waiter :: pending →
      Standing client shared current
        (.condSignal condition (.condBroadcast condition next))
        (Function.update waiters condition (waiter :: pending))
        (history ++ released.map (.released condition)) machine →
      Broadcasting client shared current condition next waiters history
        (3 * pending.length + 3) machine
  | up {waiter : Thread} {released pending : List Thread}
      {machine : MonitorMachine Thread Condition Point Shared} :
      waiters condition = released ++ pending →
      Standing client shared current
        (.condSignalUp waiter (.condBroadcast condition next))
        (Function.update waiters condition pending)
        (history ++ released.map (.released condition)) machine →
      Broadcasting client shared current condition next waiters history
        (3 * pending.length + 2) machine
  | done {machine : MonitorMachine Thread Condition Point Shared} :
      Standing client shared current (.inside next)
        (Function.update waiters condition [])
        (history ++ (waiters condition).map (.released condition)) machine →
      Broadcasting client shared current condition next waiters history 0 machine

section Broadcast

variable {condition : Condition} {next : Point}
variable {waiters : Condition → List Thread}
variable {history : List (WaitEvent Thread Condition)}
variable {turn : Turn LockSema Thread Choice} {remaining : Nat}

theorem Broadcasting.keep
    (broadcasting :
      Broadcasting client shared current condition next waiters history remaining machine)
    (foreign : turn.isOf current = false)
    (moved : (monitorSystem client shared).step machine turn = some target) :
    Broadcasting client shared current condition next waiters history
      remaining target := by
  cases broadcasting with
  | test split standing => exact .test split (standing.keep rfl foreign moved)
  | signal split standing =>
      exact .signal split (standing.keep rfl foreign moved)
  | up split standing => exact .up split (standing.keep rfl foreign moved)
  | done standing => exact .done (standing.keep rfl foreign moved)

theorem Broadcasting.advance
    (broadcasting :
      Broadcasting client shared current condition next waiters history (remaining + 1) machine)
    (mine : turn.isOf current = true)
    (moved : (monitorSystem client shared).step machine turn = some target) :
    Broadcasting client shared current condition next waiters history
      remaining target := by
  generalize steps : remaining + 1 = left at broadcasting
  cases broadcasting with
  | @test released pending _ split standing =>
      cases pending with
      | nil =>
          obtain rfl : remaining = 0 := by simpa using steps
          rw [List.append_nil] at split
          subst split
          exact .done (standing.broadcastDone (by simp) mine moved)
      | cons waiter pending =>
          obtain rfl : remaining = 3 * pending.length + 3 := by
            simp only [List.length_cons] at steps
            omega
          exact .signal split (standing.broadcastNext (by simp) mine moved)
  | @signal waiter released pending _ split standing =>
      obtain rfl : remaining = 3 * pending.length + 2 := by omega
      have popped := standing.signalPop (Function.update_self condition _ waiters) mine moved
      rw [Function.update_idem, List.append_assoc,
        ← List.map_singleton, ← List.map_append] at popped
      exact .up (by simpa using split) popped
  | @up waiter released pending _ split standing =>
      obtain rfl : remaining = 3 * pending.length + 1 := by omega
      exact .test split (standing.signalUp mine moved)
  | done => omega

/-- After three steps for each waiter and one more, `cond_broadcast` has
released exactly the waiters that it found, in their order, whatever the other
threads did in the meantime. -/
theorem broadcast_run
    (standing :
      Standing client shared current (.condBroadcast condition next) waiters history machine)
    {turns : List (Turn LockSema Thread Choice)}
    (execution : (monitorSystem client shared).run machine turns = some target)
    (steps : ownTurns current turns = 3 * (waiters condition).length + 1) :
    Standing client shared current (.inside next)
      (Function.update waiters condition [])
      (history ++ (waiters condition).map (.released condition)) target := by
  have start :
      Broadcasting client shared current condition next waiters history
        (3 * (waiters condition).length + 1) machine := by
    refine .test (List.nil_append _).symm ?_
    simpa using standing
  have finished :
      Broadcasting client shared current condition next waiters history 0
        target :=
    TransitionSystem.run_countdown (Turn.isOf current) _
      (fun _ _ _ _ mine broadcasting moved => broadcasting.advance mine moved)
      (fun _ _ _ _ foreign broadcasting moved =>
        broadcasting.keep foreign moved)
      (by rw [← ownTurns, steps]; exact start) execution
  cases finished with
  | done standing => exact standing

end Broadcast

/-- The thread is in `cond_wait`, past its `list_push_back`. -/
def inCondWait (condition : Condition) (control : MonitorControl Thread Condition Point) : Prop :=
  (waitStage control).on condition

instance (condition : Condition)
    (control : MonitorControl Thread Condition Point) :
    Decidable (inCondWait condition control) :=
  inferInstanceAs (Decidable ((waitStage control).on condition))

/-- The thread is in `cond_wait` and its down has not completed. -/
def beforeWakeup (condition : Condition) (control : MonitorControl Thread Condition Point) : Prop :=
  waitStage control = .queued condition

/-- The thread has been released from the wait that it is in: one more
release than returns is addressed to it. -/
def releasedFrom (history : List (WaitEvent Thread Condition))
    (condition : Condition) (thread : Thread) : Prop :=
  history.count (.released condition thread) = history.count (.returned condition thread) + 1

/-- What the condition operations promise in every state. -/
structure ConditionGuarantee
    (client : Client Thread Condition Point Shared Choice) (shared : Shared)
    (machine : MonitorMachine Thread Condition Point Shared) : Prop where
  /-- Waiters are released in the order in which they joined the list. -/
  order : ∀ condition,
      WaitEvent.waitedOn condition machine.data.history =
        WaitEvent.releasedOn condition machine.data.history ++ machine.data.waiters condition
  /-- The elements on the list are those of the threads in `cond_wait` that
  have not been released, each once and with an empty semaphore. -/
  listed : ∀ condition thread,
      thread ∈ machine.data.waiters condition ↔
        inCondWait condition (machine.control thread) ∧
          ¬ releasedFrom machine.data.history condition thread
  listedOnce : ∀ condition, (machine.data.waiters condition).Nodup
  listedValue :
    ∀ condition thread, thread ∈ machine.data.waiters condition →
      (machine.sema (.frame thread)).value = 0
  /-- Between its entry and its `list_push_back` the waiter has the lock, so
  nobody can signal. -/
  entering : ∀ condition next thread,
      machine.control thread = .running (.condWait condition next) ∨
        machine.control thread = .running (.condWaitPush condition next) →
      machine.data.holder = some thread ∧ ∀ here, thread ∉ machine.data.waiters here
  /-- A release that is not yet consumed is in the semaphore of its waiter, or
  its signaller is about to put it there. -/
  kept : ∀ condition thread,
      beforeWakeup condition (machine.control thread) →
      releasedFrom machine.data.history condition thread →
      (machine.sema (.frame thread)).value = 1 ∧
          Awake (machine.control thread) ∨
        ∃ signaller caller, machine.control signaller = .running (.condSignalUp thread caller)
  /-- `cond_signal` releases the first waiter, if there is one, and nobody
  else. -/
  signal : ∀ current condition caller waiter rest turns target,
      machine.control current = .running (.condSignal condition caller) →
      machine.data.waiters condition = waiter :: rest →
      (monitorSystem client shared).run machine turns = some target →
      ownTurns current turns = 2 →
      target.control current = .running caller.signalled ∧
        target.data.waiters = Function.update machine.data.waiters condition rest ∧
        target.data.history = machine.data.history ++ [.released condition waiter]
  signalNobody : ∀ current condition caller choice target,
      machine.control current = .running (.condSignal condition caller) →
      machine.data.waiters condition = [] →
      (monitorSystem client shared).step machine (.thread current choice) = some target →
      target.control current = .running caller.signalled ∧
        target.data.waiters = machine.data.waiters ∧
        target.data.history = machine.data.history
  /-- `cond_broadcast` releases the threads on the list. -/
  broadcast : ∀ current condition next turns target,
      machine.control current = .running (.condBroadcast condition next) →
      (monitorSystem client shared).run machine turns = some target →
      ownTurns current turns = 3 * (machine.data.waiters condition).length + 1 →
      target.control current = .running (.inside next) ∧
        target.data.waiters = Function.update machine.data.waiters condition [] ∧
        target.data.history =
          machine.data.history ++ (machine.data.waiters condition).map (.released condition)
  /-- A thread that returns from `cond_wait` has been released for this wait
  and has the lock. -/
  returned : ∀ current condition next choice target,
      machine.control current = .running (.lockAcquired (.condWait condition next)) →
      (monitorSystem client shared).step machine (.thread current choice) = some target →
      releasedFrom machine.data.history condition current ∧
        target.control current = .running (.inside next) ∧
        target.data.holder = some current ∧
        target.data.history = machine.data.history ++ [.returned condition current]

omit [Fintype Thread] in
/-- Whether a thread in `cond_wait` is on the list can be read off the record
of releases and returns. -/
theorem listed_iff (safe : WaitSafe (waitImage machine)) (condition : Condition) (thread : Thread) :
    thread ∈ machine.data.waiters condition ↔
      inCondWait condition (machine.control thread) ∧
        ¬ releasedFrom machine.data.history condition thread := by
  have released := safe.released condition thread
  change machine.data.history.count _ = machine.data.history.count _ +
    (if inCondWait condition (machine.control thread) ∧
      thread ∉ machine.data.waiters condition then 1 else 0) at released
  constructor
  · intro member
    have queued := (safe.listed condition thread member).1
    refine ⟨Or.inl queued, ?_⟩
    rw [if_neg (by simp [member])] at released
    unfold releasedFrom
    omega
  · rintro ⟨waiting, unreleased⟩
    by_contra absent
    rw [if_pos ⟨waiting, absent⟩] at released
    exact unreleased released

/-- A release addressed to a waiter that has not completed its down is held by
the waiter's semaphore or by its signaller. -/
theorem release_kept (shaped : WellShaped machine) (safe : WaitSafe (waitImage machine))
    {condition : Condition} {thread : Thread}
    (before : beforeWakeup condition (machine.control thread))
    (released : releasedFrom machine.data.history condition thread) :
    (machine.sema (.frame thread)).value = 1 ∧
        Awake (machine.control thread) ∨
      ∃ signaller caller, machine.control signaller = .running (.condSignalUp thread caller) := by
  by_cases aimed : ∃ signaller, (waitImage machine).target signaller = some thread
  · right
    obtain ⟨signaller, aimed⟩ := aimed
    change signalTarget (machine.control signaller) = some thread at aimed
    refine ⟨signaller, ?_⟩
    cases there : machine.control signaller with
    | running point =>
        rw [there] at aimed
        cases point <;> simp_all [signalTarget]
    | _ =>
        rw [there] at aimed
        simp [signalTarget] at aimed
  · left
    have absent : thread ∉ machine.data.waiters condition :=
      fun member => ((listed_iff safe condition thread).mp member).2 released
    have one : (machine.sema (.frame thread)).value = 1 :=
      safe.posted condition thread before absent (fun signaller here => aimed ⟨signaller, here⟩)
    refine ⟨one, fun id next asleep => ?_⟩
    -- a waiter asleep on its own semaphore would find no unit there
    cases id with
    | frame owner =>
        have zero : (machine.sema (.frame thread)).value = 0 := by
          refine (safe.asleep thread ?_).1
          show frameAsleep (machine.control thread) = true
          rw [asleep]
          rfl
        omega
    | shared sema =>
        obtain ⟨caller, rfl⟩ : ∃ caller, next = .lockAcquired caller := by
          have shape := shaped thread
          rw [asleep] at shape
          exact shape
        rw [asleep] at before
        cases caller <;> simp [beforeWakeup, waitStage, MonitorPoint.waitStage] at before

/-- No signal is lost and none is invented, in every state that any
interleaving of the clients of one lock and its conditions reaches. -/
theorem condition_guarantee
    (client : Client Thread Condition Point Shared Choice) (shared : Shared)
    (reachable : (monitorSystem client shared).Reachable machine) :
    ConditionGuarantee client shared machine := by
  have lockSafe := lockSafe_of_reachable reachable
  have safe := waitSafe_of_reachable reachable
  have standing :
      ∀ {current point}, machine.control current = .running point →
        Standing client shared current point machine.data.waiters
          machine.data.history machine :=
    fun here => ⟨reachable, here, rfl, rfl⟩
  constructor
  case order => exact safe.order
  case listed => exact listed_iff safe
  case listedOnce => exact safe.nodup
  case listedValue =>
    intro condition thread member
    exact (safe.listed condition thread member).2.1
  case entering =>
    intro condition next thread here
    have holding : lockPhase (machine.control thread) = .holding := by
      rcases here with here | here <;> rw [here] <;> rfl
    have out : waitStage (machine.control thread) = .none := by
      rcases here with here | here <;> rw [here] <;> rfl
    refine ⟨(lockSafe.holder thread).mpr holding, ?_⟩
    exact (safe.not_listed_of_idle (fun here => by simp [waitImage, out])).1
  case kept =>
    intro condition thread
    exact release_kept (.of_reachable reachable) safe
  case signal =>
    intro current condition caller waiter rest turns target here queued execution two
    have after := signal_run queued (standing here) execution two
    exact ⟨after.here, after.waiters, after.history⟩
  case signalNobody =>
    intro current condition caller choice target here empty moved
    have after := (standing here).signalNone empty (by simp [Turn.isOf]) moved
    exact ⟨after.here, after.waiters, after.history⟩
  case broadcast =>
    intro current condition next turns target here execution steps
    have after := broadcast_run (standing here) execution steps
    exact ⟨after.here, after.waiters, after.history⟩
  case returned =>
    intro current condition next choice target here moved
    have woken : (waitImage machine).stage current = .woken condition := waitStage_of_here here
    have absent : current ∉ (waitImage machine).waiters condition :=
      (safe.not_listed_of_idle (by simp [woken])).1 condition
    have released := safe.released condition current
    rw [if_pos ⟨Or.inr woken, absent⟩] at released
    simp only [monitorSystem, Machine.step, here, Option.some.injEq] at moved
    subst moved
    refine ⟨released, ?_, ?_, ?_⟩ <;>
      simp [monitorCode, monitorAction, perform, lockAcquireStore,
        LockCaller.acquired, MonitorData.setHolder, MonitorData.record]

end Steps

/-- The client that calls whatever it chooses to call. -/
def anyCaller : Client (Fin 2) Unit Unit Unit (InnerCall Unit Unit Unit) where
  start _ := ()
  outer _ _ _ _ := .lockAcquire ()
  inner _ _ _ call := call

/-- A thread waits; before it sleeps, another takes the lock and
broadcasts. -/
def signalInWindow (waiter signaller : Thread) :
    List (Turn LockSema Thread (InnerCall Unit Unit Unit)) :=
  List.replicate 9 (.thread waiter (.condWait () ())) ++
    List.replicate 9 (.thread signaller (.condBroadcast () ()))

theorem condition_guarantee_window : ∃ machine,
      (monitorSystem anyCaller ()).run (monitorInitial anyCaller ())
          (signalInWindow 0 1) = some machine ∧
        machine.control 0 = .running (.condWaitDown () ()) ∧
        (machine.sema (.frame 0)).value = 1 ∧
        ConditionGuarantee anyCaller () machine := by
  obtain ⟨machine, execution, waiting, unit⟩ : ∃ machine,
        (monitorSystem anyCaller ()).run (monitorInitial anyCaller ())
            (signalInWindow 0 1) = some machine ∧
          machine.control 0 = .running (.condWaitDown () ()) ∧
          (machine.sema (.frame 0)).value = 1 :=
    ⟨_, rfl, rfl, rfl⟩
  exact ⟨machine, execution, waiting, unit,
      condition_guarantee anyCaller () (.of_run (.initial rfl) execution)⟩

end CS162.Threads

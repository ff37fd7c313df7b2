import CS162.Foundation.ConditionProtocol
import CS162.Threads.Interleaving

/-!
# Locks and condition variables

The lock and condition functions of `threads/synch.c` as thread code over
semaphores: one lock, any number of conditions used with it, and an arbitrary
client.  A control point stands before each access to shared memory and
before each call of a semaphore operation, so a thread can be preempted
between any two of them.

The client calls `lock_acquire` and `lock_try_acquire` only while it is
outside, and `lock_release` and the condition operations only while it is
inside, that is, between a successful acquire and its release.
-/

namespace CS162.Threads

open CS162.Foundation

/-- What client code may do while it does not hold the lock. -/
inductive OuterCall (Point Shared : Type) where
  | compute (next : Point) (shared : Shared)
  | lockAcquire (next : Point)
  | lockTryAcquire (success failure : Point)

/-- What client code may do while it holds the lock. -/
inductive InnerCall (Condition Point Shared : Type) where
  | compute (next : Point) (shared : Shared)
  | lockRelease (next : Point)
  | condWait (condition : Condition) (next : Point)
  | condSignal (condition : Condition) (next : Point)
  | condBroadcast (condition : Condition) (next : Point)

/-- The code that uses the lock and its conditions. -/
structure Client (Thread Condition Point Shared Choice : Type) where
  start : Thread → Point
  outer : Thread → Point → Shared → Choice → OuterCall Point Shared
  inner : Thread → Point → Shared → Choice → InnerCall Condition Point Shared

/-- The caller of `lock_acquire` and `lock_release`: the client, or
`cond_wait` on its behalf. -/
inductive LockCaller (Condition Point : Type) where
  | client (next : Point)
  | condWait (condition : Condition) (next : Point)
  deriving DecidableEq, Repr

/-- The caller of `cond_signal`: the client, or the loop of
`cond_broadcast`. -/
inductive SignalCaller (Condition Point : Type) where
  | client (next : Point)
  | condBroadcast (condition : Condition) (next : Point)
  deriving DecidableEq, Repr

/-- The control points of the lock and condition functions. -/
inductive MonitorPoint (Thread Condition Point : Type) where
  /-- Client code, not holding the lock. -/
  | outside (point : Point)
  /-- Client code, holding the lock. -/
  | inside (point : Point)
  /-- `lock_acquire`, before its `ASSERT`. -/
  | lockAcquire (caller : LockCaller Condition Point)
  /-- `lock_acquire`, before `lock->holder = thread_current()`. -/
  | lockAcquired (caller : LockCaller Condition Point)
  /-- `lock_try_acquire`, before its `ASSERT`. -/
  | lockTryAcquire (success failure : Point)
  /-- `lock_try_acquire`, before `lock->holder = thread_current()`. -/
  | lockTryAcquired (success : Point)
  /-- `lock_release`, before its `ASSERT` and `lock->holder = NULL`. -/
  | lockRelease (caller : LockCaller Condition Point)
  /-- `lock_release`, before `sema_up(&lock->semaphore)`. -/
  | lockReleased (caller : LockCaller Condition Point)
  /-- `cond_wait`, before its `ASSERT` and `sema_init`. -/
  | condWait (condition : Condition) (next : Point)
  /-- `cond_wait`, before `list_push_back`. -/
  | condWaitPush (condition : Condition) (next : Point)
  /-- `cond_wait`, before `sema_down(&waiter.semaphore)`. -/
  | condWaitDown (condition : Condition) (next : Point)
  /-- `cond_signal`, before its `ASSERT` and the test of the list. -/
  | condSignal (condition : Condition) (caller : SignalCaller Condition Point)
  /-- `cond_signal`, before `sema_up` on the element it took off the list. -/
  | condSignalUp (waiter : Thread) (caller : SignalCaller Condition Point)
  /-- `cond_broadcast`, before the test of its loop. -/
  | condBroadcast (condition : Condition) (next : Point)
  deriving DecidableEq, Repr

/-- `lock->holder`, the waiter lists and the client's own data.  An element of
`cond->waiters` is named by the thread whose stack frame it lives in.  The
history records when an element joins a list, when `cond_signal` takes it off
and when its `cond_wait` returns; no code reads it. -/
structure MonitorData (Thread Condition Shared : Type) where
  holder : Option Thread
  waiters : Condition → List Thread
  shared : Shared
  history : List (WaitEvent Thread Condition)

namespace MonitorData

variable {Thread Condition Shared : Type}

def setHolder (data : MonitorData Thread Condition Shared)
    (holder : Option Thread) : MonitorData Thread Condition Shared :=
  { data with holder := holder }

def setWaiters [DecidableEq Condition] (data : MonitorData Thread Condition Shared)
    (condition : Condition) (waiters : List Thread) :
    MonitorData Thread Condition Shared :=
  { data with waiters := Function.update data.waiters condition waiters }

def setShared (data : MonitorData Thread Condition Shared)
    (shared : Shared) : MonitorData Thread Condition Shared :=
  { data with shared := shared }

def record (data : MonitorData Thread Condition Shared) (event : WaitEvent Thread Condition) :
    MonitorData Thread Condition Shared :=
  { data with history := data.history ++ [event] }

end MonitorData

/-- The only shared semaphore is the one of the lock. -/
inductive LockSema where
  | lock
  deriving DecidableEq, Repr

section MonitorCode

variable {Thread Condition Point Shared Choice : Type}
variable [DecidableEq Thread] [DecidableEq Condition]

/-- Actions of a monitor. -/
abbrev MonitorAction (Thread Condition Point Shared : Type) :=
  Action LockSema Thread (MonitorPoint Thread Condition Point) (MonitorData Thread Condition Shared)

/-- Where a thread of a monitor is. -/
abbrev MonitorControl (Thread Condition Point : Type) :=
  Control LockSema Thread (MonitorPoint Thread Condition Point)

/-- A machine that runs the monitor code. -/
abbrev MonitorMachine (Thread Condition Point Shared : Type) :=
  Machine LockSema Thread (MonitorPoint Thread Condition Point)
    (MonitorData Thread Condition Shared)

/-- `lock_held_by_current_thread`. -/
def lockHeldByCurrentThread
    (data : MonitorData Thread Condition Shared) (current : Thread) : Bool :=
  data.holder == some current

/-- The point after `lock_acquire` returns. -/
def LockCaller.acquired : LockCaller Condition Point → MonitorPoint Thread Condition Point
  | .client next => .inside next
  | .condWait _ next => .inside next

/-- The point after `lock_release` returns. -/
def LockCaller.released : LockCaller Condition Point → MonitorPoint Thread Condition Point
  | .client next => .outside next
  | .condWait condition next => .condWaitDown condition next

/-- The point after `cond_signal` returns. -/
def SignalCaller.signalled : SignalCaller Condition Point → MonitorPoint Thread Condition Point
  | .client next => .inside next
  | .condBroadcast condition next => .condBroadcast condition next

/-- `lock->holder = thread_current()`, the last action of `lock_acquire`.
Where `cond_wait` called it, `cond_wait` returns as well. -/
def lockAcquireStore (data : MonitorData Thread Condition Shared) (current : Thread) :
    LockCaller Condition Point → MonitorData Thread Condition Shared
  | .client _ => data.setHolder (some current)
  | .condWait condition _ =>
      (data.setHolder (some current)).record (.returned condition current)

/-- The next action of an outside client. -/
def outerAction (data : MonitorData Thread Condition Shared) :
    OuterCall Point Shared → MonitorAction Thread Condition Point Shared
  | .compute next shared => .compute (.outside next) (data.setShared shared)
  | .lockAcquire next => .compute (.lockAcquire (.client next)) data
  | .lockTryAcquire success failure =>
      .compute (.lockTryAcquire success failure) data

/-- The next action of a client that holds the lock. -/
def innerAction (data : MonitorData Thread Condition Shared) :
    InnerCall Condition Point Shared →
      MonitorAction Thread Condition Point Shared
  | .compute next shared => .compute (.inside next) (data.setShared shared)
  | .lockRelease next => .compute (.lockRelease (.client next)) data
  | .condWait condition next => .compute (.condWait condition next) data
  | .condSignal condition next =>
      .compute (.condSignal condition (.client next)) data
  | .condBroadcast condition next =>
      .compute (.condBroadcast condition next) data

/-- The lock and condition functions. -/
def monitorAction
    (client : Client Thread Condition Point Shared Choice)
    (current : Thread) (point : MonitorPoint Thread Condition Point)
    (data : MonitorData Thread Condition Shared) (choice : Choice) :
    MonitorAction Thread Condition Point Shared :=
  match point with
  | .outside here =>
      outerAction data (client.outer current here data.shared choice)
  | .inside here =>
      innerAction data (client.inner current here data.shared choice)
  | .lockAcquire caller =>
      if lockHeldByCurrentThread data current then .assertFail
      else .semaDown .lock (.lockAcquired caller)
  | .lockAcquired caller =>
      .compute caller.acquired (lockAcquireStore data current caller)
  | .lockTryAcquire success failure =>
      if lockHeldByCurrentThread data current then .assertFail
      else .semaTryDown .lock (.lockTryAcquired success) (.outside failure)
  | .lockTryAcquired success =>
      .compute (.inside success) (data.setHolder (some current))
  | .lockRelease caller =>
      if lockHeldByCurrentThread data current then
        .compute (.lockReleased caller) (data.setHolder none)
      else .assertFail
  | .lockReleased caller =>
      .semaUp (.shared .lock) caller.released
  | .condWait condition next =>
      if lockHeldByCurrentThread data current then
        .semaInit 0 (.condWaitPush condition next)
      else .assertFail
  | .condWaitPush condition next =>
      .compute (.lockRelease (.condWait condition next)) <|
        (data.setWaiters condition
          (data.waiters condition ++ [current])).record
            (.waited condition current)
  | .condWaitDown condition next =>
      .semaDownFrame (.lockAcquire (.condWait condition next))
  | .condSignal condition caller =>
      if lockHeldByCurrentThread data current then
        match data.waiters condition with
        | [] => .compute caller.signalled data
        | waiter :: rest =>
            .compute (.condSignalUp waiter caller) <|
              (data.setWaiters condition rest).record (.released condition waiter)
      else .assertFail
  | .condSignalUp waiter caller =>
      .semaUp (.frame waiter) caller.signalled
  | .condBroadcast condition next =>
      if (data.waiters condition).isEmpty then .compute (.inside next) data
      else .compute (.condSignal condition (.condBroadcast condition next)) data

/-- The monitor as thread code.  Interrupt handlers do not touch locks. -/
def monitorCode (client : Client Thread Condition Point Shared Choice) :
    Code LockSema Thread (MonitorPoint Thread Condition Point)
      (MonitorData Thread Condition Shared) Choice where
  action := monitorAction client
  interrupt := fun _ => false

/-- `lock_init` and `cond_init` have run and no thread has started. -/
def monitorInitial (client : Client Thread Condition Point Shared Choice)
    (shared : Shared) : MonitorMachine Thread Condition Point Shared where
  sema
    | .shared .lock => .semaInit 1
    | .frame _ => .semaInit 0
  control thread := .running (.outside (client.start thread))
  data :=
    { holder := none
      waiters := fun _ => []
      shared := shared
      history := [] }

/-- All runs of a client of the monitor from the given data. -/
def monitorSystem (client : Client Thread Condition Point Shared Choice) (shared : Shared) :
    TransitionSystem
      (MonitorMachine Thread Condition Point Shared)
      (Turn LockSema Thread Choice) where
  initial machine := machine = monitorInitial client shared
  step := Machine.step (monitorCode client)

end MonitorCode

end CS162.Threads

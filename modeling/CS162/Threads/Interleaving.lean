import CS162.Foundation.TransitionSystem
import CS162.Threads.Semaphore

/-!
# Threads interleaved over semaphores

A machine for thread code whose only means of synchronisation are the
semaphores of `threads/synch.c`.  The code is a function from a control point
to the next atomic action; every thread that is not asleep may move at any
moment, which covers every preemption.  A thread sleeps on a semaphore inside
the loop of `sema_down`, is made runnable by `sema_up`, and then tests the
value again.

A semaphore is either shared or lives in the stack frame of one thread, as
the one in `cond_wait` does.  The owner of a frame is the only thread that
initialises and downs the semaphore in it.
-/

namespace CS162.Threads

open CS162.Foundation

universe u

/-- The semaphores of a program. -/
inductive SemaId (Shared Thread : Type) where
  | shared (sema : Shared)
  | frame (owner : Thread)
  deriving DecidableEq, Repr

/-- One atomic action of thread code and the control point after it. -/
inductive Action (Shared Thread Point Data : Type) where
  | compute (next : Point) (data : Data)
  | semaInit (value : Nat) (next : Point)
  | semaDown (sema : Shared) (next : Point)
  | semaDownFrame (next : Point)
  | semaTryDown (sema : Shared) (success failure : Point)
  | semaUp (sema : SemaId Shared Thread) (next : Point)
  | assertFail

/-- Thread code.  The choice resolves what the code leaves open, and
`interrupt` says which semaphores interrupt handlers may up and try to
down. -/
structure Code (Shared Thread Point Data Choice : Type) where
  action : Thread → Point → Data → Choice → Action Shared Thread Point Data
  interrupt : Shared → Bool

/-- Where a thread is. -/
inductive Control (Shared Thread Point : Type) where
  /-- In its own code, before the action of the point. -/
  | running (point : Point)
  /-- In the loop of `sema_down`, before the test of the value. -/
  | semaDown (sema : SemaId Shared Thread) (next : Point)
  /-- Blocked in the loop of `sema_down`. -/
  | asleep (sema : SemaId Shared Thread) (next : Point)
  /-- An `ASSERT` failed. -/
  | failed
  deriving DecidableEq, Repr

/-- A woken thread goes back to the test of the loop. -/
def Control.wake {Shared Thread Point : Type} :
    Control Shared Thread Point → Control Shared Thread Point
  | .asleep sema next => .semaDown sema next
  | control => control

/-- The semaphores, the control of every thread and the shared data. -/
structure Machine (Shared Thread Point Data : Type) where
  sema : SemaId Shared Thread → Semaphore Thread
  control : Thread → Control Shared Thread Point
  data : Data

/-- Who moves next. -/
inductive Turn (Shared Thread Choice : Type) where
  | thread (thread : Thread) (choice : Choice)
  | interruptUp (sema : Shared)
  | interruptTryDown (sema : Shared)
  deriving DecidableEq, Repr

namespace Machine

variable {Shared Thread Point Data Choice : Type}
variable [DecidableEq Shared] [DecidableEq Thread]

def setControl (machine : Machine Shared Thread Point Data)
    (thread : Thread) (control : Control Shared Thread Point) :
    Machine Shared Thread Point Data :=
  { machine with control := Function.update machine.control thread control }

def setSema (machine : Machine Shared Thread Point Data)
    (id : SemaId Shared Thread) (sema : Semaphore Thread) :
    Machine Shared Thread Point Data :=
  { machine with sema := Function.update machine.sema id sema }

def setData (machine : Machine Shared Thread Point Data) (data : Data) :
    Machine Shared Thread Point Data :=
  { machine with data := data }

/-- `thread_unblock` of the thread that `sema_up` takes off the queue. -/
def wakeFirst (machine : Machine Shared Thread Point Data)
    (id : SemaId Shared Thread) : Machine Shared Thread Point Data :=
  match (machine.sema id).waiters with
  | [] => machine
  | first :: _ => machine.setControl first (machine.control first).wake

def semaUp (machine : Machine Shared Thread Point Data)
    (id : SemaId Shared Thread) : Machine Shared Thread Point Data :=
  (machine.wakeFirst id).setSema id (machine.sema id).semaUp

/-- One pass through the loop of `sema_down`. -/
def semaDown (machine : Machine Shared Thread Point Data)
    (thread : Thread) (id : SemaId Shared Thread) (next : Point) :
    Machine Shared Thread Point Data :=
  if (machine.sema id).value = 0 then
    (machine.setSema id ((machine.sema id).enqueue thread)).setControl thread (.asleep id next)
  else
    (machine.setSema id (machine.sema id).take).setControl thread (.running next)

def semaTryDown (machine : Machine Shared Thread Point Data)
    (sema : Shared) : Machine Shared Thread Point Data × Bool :=
  let result := (machine.sema (.shared sema)).semaTryDown
  (machine.setSema (.shared sema) result.1, result.2)

/-- The effect of one action of a thread. -/
def perform (machine : Machine Shared Thread Point Data) (thread : Thread) :
    Action Shared Thread Point Data → Machine Shared Thread Point Data
  | .compute next data =>
      (machine.setData data).setControl thread (.running next)
  | .semaInit value next =>
      (machine.setSema (.frame thread) (.semaInit value)).setControl
        thread (.running next)
  | .semaDown sema next =>
      machine.setControl thread (.semaDown (.shared sema) next)
  | .semaDownFrame next =>
      machine.setControl thread (.semaDown (.frame thread) next)
  | .semaTryDown sema success failure =>
      let (after, taken) := machine.semaTryDown sema
      after.setControl thread (.running (if taken then success else failure))
  | .semaUp id next =>
      (machine.semaUp id).setControl thread (.running next)
  | .assertFail =>
      machine.setControl thread .failed

/-- One move of the machine. -/
def step (code : Code Shared Thread Point Data Choice)
    (machine : Machine Shared Thread Point Data) :
    Turn Shared Thread Choice → Option (Machine Shared Thread Point Data)
  | .thread thread choice =>
      match machine.control thread with
      | .running point =>
          some <| machine.perform thread
            (code.action thread point machine.data choice)
      | .semaDown id next => some (machine.semaDown thread id next)
      | .asleep _ _ => none
      | .failed => none
  | .interruptUp sema =>
      if code.interrupt sema then
        some (machine.semaUp (.shared sema))
      else none
  | .interruptTryDown sema =>
      if code.interrupt sema then
        some (machine.semaTryDown sema).1
      else none

section Projections

omit [DecidableEq Shared] in
@[simp]
theorem setControl_control (machine : Machine Shared Thread Point Data)
    (thread : Thread) (control : Control Shared Thread Point) :
    (machine.setControl thread control).control =
      Function.update machine.control thread control := rfl

omit [DecidableEq Shared] in
@[simp]
theorem setControl_sema (machine : Machine Shared Thread Point Data)
    (thread : Thread) (control : Control Shared Thread Point) :
    (machine.setControl thread control).sema = machine.sema := rfl

omit [DecidableEq Shared] in
@[simp]
theorem setControl_data (machine : Machine Shared Thread Point Data)
    (thread : Thread) (control : Control Shared Thread Point) :
    (machine.setControl thread control).data = machine.data := rfl

variable (machine : Machine Shared Thread Point Data)

@[simp]
theorem setSema_sema (id : SemaId Shared Thread) (sema : Semaphore Thread) :
    (machine.setSema id sema).sema = Function.update machine.sema id sema := rfl

@[simp]
theorem setSema_control (id : SemaId Shared Thread) (sema : Semaphore Thread) :
    (machine.setSema id sema).control = machine.control := rfl

@[simp]
theorem setSema_data (id : SemaId Shared Thread) (sema : Semaphore Thread) :
    (machine.setSema id sema).data = machine.data := rfl

omit [DecidableEq Shared] [DecidableEq Thread] in
@[simp]
theorem setData_control (data : Data) : (machine.setData data).control = machine.control := rfl

omit [DecidableEq Shared] [DecidableEq Thread] in
@[simp]
theorem setData_sema (data : Data) : (machine.setData data).sema = machine.sema := rfl

omit [DecidableEq Shared] [DecidableEq Thread] in
@[simp]
theorem setData_data (data : Data) : (machine.setData data).data = data := rfl

@[simp]
theorem semaUp_sema (id : SemaId Shared Thread) :
    (machine.semaUp id).sema = Function.update machine.sema id (machine.sema id).semaUp := by
  unfold semaUp wakeFirst
  cases (machine.sema id).waiters <;> rfl

@[simp]
theorem semaUp_data (id : SemaId Shared Thread) : (machine.semaUp id).data = machine.data := by
  unfold semaUp wakeFirst
  cases (machine.sema id).waiters <;> rfl

/-- `sema_up` either leaves the control of a thread alone or wakes it. -/
theorem semaUp_control (id : SemaId Shared Thread) (thread : Thread) :
    (machine.semaUp id).control thread =
      if (machine.sema id).waiters.head? = some thread then
        (machine.control thread).wake
      else machine.control thread := by
  unfold semaUp wakeFirst
  cases (machine.sema id).waiters with
  | nil =>
      simp
  | cons first rest =>
      by_cases same : thread = first
      · subst same
        simp
      · simp [same, Ne.symm same]

@[simp]
theorem setSema_self (id : SemaId Shared Thread) :
    machine.setSema id (machine.sema id) = machine := by
  simp [setSema]

theorem perform_semaTryDown_of_pos
    {sema : Shared} (thread : Thread) (success failure : Point)
    (positive : 0 < (machine.sema (.shared sema)).value) :
    machine.perform thread (.semaTryDown sema success failure) =
      (machine.setSema (.shared sema)
        (machine.sema (.shared sema)).take).setControl
          thread (.running success) := by
  simp [perform, semaTryDown, Semaphore.semaTryDown_of_pos positive]

theorem perform_semaTryDown_of_zero
    {sema : Shared} (thread : Thread) (success failure : Point)
    (zero : (machine.sema (.shared sema)).value = 0) :
    machine.perform thread (.semaTryDown sema success failure) =
      machine.setControl thread (.running failure) := by
  simp [perform, semaTryDown, Semaphore.semaTryDown_of_zero zero]

end Projections

end Machine

end CS162.Threads

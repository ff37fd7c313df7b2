import Mathlib.Data.List.Basic
import CS162.Foundation.Unsigned

/-!
# Semaphores

`struct semaphore` of `threads/synch.c` and the bodies of its operations.
Each body runs with interrupts off, so on one processor it is one atomic
step; blocking and waking the threads concerned is left to the machine that
executes the step.
-/

namespace CS162.Threads

open CS162.Foundation

universe u

/-- A counting semaphore: its value and the queue of waiting threads. -/
structure Semaphore (Thread : Type u) where
  value : Nat
  waiters : List Thread
  deriving DecidableEq, Repr

namespace Semaphore

variable {Thread : Type u}

/-- `sema_init`. -/
def semaInit (value : Nat) : Semaphore Thread := { value := value % unsignedModulus, waiters := [] }

/-- The loop body of `sema_down` while the value is zero: the caller appends
itself to the waiters before it blocks. -/
def enqueue (sema : Semaphore Thread) (thread : Thread) : Semaphore Thread :=
  { sema with waiters := sema.waiters ++ [thread] }

/-- `sema->value--`, reached only while the value is positive. -/
def take (sema : Semaphore Thread) : Semaphore Thread := { sema with value := sema.value - 1 }

/-- `sema_up`: the longest waiter leaves the queue and the value grows by one,
modulo the width of `unsigned`. -/
def semaUp (sema : Semaphore Thread) : Semaphore Thread :=
  { value := (sema.value + 1) % unsignedModulus
    waiters := sema.waiters.tail }

/-- `sema_try_down`: the new semaphore and whether a unit was taken. -/
def semaTryDown (sema : Semaphore Thread) : Semaphore Thread × Bool :=
  if 0 < sema.value then (sema.take, true) else (sema, false)

@[simp]
theorem enqueue_value (sema : Semaphore Thread) (thread : Thread) :
    (sema.enqueue thread).value = sema.value := rfl

@[simp]
theorem enqueue_waiters (sema : Semaphore Thread) (thread : Thread) :
    (sema.enqueue thread).waiters = sema.waiters ++ [thread] := rfl

@[simp]
theorem take_value (sema : Semaphore Thread) : sema.take.value = sema.value - 1 := rfl

@[simp]
theorem take_waiters (sema : Semaphore Thread) : sema.take.waiters = sema.waiters := rfl

@[simp]
theorem semaUp_value (sema : Semaphore Thread) :
    sema.semaUp.value = (sema.value + 1) % unsignedModulus := rfl

@[simp]
theorem semaUp_waiters (sema : Semaphore Thread) : sema.semaUp.waiters = sema.waiters.tail := rfl

theorem semaTryDown_of_pos {sema : Semaphore Thread} (positive : 0 < sema.value) :
    sema.semaTryDown = (sema.take, true) := by
  rw [semaTryDown, if_pos positive]

theorem semaTryDown_of_zero {sema : Semaphore Thread} (zero : sema.value = 0) :
    sema.semaTryDown = (sema, false) := by
  rw [semaTryDown, if_neg (by omega)]

/-- Below the wrap-around an up adds exactly one. -/
theorem semaUp_value_of_lt {sema : Semaphore Thread} (bound : sema.value + 1 < unsignedModulus) :
    sema.semaUp.value = sema.value + 1 :=
  Nat.mod_eq_of_lt bound

end Semaphore

end CS162.Threads

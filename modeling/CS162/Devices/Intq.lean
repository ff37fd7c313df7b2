import CS162.Foundation.RingBuffer
import CS162.Foundation.TransitionSystem
import CS162.Threads.Semaphore

/-!
# Interrupt queues

`devices/intq.c` on one processor.  The functions run with interrupts off, so
what a thread does up to its next sleep is one step.  A thread sleeps in
`lock_acquire` while it is among the waiters of the lock, and in `wait` while the
queue has it as `not_empty` or `not_full`.  A failed `ASSERT` is `none`.
-/

namespace CS162.Devices

open CS162.Foundation CS162.Threads

universe u

/-- `INTQ_BUFSIZE`. -/
def intqBufsize : Nat := 64

/-- `struct intq`. -/
structure Intq (Thread : Type u) where
  lock : Semaphore Thread
  holder : Option Thread
  notFull : Option Thread
  notEmpty : Option Thread
  ring : RingBuffer UInt8 intqBufsize

/-- `intq_getc`, or `intq_putc` with its byte. -/
inductive IntqOp where
  | getc
  | putc (byte : UInt8)
  deriving DecidableEq

/-- Where a thread is in a function of the queue: nowhere, in the `sema_down` of
`lock_acquire`, or in the `thread_block` of `wait`. -/
inductive IntqActivity where
  | outside
  | acquiring (op : IntqOp)
  | waiting (op : IntqOp)
  deriving DecidableEq

/-- A queue and the threads that use it, with the bytes that have been put on it
and those that have been taken from it. -/
structure IntqState (Thread : Type u) where
  q : Intq Thread
  activity : Thread → IntqActivity
  inserted : List UInt8
  removed : List UInt8

/-- A call that has come to a sleep, or that has returned a byte: the one taken,
or the one put. -/
inductive IntqResult (Thread : Type u) where
  | asleep (after : IntqState Thread)
  | returned (after : IntqState Thread) (byte : UInt8)

namespace Intq

variable {Thread : Type u}

/-- `intq_init`. -/
def intqInit : Intq Thread where
  lock := Semaphore.semaInit 1
  holder := none
  notFull := none
  notEmpty := none
  ring := RingBuffer.clear (fun _ => 0) (by decide)

/-- `intq_empty`. -/
def intqEmpty (q : Intq Thread) : Bool := q.ring.isEmpty

/-- `intq_full`. -/
def intqFull (q : Intq Thread) : Bool := q.ring.isFull

/-- The condition of the loop in `intq_getc` or in `intq_putc`. -/
def blocks (q : Intq Thread) : IntqOp → Bool
  | .getc => q.intqEmpty
  | .putc _ => q.intqFull

/-- The member that the loop passes to `wait`. -/
def waiter (q : Intq Thread) : IntqOp → Option Thread
  | .getc => q.notEmpty
  | .putc _ => q.notFull

def setWaiter (q : Intq Thread) (thread : Thread) : IntqOp → Intq Thread
  | .getc => { q with notEmpty := some thread }
  | .putc _ => { q with notFull := some thread }

end Intq

namespace IntqState

variable {Thread : Type u} [DecidableEq Thread]

def setActivity (s : IntqState Thread) (thread : Thread)
    (activity : IntqActivity) : IntqState Thread :=
  { s with activity := Function.update s.activity thread activity }

/-- `wait`, up to the sleep. -/
def wait (s : IntqState Thread) (thread : Thread) (op : IntqOp) : Option (IntqState Thread) :=
  if s.q.blocks op then
    some ({ s with q := s.q.setWaiter thread op }.setActivity thread (.waiting op))
  else none

/-- The state in which the thread has got the lock. -/
def locked (s : IntqState Thread) (thread : Thread) : IntqState Thread :=
  { s with q := { s.q with lock := s.q.lock.take, holder := some thread } }

/-- The loop of `sema_down` in `lock_acquire`, and then `wait`. -/
def acquire (s : IntqState Thread) (thread : Thread) (op : IntqOp) : Option (IntqState Thread) :=
  if s.q.lock.value = 0 then
    some
      ({ s with q := { s.q with lock := s.q.lock.enqueue thread } }.setActivity
        thread (.acquiring op))
  else (s.locked thread).wait thread op

/-- `lock_acquire`, and then `wait`. -/
def lockAcquire (s : IntqState Thread) (thread : Thread) (op : IntqOp) :
    Option (IntqState Thread) :=
  if s.q.holder = some thread then none else s.acquire thread op

/-- `lock_release`. -/
def lockRelease (s : IntqState Thread) (thread : Thread) : Option (IntqState Thread) :=
  if s.q.holder = some thread then
    some { s with q := { s.q with holder := none, lock := s.q.lock.semaUp } }
  else none

/-- The end of `intq_getc` or of `intq_putc`, with its `signal`. -/
def finish (s : IntqState Thread) : IntqOp → Option (IntqState Thread × UInt8)
  | .getc =>
      let byte := s.q.ring.first
      let q := { s.q with ring := s.q.ring.drop }
      if q.intqFull then none
      else
        some
          ({ s with
              q := { q with notFull := none }
              removed := s.removed ++ [byte] }, byte)
  | .putc byte =>
      let q := { s.q with ring := s.q.ring.put byte }
      if q.intqEmpty then none
      else
        some
          ({ s with
              q := { q with notEmpty := none }
              inserted := s.inserted ++ [byte] }, byte)

/-- `intq_getc` or `intq_putc` in a thread, from the test of its loop on. -/
def loop (s : IntqState Thread) (thread : Thread) (op : IntqOp) : Option (IntqResult Thread) :=
  if s.q.blocks op then (s.lockAcquire thread op).map .asleep
  else
    (s.finish op).map fun done =>
      .returned (done.1.setActivity thread .outside) done.2

/-- `intq_getc` or `intq_putc` in an interrupt handler. -/
def inHandler (s : IntqState Thread) (op : IntqOp) : Option (IntqState Thread × UInt8) :=
  if s.q.blocks op then none else s.finish op

/-- The thread sleeps. -/
def isAsleep (s : IntqState Thread) (thread : Thread) : Bool :=
  match s.activity thread with
  | .outside => false
  | .acquiring _ => thread ∈ s.q.lock.waiters
  | .waiting op => s.q.waiter op = some thread

/-- What a thread does that has been woken. -/
def resume (s : IntqState Thread) (thread : Thread) : Option (IntqResult Thread) :=
  match s.activity thread with
  | .outside => none
  | .acquiring op => (s.acquire thread op).map .asleep
  | .waiting op =>
      (s.lockRelease thread).bind fun released => released.loop thread op

end IntqState

/-- A thread calls a function, a thread that has been woken goes on, or a handler
calls a function where it is allowed to. -/
inductive IntqMove (Thread : Type u) where
  | call (thread : Thread) (op : IntqOp)
  | resume (thread : Thread)
  | handler (op : IntqOp)

inductive IntqMachine (Thread : Type u) where
  | running (s : IntqState Thread)
  | panicked

namespace IntqMachine

variable {Thread : Type u} [DecidableEq Thread]

def ofResult : Option (IntqResult Thread) → IntqMachine Thread
  | some (.asleep after) => .running after
  | some (.returned after _) => .running after
  | none => .panicked

def ofHandler : Option (IntqState Thread × UInt8) → IntqMachine Thread
  | some done => .running done.1
  | none => .panicked

/-- One move, where the calling rules allow it. -/
def step (s : IntqState Thread) : IntqMove Thread → Option (IntqMachine Thread)
  | .call thread op =>
      if s.activity thread = .outside then some (ofResult (s.loop thread op))
      else none
  | .resume thread =>
      if s.activity thread ≠ .outside && !s.isAsleep thread then
        some (ofResult (s.resume thread))
      else none
  | .handler op =>
      if s.q.blocks op then none else some (ofHandler (s.inHandler op))

end IntqMachine

/-- All runs of one queue. -/
def intqSystem (Thread : Type u) [DecidableEq Thread] :
    TransitionSystem (IntqMachine Thread) (IntqMove Thread) where
  initial state :=
    state = .running
      { q := Intq.intqInit
        activity := fun _ => .outside
        inserted := []
        removed := [] }
  step state move :=
    match state with
    | .running s => IntqMachine.step s move
    | .panicked => none

/-- When a thread that has slept in `lock_acquire` gets the lock, the queue is
still empty, or still full, as it was when the thread went to the lock. -/
def inTime {Thread : Type u} [DecidableEq Thread] (state : IntqMachine Thread)
    (move : IntqMove Thread) : Bool :=
  match state, move with
  | .running s, .resume thread =>
      match s.activity thread with
      | .acquiring op => s.q.lock.value = 0 || s.q.blocks op
      | _ => true
  | _, _ => true

/-! ## The invariant -/

/-- What holds of a queue whenever no thread is in the middle of a step. -/
structure IntqSound {Thread : Type u} (s : IntqState Thread) : Prop where
  log : s.inserted = s.removed ++ s.q.ring.contents
  lock : s.q.lock.value = if s.q.holder = none then 1 else 0
  waiting : ∀ thread op, s.activity thread = .waiting op → s.q.holder = some thread
  holding : ∀ thread, s.q.holder = some thread → ∃ op, s.activity thread = .waiting op
  notEmpty : ∀ thread, s.q.notEmpty = some thread → s.q.intqEmpty = true
  notFull : ∀ thread, s.q.notFull = some thread → s.q.intqFull = true

section Sound

variable {Thread : Type u} {s : IntqState Thread}

theorem intqInit_sound :
    IntqSound
      ({ q := Intq.intqInit
         activity := fun _ => .outside
         inserted := []
         removed := [] } : IntqState Thread) := by
  constructor
  · rfl
  · rfl
  · intro thread op waits
    cases waits
  · intro thread holds
    cases holds
  · intro thread registered
    cases registered
  · intro thread registered
    cases registered

variable [DecidableEq Thread] {thread : Thread} {op : IntqOp}

/-- The state after the end of `intq_getc` or of `intq_putc`. -/
def IntqState.finished (s : IntqState Thread) : IntqOp → IntqState Thread
  | .getc =>
      { s with
        q := { s.q with ring := s.q.ring.drop, notFull := none }
        removed := s.removed ++ [s.q.ring.first] }
  | .putc byte =>
      { s with
        q := { s.q with ring := s.q.ring.put byte, notEmpty := none }
        inserted := s.inserted ++ [byte] }

/-- The byte that the function returns or puts. -/
def IntqState.byte (s : IntqState Thread) : IntqOp → UInt8
  | .getc => s.q.ring.first
  | .putc byte => byte

omit [DecidableEq Thread] in
/-- The assertion in `signal` holds. -/
theorem finish_eq (free : s.q.blocks op = false) :
    s.finish op = some (s.finished op, s.byte op) := by
  cases op with
  | getc =>
      have less := RingBuffer.length_drop free
      have bound := s.q.ring.length_lt
      have room : s.q.ring.drop.isFull = false := by
        rw [← Bool.not_eq_true, RingBuffer.isFull_iff]
        omega
      exact if_neg (by rw [Intq.intqFull, room]; exact Bool.false_ne_true)
  | putc byte =>
      have filled : (s.q.ring.put byte).isEmpty = false := by
        rw [← Bool.not_eq_true, RingBuffer.isEmpty_iff, RingBuffer.contents_put free]
        simp
      exact if_neg (by rw [Intq.intqEmpty, filled]; exact Bool.false_ne_true)

omit [DecidableEq Thread] in
/-- The end of a function keeps the order of the bytes, and wakes the thread
whose condition has become true. -/
theorem IntqSound.finished (sound : IntqSound s)
    (free : s.q.blocks op = false) : IntqSound (s.finished op) := by
  cases op with
  | getc =>
      constructor
      · have first := RingBuffer.contents_drop free
        change s.inserted = s.removed ++ [s.q.ring.first] ++ s.q.ring.drop.contents
        rw [sound.log, first, List.append_assoc]
        rfl
      · exact sound.lock
      · exact sound.waiting
      · exact sound.holding
      · intro thread registered
        have empty := sound.notEmpty thread registered
        change s.q.intqEmpty = false at free
        rw [free] at empty
        cases empty
      · intro thread registered
        cases registered
  | putc byte =>
      constructor
      · change s.inserted ++ [byte] = s.removed ++ (s.q.ring.put byte).contents
        rw [RingBuffer.contents_put free, sound.log, List.append_assoc]
      · exact sound.lock
      · exact sound.waiting
      · exact sound.holding
      · intro thread registered
        cases registered
      · intro thread registered
        have full := sound.notFull thread registered
        change s.q.intqFull = false at free
        rw [free] at full
        cases full

/-- A thread that is not in `wait` goes to another place outside of it. -/
theorem IntqSound.setActivity (sound : IntqSound s) {activity : IntqActivity}
    (away : ∀ op, s.activity thread ≠ .waiting op) (elsewhere : ∀ op, activity ≠ .waiting op) :
    IntqSound (s.setActivity thread activity) := by
  constructor
  · exact sound.log
  · exact sound.lock
  · intro other op waits
    change Function.update s.activity thread activity other = _ at waits
    by_cases same : other = thread
    · rw [same, Function.update_self] at waits
      exact absurd waits (elsewhere op)
    · rw [Function.update_of_ne same] at waits
      exact sound.waiting other op waits
  · intro other holds
    rcases sound.holding other holds with ⟨op, waits⟩
    have different : other ≠ thread := by
      intro same
      rw [same] at waits
      exact away op waits
    refine ⟨op, ?_⟩
    change Function.update s.activity thread activity other = _
    rw [Function.update_of_ne different]
    exact waits
  · exact sound.notEmpty
  · exact sound.notFull

/-- `wait`, for a thread that has just got the lock. -/
theorem IntqSound.wait (sound : IntqSound s) (free : s.q.holder = none)
    (blocked : s.q.blocks op = true) :
    ∃ after, (s.locked thread).wait thread op = some after ∧
      IntqSound after := by
  have nobody : ∀ other op, s.activity other ≠ .waiting op := by
    intro other op waits
    have holds := sound.waiting other op waits
    rw [free] at holds
    cases holds
  have value : s.q.lock.take.value = 0 := by
    rw [Semaphore.take_value, sound.lock, if_pos free]
  have stays : ∀ ring notEmpty notFull,
      s.inserted = s.removed ++ ring.contents →
      (∀ other, notEmpty = some other → ring.isEmpty = true) →
      (∀ other, notFull = some other → ring.isFull = true) →
      IntqSound
        (({ s with q :=
            { lock := s.q.lock.take
              holder := some thread
              notFull := notFull
              notEmpty := notEmpty
              ring := ring } } : IntqState Thread).setActivity thread
          (.waiting op)) := by
    intro ring notEmpty notFull log empty full
    constructor
    · exact log
    · exact value
    · intro other _ waits
      change Function.update s.activity thread (.waiting op) other = _ at waits
      by_cases same : other = thread
      · rw [same]
        rfl
      · rw [Function.update_of_ne same] at waits
        exact absurd waits (nobody other _)
    · intro other holds
      cases holds
      exact ⟨op, Function.update_self _ _ _⟩
    · exact empty
    · exact full
  cases op with
  | getc =>
      exact ⟨_, if_pos blocked, stays s.q.ring (some thread) s.q.notFull sound.log
        (fun _ _ => blocked) sound.notFull⟩
  | putc byte =>
      exact ⟨_, if_pos blocked, stays s.q.ring s.q.notEmpty (some thread) sound.log
        sound.notEmpty (fun _ _ => blocked)⟩

/-- The loop of `sema_down` in `lock_acquire`: where the thread gets the lock,
its condition must still hold. -/
theorem IntqSound.acquire (sound : IntqSound s) (away : ∀ op, s.activity thread ≠ .waiting op)
    (blocked : s.q.lock.value ≠ 0 → s.q.blocks op = true) :
    ∃ after, s.acquire thread op = some after ∧ IntqSound after := by
  rw [IntqState.acquire]
  by_cases taken : s.q.lock.value = 0
  · rw [if_pos taken]
    refine ⟨_, rfl, ?_⟩
    have queued : IntqSound
        ({ s with q := { s.q with lock := s.q.lock.enqueue thread } } : IntqState Thread) :=
      ⟨sound.log, sound.lock, sound.waiting, sound.holding, sound.notEmpty, sound.notFull⟩
    apply queued.setActivity away
    intro other same
    cases same
  · have free : s.q.holder = none := by
      by_contra held
      rw [sound.lock, if_neg held] at taken
      exact taken rfl
    rw [if_neg taken]
    exact sound.wait free (blocked taken)

/-- A thread outside of `wait` runs the loop of its function. -/
theorem IntqSound.loop (sound : IntqSound s) (op : IntqOp)
    (away : ∀ op, s.activity thread ≠ .waiting op) :
    (∃ after, s.loop thread op = some (.asleep after) ∧ IntqSound after) ∨
      (s.q.blocks op = false ∧
        s.loop thread op = some (.returned
          ((s.finished op).setActivity thread .outside) (s.byte op)) ∧
        IntqSound ((s.finished op).setActivity thread .outside)) := by
  cases blocked : s.q.blocks op with
  | true =>
      left
      have notHeld : s.q.holder ≠ some thread := by
        intro holds
        rcases sound.holding thread holds with ⟨other, waits⟩
        exact away other waits
      rcases sound.acquire away (fun _ => blocked) with ⟨after, result, kept⟩
      refine ⟨after, ?_, kept⟩
      rw [IntqState.loop, if_pos blocked, IntqState.lockAcquire, if_neg notHeld, result]
      rfl
  | false =>
      right
      have activity : (s.finished op).activity = s.activity := by
        cases op <;> rfl
      refine ⟨rfl, ?_, ?_⟩
      · rw [IntqState.loop, blocked, finish_eq blocked]
        rfl
      · apply (sound.finished blocked).setActivity
        · rw [activity]
          exact away
        · intro other same
          cases same

/-- `lock_release`, and then the loop. -/
theorem IntqSound.released (sound : IntqSound s) (waits : s.activity thread = .waiting op) :
    ∃ after, s.lockRelease thread = some after ∧
      after.activity = s.activity ∧ after.q.ring = s.q.ring ∧
      after.inserted = s.inserted ∧ after.removed = s.removed ∧
      after.q.lock.value = 1 ∧
      IntqSound (after.setActivity thread .outside) := by
  have holds := sound.waiting thread op waits
  have value : s.q.lock.semaUp.value = 1 := by
    rw [Semaphore.semaUp_value, sound.lock, holds, if_neg (by simp)]
    decide
  rw [IntqState.lockRelease, if_pos holds]
  refine ⟨_, rfl, rfl, rfl, rfl, rfl, value, ?_⟩
  constructor
  · exact sound.log
  · exact value
  · intro other waitsFor waiting
    change Function.update s.activity thread .outside other = _ at waiting
    by_cases same : other = thread
    · rw [same, Function.update_self] at waiting
      cases waiting
    · rw [Function.update_of_ne same] at waiting
      have alsoHolds := sound.waiting other waitsFor waiting
      rw [holds] at alsoHolds
      cases alsoHolds
      exact absurd rfl same
  · intro other held
    cases held
  · exact sound.notEmpty
  · exact sound.notFull

theorem setActivity_setActivity (s : IntqState Thread) (thread : Thread)
    (first second : IntqActivity) :
    (s.setActivity thread first).setActivity thread second = s.setActivity thread second := by
  simp only [IntqState.setActivity, Function.update_idem]

/-- What a thread does next does not depend on what its activity is recorded
as. -/
theorem loop_setActivity (s : IntqState Thread) (thread : Thread)
    (activity : IntqActivity) (op : IntqOp) :
    (s.setActivity thread activity).loop thread op = s.loop thread op := by
  have sameWait : ∀ state : IntqState Thread,
      (state.setActivity thread activity).wait thread op = state.wait thread op := by
    intro state
    change (if state.q.blocks op then some
      (({ state with q := state.q.setWaiter thread op } :
        IntqState Thread).setActivity thread activity |>.setActivity thread
          (.waiting op)) else none) = _
    rw [setActivity_setActivity]
    rfl
  have sameAcquire : (s.setActivity thread activity).acquire thread op = s.acquire thread op := by
    change (if s.q.lock.value = 0 then some
      ((({ s with q := { s.q with lock := s.q.lock.enqueue thread } } :
        IntqState Thread).setActivity thread activity).setActivity thread (.acquiring op)) else
      ((s.locked thread).setActivity thread activity).wait thread op) = _
    rw [setActivity_setActivity, sameWait]
    rfl
  have sameFinish : ((s.setActivity thread activity).finish op).map
        (fun done => IntqResult.returned (done.1.setActivity thread .outside)
          done.2) =
      (s.finish op).map (fun done => IntqResult.returned
        (done.1.setActivity thread .outside) done.2) := by
    cases op with
    | getc =>
        by_cases full : ({ s.q with ring := s.q.ring.drop } : Intq Thread).intqFull
        · simp only [IntqState.finish, IntqState.setActivity, full, if_true, Option.map_none]
        · simp only [IntqState.finish, IntqState.setActivity, full,
            Bool.false_eq_true, if_false, Option.map_some,
            Function.update_idem]
    | putc byte =>
        by_cases empty : ({ s.q with ring := s.q.ring.put byte } : Intq Thread).intqEmpty
        · simp only [IntqState.finish, IntqState.setActivity, empty, if_true, Option.map_none]
        · simp only [IntqState.finish, IntqState.setActivity, empty,
            Bool.false_eq_true, if_false, Option.map_some,
            Function.update_idem]
  change (if s.q.blocks op then
    (if s.q.holder = some thread then none else
      (s.setActivity thread activity).acquire thread op).map IntqResult.asleep
    else _) = _
  rw [sameAcquire, sameFinish]
  rfl

end Sound

end CS162.Devices

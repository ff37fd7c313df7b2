import CS162.Devices.Intq

/-!
# Runs of an interrupt queue

The bytes of a queue stay in order, and no assertion fails and no thread is
forgotten, as long as every thread that has slept in `lock_acquire` gets the lock
in time.  A thread that gets it too late fails the assertion in `wait`.
-/

namespace CS162.Devices

open CS162.Foundation CS162.Threads

universe u

variable {Thread : Type u} [DecidableEq Thread] {s : IntqState Thread}
variable {thread : Thread} {op : IntqOp}

/-- The part of the state that a sleeping thread has left as it was. -/
structure BytesKept (s after : IntqState Thread) : Prop where
  ring : after.q.ring = s.q.ring
  inserted : after.inserted = s.inserted
  removed : after.removed = s.removed

theorem wait_kept {after : IntqState Thread}
    (result : s.wait thread op = some after) : BytesKept s after := by
  rw [IntqState.wait] at result
  split at result
  · cases result
    cases op <;> exact ⟨rfl, rfl, rfl⟩
  · cases result

theorem acquire_kept {after : IntqState Thread}
    (result : s.acquire thread op = some after) : BytesKept s after := by
  rw [IntqState.acquire] at result
  split at result
  · cases result
    exact ⟨rfl, rfl, rfl⟩
  · have kept := wait_kept result
    exact ⟨kept.ring, kept.inserted, kept.removed⟩

theorem loop_kept {after : IntqState Thread} (result : s.loop thread op = some (.asleep after)) :
    BytesKept s after := by
  rw [IntqState.loop] at result
  split at result
  · rw [IntqState.lockAcquire] at result
    split at result
    · cases result
    · rcases Option.map_eq_some_iff.mp result with ⟨slept, acquired, same⟩
      cases same
      exact acquire_kept acquired
  · rcases Option.map_eq_some_iff.mp result with ⟨done, _, same⟩
    cases same

/-- Where a thread is after a step of its own. -/
def Moved (s after : IntqState Thread) (thread : Thread) (place : IntqActivity) : Prop :=
  after.activity = Function.update s.activity thread place

theorem wait_moved {after : IntqState Thread} (result : s.wait thread op = some after) :
    Moved s after thread (.waiting op) := by
  rw [IntqState.wait] at result
  split at result
  · cases result
    rfl
  · cases result

/-- A thread that finds the lock free does not sleep for it. -/
theorem loop_moved {after : IntqState Thread} (result : s.loop thread op = some (.asleep after)) :
    ∃ place, Moved s after thread place ∧
      (s.q.lock.value ≠ 0 → place = .waiting op) := by
  rw [IntqState.loop] at result
  split at result
  · rw [IntqState.lockAcquire] at result
    split at result
    · cases result
    · rcases Option.map_eq_some_iff.mp result with ⟨slept, acquired, same⟩
      cases same
      rw [IntqState.acquire] at acquired
      split at acquired
      · rename_i taken
        cases acquired
        exact ⟨_, rfl, fun free => absurd taken free⟩
      · exact ⟨_, wait_moved (s := s.locked thread) acquired, fun _ => rfl⟩
  · rcases Option.map_eq_some_iff.mp result with ⟨done, _, same⟩
    cases same

/-- How a call of a sound queue ends: with a sleep, or with its byte. -/
inductive IntqEnds (s : IntqState Thread) (thread : Thread) (op : IntqOp) :
    Option (IntqResult Thread) → Prop
  | asleep {after : IntqState Thread} {place : IntqActivity} :
      BytesKept s after → IntqSound after → Moved s after thread place →
      (s.q.holder = none ∨ s.q.holder = some thread → place = .waiting op) →
      IntqEnds s thread op (some (.asleep after))
  | returned {after : IntqState Thread} :
      s.q.blocks op = false →
      after.q.ring = (s.finished op).q.ring →
      after.inserted = (s.finished op).inserted →
      after.removed = (s.finished op).removed →
      IntqSound after → Moved s after thread .outside →
      IntqEnds s thread op (some (.returned after (s.byte op)))

theorem IntqSound.call (sound : IntqSound s) (away : ∀ op, s.activity thread ≠ .waiting op) :
    IntqEnds s thread op (s.loop thread op) := by
  rcases sound.loop op away with ⟨after, result, kept⟩ | ⟨free, result, kept⟩
  · rw [result]
    rcases loop_moved result with ⟨place, moved, waits⟩
    refine .asleep (loop_kept result) kept moved ?_
    rintro (free | holds)
    · apply waits
      rw [sound.lock, if_pos free]
      exact Nat.one_ne_zero
    · rcases sound.holding thread holds with ⟨other, waiting⟩
      exact absurd waiting (away other)
  · rw [result]
    refine .returned free rfl rfl rfl kept ?_
    cases op <;> rfl

theorem moved_again {released after : IntqState Thread} {place : IntqActivity}
    (moved : Moved (released.setActivity thread .outside) after thread place)
    (activity : released.activity = s.activity) :
    Moved s after thread place := by
  rw [Moved, moved, IntqState.setActivity, activity, Function.update_idem]

/-- A thread that has been woken in `wait` goes on. -/
theorem IntqSound.resumeWaiting (sound : IntqSound s) (waits : s.activity thread = .waiting op) :
    IntqEnds s thread op (s.resume thread) := by
  rcases sound.released waits with ⟨released, result, activity, ring, inserted, removed, free, kept⟩
  have same : s.resume thread = (released.setActivity thread .outside).loop thread op := by
    rw [IntqState.resume, waits]
    dsimp only
    rw [result, Option.bind_some, loop_setActivity]
  have away : ∀ other, (released.setActivity thread .outside).activity thread ≠ .waiting other := by
    intro other
    change Function.update released.activity thread .outside thread ≠ _
    rw [Function.update_self]
    intro outside
    cases outside
  have blocks : (released.setActivity thread .outside).q.blocks op = s.q.blocks op := by
    cases op with
    | getc =>
        change released.q.ring.isEmpty = s.q.ring.isEmpty
        rw [ring]
    | putc byte =>
        change released.q.ring.isFull = s.q.ring.isFull
        rw [ring]
  rw [same]
  rcases kept.loop op away with ⟨after, looped, sound⟩ | ⟨notFull, looped, sound⟩
  · rw [looped]
    have slept := loop_kept looped
    rcases loop_moved looped with ⟨place, moved, waiting⟩
    refine .asleep ⟨?_, ?_, ?_⟩ sound (moved_again moved activity) ?_
    · rw [slept.ring]
      exact ring
    · rw [slept.inserted]
      exact inserted
    · rw [slept.removed]
      exact removed
    · intro _
      apply waiting
      change released.q.lock.value ≠ 0
      rw [free]
      exact Nat.one_ne_zero
  · have sameByte : (released.setActivity thread .outside).byte op = s.byte op := by
      cases op with
      | getc =>
          change released.q.ring.first = s.q.ring.first
          rw [ring]
      | putc byte => rfl
    rw [looped, sameByte]
    refine .returned (blocks.symm.trans notFull) ?_ ?_ ?_ sound ?_
    · cases op with
      | getc =>
          change released.q.ring.drop = s.q.ring.drop
          rw [ring]
      | putc byte =>
          change released.q.ring.put byte = s.q.ring.put byte
          rw [ring]
    · cases op with
      | getc => exact inserted
      | putc byte =>
          change released.inserted ++ [byte] = s.inserted ++ [byte]
          rw [inserted]
    · cases op with
      | getc =>
          change released.removed ++ [released.q.ring.first] = s.removed ++ [s.q.ring.first]
          rw [removed, ring]
      | putc byte => exact removed
    · apply moved_again _ activity
      cases op <;> rfl

/-- A thread that has been woken in `lock_acquire` goes on, where the lock is
taken again or its condition still holds. -/
theorem IntqSound.resumeAcquiring (sound : IntqSound s)
    (acquires : s.activity thread = .acquiring op)
    (timely : s.q.lock.value ≠ 0 → s.q.blocks op = true) :
    ∃ after, s.resume thread = some (.asleep after) ∧ BytesKept s after ∧
      IntqSound after := by
  have away : ∀ other, s.activity thread ≠ .waiting other := by
    intro other waits
    rw [acquires] at waits
    cases waits
  rcases sound.acquire away timely with ⟨after, result, kept⟩
  refine ⟨after, ?_, acquire_kept result, kept⟩
  rw [IntqState.resume, acquires]
  dsimp only
  rw [result]
  rfl

/-- Where it is not so, the assertion in `wait` fails. -/
theorem resume_late (acquires : s.activity thread = .acquiring op)
    (free : s.q.lock.value ≠ 0) (changed : s.q.blocks op = false) :
    s.resume thread = none := by
  have failed : (s.locked thread).wait thread op = none := by
    cases op with
    | getc => exact if_neg (ne_true_of_eq_false changed)
    | putc byte => exact if_neg (ne_true_of_eq_false changed)
  rw [IntqState.resume, acquires]
  dsimp only
  rw [IntqState.acquire, if_neg free, failed]
  rfl

/-! ## Steps and runs -/

/-- What is shown of a queue in every state. -/
structure IntqSafe (s : IntqState Thread) : Prop where
  order : s.inserted = s.removed ++ s.q.ring.contents
  bounded : s.q.ring.contents.length ≤ intqBufsize - 1
  notEmpty : ∀ thread, s.q.notEmpty = some thread → s.q.intqEmpty = true
  notFull : ∀ thread, s.q.notFull = some thread → s.q.intqFull = true

omit [DecidableEq Thread] in
theorem IntqSound.safe (sound : IntqSound s) : IntqSafe s := by
  constructor
  · exact sound.log
  · have bound := s.q.ring.length_lt
    rw [RingBuffer.length_contents]
    omega
  · exact sound.notEmpty
  · exact sound.notFull

def MachineSound (state : IntqMachine Thread) : Prop :=
  match state with
  | .running s => IntqSound s
  | .panicked => False

theorem IntqEnds.sound {result : Option (IntqResult Thread)} (ends : IntqEnds s thread op result) :
    MachineSound (IntqMachine.ofResult result) := by
  cases ends with
  | asleep _ sound _ _ => exact sound
  | returned _ _ _ _ sound _ => exact sound

theorem MachineSound.step {state target : IntqMachine Thread}
    {move : IntqMove Thread} (sound : MachineSound state) (timely : inTime state move = true)
    (stepped : (intqSystem Thread).step state move = some target) :
    MachineSound target := by
  cases state with
  | panicked => cases sound
  | running s =>
      have sound : IntqSound s := sound
      change IntqMachine.step s move = some target at stepped
      cases move with
      | call thread op =>
          rw [IntqMachine.step] at stepped
          split at stepped
          · rename_i outside
            cases stepped
            apply IntqEnds.sound (sound.call _)
            intro other waits
            rw [outside] at waits
            cases waits
          · cases stepped
      | resume thread =>
          rw [IntqMachine.step] at stepped
          split at stepped
          · cases stepped
            cases activity : s.activity thread with
            | outside =>
                rename_i inside
                simp [activity] at inside
            | acquiring op =>
                rw [inTime, activity] at timely
                rcases sound.resumeAcquiring activity (by
                  intro free
                  simpa [free] using timely) with ⟨after, result, _, kept⟩
                rw [result]
                exact kept
            | waiting op => exact (sound.resumeWaiting activity).sound
          · cases stepped
      | handler op =>
          rw [IntqMachine.step] at stepped
          split at stepped
          · cases stepped
          · rename_i free
            have free := eq_false_of_ne_true free
            cases stepped
            have result : s.inHandler op = some (s.finished op, s.byte op) := by
              rw [IntqState.inHandler, free, finish_eq free]
              rfl
            rw [result]
            exact sound.finished free

/-- A thread that gets the lock too late fails an assertion, and nothing else
does. -/
theorem MachineSound.late {state target : IntqMachine Thread}
    {move : IntqMove Thread} (sound : MachineSound state)
    (stepped : (intqSystem Thread).step state move = some target) :
    target = .panicked ↔ inTime state move = false := by
  constructor
  · intro failed
    by_contra timely
    have kept := sound.step (eq_true_of_ne_false timely) stepped
    rw [failed] at kept
    exact kept
  · intro late
    cases state with
    | panicked => cases sound
    | running s =>
        cases move with
        | call thread op => cases late
        | handler op => cases late
        | resume thread =>
            rw [inTime] at late
            cases activity : s.activity thread with
            | outside => simp [activity] at late
            | waiting op => simp [activity] at late
            | acquiring op =>
                simp only [activity, Bool.or_eq_false_iff, decide_eq_false_iff_not] at late
                change IntqMachine.step s (.resume thread) = _ at stepped
                rw [IntqMachine.step] at stepped
                split at stepped
                · cases stepped
                  rw [resume_late activity late.1 late.2]
                  rfl
                · cases stepped

/-- Every run in which each thread that has slept for the lock gets it in time:
no assertion fails, the bytes are in order, and no thread sleeps for a condition
that holds.  In any state of such a run, a thread that gets the lock too late
fails an assertion. -/
theorem intq_safe_in_time {state : IntqMachine Thread}
    (reachable : ((intqSystem Thread).restrict inTime).Reachable state) :
    (∃ s, state = .running s ∧ IntqSafe s) ∧
      ∀ move target, (intqSystem Thread).step state move = some target →
        (target = .panicked ↔ inTime state move = false) := by
  have sound : MachineSound state := by
    apply reachable.invariant MachineSound
    · rintro start rfl
      exact intqInit_sound
    · intro before move after _ sound stepped
      have allowed := TransitionSystem.restrict_step_iff.mp stepped
      exact sound.step allowed.1 allowed.2
  constructor
  · cases state with
    | panicked => cases sound
    | running s => exact ⟨s, rfl, IntqSound.safe sound⟩
  · intro move target stepped
    exact sound.late stepped

/-- One thread waits for a byte, and a handler puts one. -/
theorem intq_safe_in_time_woken :
    ∃ s : IntqState ℕ, s.activity 1 = .waiting .getc ∧
      s.q.ring.contents = [7] ∧ IntqSafe s := by
  have passed : ((((intqSystem ℕ).restrict inTime).run
      (.running
        { q := Intq.intqInit
          activity := fun _ => .outside
          inserted := []
          removed := [] }) [.call 1 .getc, .handler (.putc 7)]).any fun state =>
        match state with
        | .running s =>
            s.activity 1 = .waiting .getc && s.q.ring.contents = [7]
        | .panicked => false) = true := by
    decide +kernel
  rcases (Option.any_eq_true _ _).mp passed with ⟨state, execution, tested⟩
  have reachable : ((intqSystem ℕ).restrict inTime).Reachable state := by
    apply TransitionSystem.Reachable.of_run _ execution
    exact .initial rfl
  rcases (intq_safe_in_time reachable).1 with ⟨s, same, safe⟩
  rw [same, Bool.and_eq_true, decide_eq_true_eq, decide_eq_true_eq] at tested
  exact ⟨s, tested.1, tested.2, safe⟩

/-- Two threads wait for bytes, and two bytes come before the first of them runs
again: the second one fails the assertion in `wait`. -/
theorem intq_wait_fails : (intqSystem ℕ).Reachable .panicked := by
  have passed : (((intqSystem ℕ).run
      (.running
        { q := Intq.intqInit
          activity := fun _ => .outside
          inserted := []
          removed := [] })
      [.call 1 .getc, .call 2 .getc, .handler (.putc 7), .handler (.putc 8),
        .resume 1, .resume 2]).any fun state =>
        match state with
        | .running _ => false
        | .panicked => true) = true := by
    decide +kernel
  rcases (Option.any_eq_true _ _).mp passed with ⟨state, execution, tested⟩
  cases state with
  | running s => cases tested
  | panicked =>
      apply TransitionSystem.Reachable.of_run _ execution
      exact .initial rfl

end CS162.Devices

import CS162.Devices.IntqRuns

/-!
# The serial port

`devices/serial.c` after `serial_init_queue`, with the input buffer of
`devices/input.c`.  What a thread does with interrupts off up to its next sleep is
one step, and so is an interrupt.  A failed `ASSERT` is `none`.
-/

namespace CS162.Devices

open CS162.Foundation CS162.Threads

universe u

/-- The queue of bytes to send and the input buffer, the bits of the interrupt
enable register, the bytes that have been written to the transmit register, and
the thread that is in `serial_putc` with interrupts on. -/
structure Serial (Thread : Type u) where
  txq : IntqState Thread
  input : IntqState Thread
  ierXmit : Bool
  ierRecv : Bool
  transmitted : List UInt8
  writer : Option Thread

namespace Serial

variable {Thread : Type u} [DecidableEq Thread]

/-- `write_ier`. -/
def writeIer (s : Serial Thread) : Serial Thread :=
  { s with
    ierXmit := !s.txq.q.intqEmpty
    ierRecv := !s.input.q.intqFull }

/-- A byte is written to the transmit register, by `putc_poll` or by the
interrupt handler. -/
def transmit (s : Serial Thread) (byte : UInt8) : Serial Thread :=
  { s with transmitted := s.transmitted ++ [byte] }

/-- A byte is taken from the queue and written to the transmit register. -/
def sendNext (s : Serial Thread) : Option (Serial Thread) :=
  (s.txq.inHandler .getc).map fun done =>
    transmit { s with txq := done.1 } done.2

/-- The result of `intq_putc` in `serial_putc`. -/
def afterPutc (s : Serial Thread) (thread : Thread) : IntqResult Thread → Serial Thread
  | .asleep after => { s with txq := after, writer := some thread }
  | .returned after _ => writeIer { s with txq := after, writer := none }

/-- `serial_putc` with interrupts on. -/
def serialPutc (s : Serial Thread) (thread : Thread) (byte : UInt8) : Option (Serial Thread) :=
  (s.txq.loop thread (.putc byte)).map (s.afterPutc thread)

/-- `serial_putc` with interrupts off, in a thread or in a handler. -/
def serialPutcOff (s : Serial Thread) (byte : UInt8) : Option (Serial Thread) :=
  let room := if s.txq.q.intqFull then s.sendNext else some s
  room.bind fun s =>
    (s.txq.inHandler (.putc byte)).map fun done =>
      writeIer { s with txq := done.1 }

/-- The loop of `serial_flush`, which ends after at most as many rounds as the
queue has bytes. -/
def flushLoop (s : Serial Thread) : Nat → Option (Serial Thread)
  | 0 => some s
  | rounds + 1 =>
      if s.txq.q.intqEmpty then some s
      else s.sendNext.bind fun after => after.flushLoop rounds

/-- `serial_flush`. -/
def serialFlush (s : Serial Thread) : Option (Serial Thread) := s.flushLoop s.txq.q.ring.length

/-- The result of `intq_getc` in `input_getc`, with `serial_notify`. -/
def afterGetc (s : Serial Thread) : IntqResult Thread → Serial Thread
  | .asleep after => { s with input := after }
  | .returned after _ => writeIer { s with input := after }

/-- `input_getc`. -/
def inputGetc (s : Serial Thread) (thread : Thread) : Option (Serial Thread) :=
  (s.input.loop thread .getc).map s.afterGetc

/-- `input_putc`, with `serial_notify`. -/
def inputPutc (s : Serial Thread) (key : UInt8) : Option (Serial Thread) :=
  if s.input.q.intqFull then none
  else
    (s.input.inHandler (.putc key)).map fun done =>
      writeIer { s with input := done.1 }

/-- The first loop of `serial_interrupt`, with the bytes that the receiver has. -/
def receiveLoop (s : Serial Thread) : List UInt8 → Option (Serial Thread)
  | [] => some s
  | byte :: rest =>
      if s.input.q.intqFull then some s
      else (s.inputPutc byte).bind fun after => after.receiveLoop rest

/-- The second loop of `serial_interrupt`, where the transmitter is ready for a
number of bytes. -/
def transmitLoop (s : Serial Thread) : Nat → Option (Serial Thread)
  | 0 => some s
  | ready + 1 =>
      if s.txq.q.intqEmpty then some s
      else s.sendNext.bind fun after => after.transmitLoop ready

/-- `serial_interrupt`. -/
def serialInterrupt (s : Serial Thread) (incoming : List UInt8)
    (ready : Nat) : Option (Serial Thread) :=
  (s.receiveLoop incoming).bind fun received =>
    (received.transmitLoop ready).map writeIer

end Serial

inductive SerialMove (Thread : Type u) where
  | putc (thread : Thread) (byte : UInt8)
  | putcOff (byte : UInt8)
  | resumeWriter (thread : Thread)
  | interrupt (incoming : List UInt8) (ready : Nat)
  | inputGetc (thread : Thread)
  | resumeReader (thread : Thread)
  | inputPutc (key : UInt8)
  | flush

inductive SerialMachine (Thread : Type u) where
  | running (s : Serial Thread)
  | panicked

namespace SerialMachine

variable {Thread : Type u} [DecidableEq Thread]

def result : Option (Serial Thread) → SerialMachine Thread
  | some s => .running s
  | none => .panicked

/-- One move, where the calling rules allow it: one thread at a time is in
`serial_putc` with interrupts on, and the keyboard handler gives no key to a full
buffer. -/
def step (s : Serial Thread) : SerialMove Thread → Option (SerialMachine Thread)
  | .putc thread byte =>
      if s.writer = none then some (result (s.serialPutc thread byte)) else none
  | .putcOff byte => some (result (s.serialPutcOff byte))
  | .resumeWriter thread =>
      if s.writer = some thread && !s.txq.isAsleep thread then
        some (result ((s.txq.resume thread).map (s.afterPutc thread)))
      else none
  | .interrupt incoming ready =>
      some (result (s.serialInterrupt incoming ready))
  | .inputGetc thread =>
      if s.input.activity thread = .outside then
        some (result (s.inputGetc thread))
      else none
  | .resumeReader thread =>
      if s.input.activity thread ≠ .outside && !s.input.isAsleep thread then
        some (result ((s.input.resume thread).map s.afterGetc))
      else none
  | .inputPutc key =>
      if s.input.q.intqFull then none else some (result (s.inputPutc key))
  | .flush => some (result s.serialFlush)

end SerialMachine

/-- The port when `serial_init_queue` returns, with the keys that have come
before. -/
def startSerial {Thread : Type u} (input : IntqState Thread) : Serial Thread where
  txq :=
    { q := Intq.intqInit
      activity := fun _ => .outside
      inserted := []
      removed := [] }
  input := input
  ierXmit := false
  ierRecv := !input.q.intqFull
  transmitted := []
  writer := none

/-- All runs after `serial_init_queue`. -/
def serialSystem (Thread : Type u) [DecidableEq Thread] :
    TransitionSystem (SerialMachine Thread) (SerialMove Thread) where
  initial state :=
    ∃ input, (intqSystem Thread).Reachable (.running input) ∧ state = .running (startSerial input)
  step state move :=
    match state with
    | .running s => SerialMachine.step s move
    | .panicked => none

/-! ## The invariant -/

/-- The order of the bytes, and the interrupts that are enabled. -/
structure SerialSound {Thread : Type u} (s : Serial Thread) : Prop where
  txq : IntqSound s.txq
  input : IntqSound s.input
  sent : s.transmitted = s.txq.removed
  xmit : s.txq.q.intqEmpty = false → s.ierXmit = true
  recv : s.ierRecv = !s.input.q.intqFull
  writing : ∀ thread, s.txq.activity thread ≠ .outside →
    s.writer = some thread ∧ ∃ op, s.txq.activity thread = .waiting op
  inside : ∀ thread, s.writer = some thread → ∃ byte, s.txq.activity thread = .waiting (.putc byte)

section Sound

variable {Thread : Type u} [DecidableEq Thread] {s : Serial Thread}
variable {thread : Thread} {byte : UInt8}

omit [DecidableEq Thread] in
/-- While threads rest, a queue may change with its log. -/
theorem SerialSound.sendNext (sound : SerialSound s) (waiting : s.txq.q.intqEmpty = false) :
    ∃ after, s.sendNext = some after ∧ SerialSound after ∧
      after.txq.q.ring.length + 1 = s.txq.q.ring.length ∧
      after.input = s.input := by
  have free : s.txq.q.blocks .getc = false := waiting
  have taken : s.txq.inHandler .getc = some (s.txq.finished .getc, s.txq.q.ring.first) := by
    rw [IntqState.inHandler, free]
    exact finish_eq free
  refine ⟨Serial.transmit { s with txq := s.txq.finished .getc } s.txq.q.ring.first,
      ?_, ?_, RingBuffer.length_drop waiting, rfl⟩
  · rw [Serial.sendNext, taken]
    rfl
  · constructor
    · exact sound.txq.finished free
    · exact sound.input
    · change s.transmitted ++ [s.txq.q.ring.first] = s.txq.removed ++ [s.txq.q.ring.first]
      rw [sound.sent]
    · exact fun _ => sound.xmit waiting
    · exact sound.recv
    · exact sound.writing
    · exact sound.inside

omit [DecidableEq Thread] in
/-- The register is brought up to date. -/
theorem writeIer_sound (txq : IntqSound s.txq) (input : IntqSound s.input)
    (sent : s.transmitted = s.txq.removed)
    (writing : ∀ thread, s.txq.activity thread ≠ .outside →
      s.writer = some thread ∧ ∃ op, s.txq.activity thread = .waiting op)
    (inside : ∀ thread, s.writer = some thread →
      ∃ byte, s.txq.activity thread = .waiting (.putc byte)) :
    SerialSound s.writeIer := by
  constructor
  · exact txq
  · exact input
  · exact sent
  · intro waiting
    change s.txq.q.intqEmpty = false at waiting
    change (!s.txq.q.intqEmpty) = true
    rw [waiting]
    rfl
  · rfl
  · exact writing
  · exact inside

omit [DecidableEq Thread] in
theorem SerialSound.writeIer (sound : SerialSound s) : SerialSound s.writeIer :=
  writeIer_sound sound.txq sound.input sound.sent sound.writing sound.inside

/-- A call of the writer has ended. -/
theorem SerialSound.wrote (sound : SerialSound s) {result : Option (IntqResult Thread)}
    (ends : IntqEnds s.txq thread (.putc byte) result)
    (own : s.writer = none ∨ s.writer = some thread) :
    ∃ after, result.map (s.afterPutc thread) = some after ∧
      SerialSound after := by
  have others : ∀ other, other ≠ thread →
      s.txq.activity other = .outside := by
    intro other different
    by_contra active
    have writes := (sound.writing other active).1
    rcases own with nobody | same
    · rw [nobody] at writes
      cases writes
    · rw [same] at writes
      cases writes
      exact different rfl
  cases ends with
  | @asleep after place kept txq moved waits =>
      have waits := waits (by
        rcases own with nobody | same
        · left
          by_contra held
          rcases Option.ne_none_iff_exists'.mp held with ⟨other, holds⟩
          rcases sound.txq.holding other holds with ⟨op, waiting⟩
          have writes := (sound.writing other (by simp [waiting])).1
          rw [nobody] at writes
          cases writes
        · right
          rcases sound.inside thread same with ⟨_, waiting⟩
          exact sound.txq.waiting thread _ waiting)
      subst waits
      refine ⟨_, rfl, ?_⟩
      constructor
      · exact txq
      · exact sound.input
      · exact sound.sent.trans kept.removed.symm
      · intro waiting
        apply sound.xmit
        change after.q.ring.isEmpty = false at waiting
        rw [kept.ring] at waiting
        exact waiting
      · exact sound.recv
      · intro other active
        change after.activity other ≠ .outside at active
        have same : other = thread := by
          by_contra different
          rw [moved, Function.update_of_ne different] at active
          exact active (others other different)
        rw [same]
        refine ⟨rfl, .putc byte, ?_⟩
        change after.activity thread = _
        rw [moved, Function.update_self]
      · intro other writes
        cases writes
        refine ⟨byte, ?_⟩
        change after.activity thread = _
        rw [moved, Function.update_self]
  | @returned after free ring inserted removed txq moved =>
      refine ⟨_, rfl, ?_⟩
      have outside : ∀ other, after.activity other = .outside := by
        intro other
        rw [moved]
        by_cases same : other = thread
        · rw [same, Function.update_self]
        · rw [Function.update_of_ne same]
          exact others other same
      apply writeIer_sound
      · exact txq
      · exact sound.input
      · exact sound.sent.trans removed.symm
      · intro other active
        exact absurd (outside other) active
      · intro other writes
        cases writes

/-- `serial_putc` with interrupts on. -/
theorem SerialSound.serialPutc (sound : SerialSound s) (nobody : s.writer = none) (byte : UInt8) :
    ∃ after, s.serialPutc thread byte = some after ∧ SerialSound after := by
  have ends : IntqEnds s.txq thread (.putc byte)
      (s.txq.loop thread (.putc byte)) := by
    apply sound.txq.call
    intro op waits
    have writes := (sound.writing thread (by simp [waits])).1
    rw [nobody] at writes
    cases writes
  exact sound.wrote ends (Or.inl nobody)

/-- A writer that has been woken goes on. -/
theorem SerialSound.resumeWriter (sound : SerialSound s) (own : s.writer = some thread) :
    ∃ after, (s.txq.resume thread).map (s.afterPutc thread) = some after ∧
      SerialSound after := by
  rcases sound.inside thread own with ⟨byte, waits⟩
  exact sound.wrote (sound.txq.resumeWaiting waits) (Or.inr own)

omit [DecidableEq Thread] in
/-- `serial_putc` with interrupts off. -/
theorem SerialSound.serialPutcOff (sound : SerialSound s) (byte : UInt8) :
    ∃ after, s.serialPutcOff byte = some after ∧ SerialSound after := by
  have put : ∀ room : Serial Thread, SerialSound room →
      room.txq.q.intqFull = false →
      ∃ after, (room.txq.inHandler (.putc byte)).map
          (fun done => Serial.writeIer { room with txq := done.1 }) =
            some after ∧ SerialSound after := by
    intro room sound free
    have free : room.txq.q.blocks (.putc byte) = false := free
    rw [IntqState.inHandler, free]
    refine ⟨_, by rw [if_neg Bool.false_ne_true, finish_eq free]; rfl, ?_⟩
    apply writeIer_sound
    · exact sound.txq.finished free
    · exact sound.input
    · exact sound.sent
    · exact sound.writing
    · exact sound.inside
  rw [Serial.serialPutcOff]
  cases full : s.txq.q.intqFull with
  | false =>
      rw [if_neg Bool.false_ne_true, Option.bind_some]
      exact put s sound full
  | true =>
      have length := (RingBuffer.isFull_iff s.txq.q.ring).mp full
      have waiting : s.txq.q.intqEmpty = false := by
        rw [← Bool.not_eq_true, Intq.intqEmpty, RingBuffer.isEmpty_iff,
          ← List.length_eq_zero_iff, RingBuffer.length_contents]
        intro zero
        rw [zero] at length
        cases length
      rcases sound.sendNext waiting with ⟨room, result, kept, less, _⟩
      rw [if_pos rfl, result, Option.bind_some]
      apply put room kept
      rw [← Bool.not_eq_true, Intq.intqFull, RingBuffer.isFull_iff]
      omega

omit [DecidableEq Thread] in
/-- The loop of `serial_flush` empties the queue. -/
theorem SerialSound.flushLoop (rounds : Nat) (sound : SerialSound s)
    (enough : s.txq.q.ring.length ≤ rounds) :
    ∃ after, s.flushLoop rounds = some after ∧ SerialSound after ∧
      after.txq.q.intqEmpty = true := by
  induction rounds generalizing s with
  | zero =>
      refine ⟨s, rfl, sound, ?_⟩
      rw [Intq.intqEmpty, RingBuffer.isEmpty_iff, ← List.length_eq_zero_iff,
        RingBuffer.length_contents]
      omega
  | succ rounds inductionHypothesis =>
      rw [Serial.flushLoop]
      cases empty : s.txq.q.intqEmpty with
      | true =>
          rw [if_pos rfl]
          exact ⟨s, rfl, sound, empty⟩
      | false =>
          rw [if_neg Bool.false_ne_true]
          rcases sound.sendNext empty with ⟨next, result, kept, less, _⟩
          rw [result, Option.bind_some]
          exact inductionHypothesis kept (by omega)

omit [DecidableEq Thread] in
/-- `serial_flush`. -/
theorem SerialSound.serialFlush (sound : SerialSound s) :
    ∃ after, s.serialFlush = some after ∧ SerialSound after ∧
      after.txq.q.intqEmpty = true :=
  sound.flushLoop _ (Nat.le_refl _)

omit [DecidableEq Thread] in
/-- `input_putc`. -/
theorem SerialSound.inputPutc (sound : SerialSound s) (key : UInt8)
    (room : s.input.q.intqFull = false) :
    ∃ after, s.inputPutc key = some after ∧ SerialSound after := by
  have free : s.input.q.blocks (.putc key) = false := room
  rw [Serial.inputPutc, room, if_neg Bool.false_ne_true, IntqState.inHandler, free]
  refine ⟨_, by rw [if_neg Bool.false_ne_true, finish_eq free]; rfl, ?_⟩
  apply writeIer_sound
  · exact sound.txq
  · exact sound.input.finished free
  · exact sound.sent
  · exact sound.writing
  · exact sound.inside

omit [DecidableEq Thread] in
theorem SerialSound.receiveLoop (incoming : List UInt8) (sound : SerialSound s) :
    ∃ after, s.receiveLoop incoming = some after ∧ SerialSound after := by
  induction incoming generalizing s with
  | nil => exact ⟨s, rfl, sound⟩
  | cons byte rest inductionHypothesis =>
      rw [Serial.receiveLoop]
      cases full : s.input.q.intqFull with
      | true =>
          rw [if_pos rfl]
          exact ⟨s, rfl, sound⟩
      | false =>
          rw [if_neg Bool.false_ne_true]
          rcases sound.inputPutc byte full with ⟨next, result, kept⟩
          rw [result, Option.bind_some]
          exact inductionHypothesis kept

omit [DecidableEq Thread] in
theorem SerialSound.transmitLoop (ready : Nat) (sound : SerialSound s) :
    ∃ after, s.transmitLoop ready = some after ∧ SerialSound after := by
  induction ready generalizing s with
  | zero => exact ⟨s, rfl, sound⟩
  | succ ready inductionHypothesis =>
      rw [Serial.transmitLoop]
      cases empty : s.txq.q.intqEmpty with
      | true =>
          rw [if_pos rfl]
          exact ⟨s, rfl, sound⟩
      | false =>
          rw [if_neg Bool.false_ne_true]
          rcases sound.sendNext empty with ⟨next, result, kept, _, _⟩
          rw [result, Option.bind_some]
          exact inductionHypothesis kept

omit [DecidableEq Thread] in
/-- `serial_interrupt`. -/
theorem SerialSound.serialInterrupt (sound : SerialSound s) (incoming : List UInt8) (ready : Nat) :
    ∃ after, s.serialInterrupt incoming ready = some after ∧
      SerialSound after := by
  rcases sound.receiveLoop incoming with ⟨received, result, kept⟩
  rcases kept.transmitLoop ready with ⟨sent, sending, kept⟩
  refine ⟨sent.writeIer, ?_, kept.writeIer⟩
  rw [Serial.serialInterrupt, result, Option.bind_some, sending]
  rfl

/-- A call of a reader has ended. -/
theorem SerialSound.read (sound : SerialSound s) {result : Option (IntqResult Thread)} {op : IntqOp}
    (ends : IntqEnds s.input thread op result) :
    ∃ after, result.map s.afterGetc = some after ∧ SerialSound after := by
  cases ends with
  | @asleep after _ kept input _ _ =>
      refine ⟨_, rfl, ?_⟩
      constructor
      · exact sound.txq
      · exact input
      · exact sound.sent
      · exact sound.xmit
      · change s.ierRecv = !after.q.ring.isFull
        rw [kept.ring]
        exact sound.recv
      · exact sound.writing
      · exact sound.inside
  | returned _ _ _ _ input _ =>
      refine ⟨_, rfl, ?_⟩
      apply writeIer_sound
      · exact sound.txq
      · exact input
      · exact sound.sent
      · exact sound.writing
      · exact sound.inside

/-- A reader that has been woken goes on, if it is in time. -/
theorem SerialSound.resumeReader (sound : SerialSound s)
    (inside : s.input.activity thread ≠ .outside) :
    (∃ after, (s.input.resume thread).map s.afterGetc = some after ∧
        SerialSound after) ∨
      ((s.input.resume thread).map s.afterGetc = none ∧
        inTime (.running s.input) (.resume thread) = false) := by
  cases activity : s.input.activity thread with
  | outside => exact absurd activity inside
  | waiting op => exact Or.inl (sound.read (sound.input.resumeWaiting activity))
  | acquiring op =>
      by_cases timely : s.input.q.lock.value ≠ 0 → s.input.q.blocks op = true
      · left
        rcases sound.input.resumeAcquiring activity timely with ⟨after, result, kept, input⟩
        rw [result]
        refine ⟨_, rfl, ?_⟩
        constructor
        · exact sound.txq
        · exact input
        · exact sound.sent
        · exact sound.xmit
        · change s.ierRecv = !after.q.ring.isFull
          rw [kept.ring]
          exact sound.recv
        · exact sound.writing
        · exact sound.inside
      · right
        rw [Classical.not_imp, Bool.not_eq_true] at timely
        rw [resume_late activity timely.1 timely.2, inTime, activity]
        simp [timely.1, timely.2]

end Sound

/-! ## Steps and runs -/

section Runs

variable {Thread : Type u} [DecidableEq Thread]

/-- A move ends in a sound state, or it is that of a reader that gets the lock of
the input buffer too late. -/
def MoveSound (s : Serial Thread) (move : SerialMove Thread) : SerialMachine Thread → Prop
  | .running after => SerialSound after
  | .panicked => ∃ thread, move = .resumeReader thread ∧
      inTime (.running s.input) (.resume thread) = false

theorem moveSound_of_some {s : Serial Thread} {move : SerialMove Thread}
    {result : Option (Serial Thread)} (sound : ∃ after, result = some after ∧ SerialSound after) :
    MoveSound s move (SerialMachine.result result) := by
  rcases sound with ⟨after, same, sound⟩
  rw [same]
  exact sound

theorem SerialSound.step {s : Serial Thread} (sound : SerialSound s)
    {move : SerialMove Thread} {target : SerialMachine Thread}
    (stepped : SerialMachine.step s move = some target) :
    MoveSound s move target := by
  cases move with
  | putc thread byte =>
      rw [SerialMachine.step] at stepped
      split at stepped
      · rename_i nobody
        cases stepped
        exact moveSound_of_some (sound.serialPutc nobody byte)
      · cases stepped
  | putcOff byte =>
      cases stepped
      exact moveSound_of_some (sound.serialPutcOff byte)
  | resumeWriter thread =>
      rw [SerialMachine.step] at stepped
      split at stepped
      · rename_i guard
        rw [Bool.and_eq_true, decide_eq_true_eq] at guard
        cases stepped
        exact moveSound_of_some (sound.resumeWriter guard.1)
      · cases stepped
  | interrupt incoming ready =>
      cases stepped
      exact moveSound_of_some (sound.serialInterrupt incoming ready)
  | inputGetc thread =>
      rw [SerialMachine.step] at stepped
      split at stepped
      · rename_i outside
        cases stepped
        apply moveSound_of_some
        apply sound.read
        apply sound.input.call
        intro op waits
        rw [outside] at waits
        cases waits
      · cases stepped
  | resumeReader thread =>
      rw [SerialMachine.step] at stepped
      split at stepped
      · rename_i guard
        rw [Bool.and_eq_true, decide_eq_true_eq] at guard
        cases stepped
        rcases sound.resumeReader guard.1 with kept | late
        · exact moveSound_of_some kept
        · rw [late.1]
          exact ⟨thread, rfl, late.2⟩
      · cases stepped
  | inputPutc key =>
      rw [SerialMachine.step] at stepped
      split at stepped
      · cases stepped
      · rename_i room
        cases stepped
        exact moveSound_of_some
          (sound.inputPutc key (eq_false_of_ne_true room))
  | flush =>
      cases stepped
      rcases sound.serialFlush with ⟨after, result, kept, _⟩
      exact moveSound_of_some ⟨after, result, kept⟩

/-- A queue that runs is sound: a run ends where an assertion fails. -/
theorem intq_running_sound {s : IntqState Thread}
    (reachable : (intqSystem Thread).Reachable (.running s)) : IntqSound s := by
  have sound : ∀ state, (intqSystem Thread).Reachable state →
      ∀ s, state = .running s → IntqSound s := by
    intro state reachable
    apply reachable.invariant fun state => ∀ s, state = .running s → IntqSound s
    · rintro start rfl s same
      cases same
      exact intqInit_sound
    · intro before move after _ sound stepped s same
      cases before with
      | panicked => cases stepped
      | running before =>
          have sound : MachineSound (.running before) := sound before rfl
          by_cases timely : inTime (.running before) move = true
          · have kept := sound.step timely stepped
            rw [same] at kept
            exact kept
          · have failed := (sound.late stepped).mpr (eq_false_of_ne_true timely)
            rw [failed] at same
            cases same
  exact sound _ reachable s rfl

omit [DecidableEq Thread] in
theorem startSerial_sound {input : IntqState Thread}
    (sound : IntqSound input) : SerialSound (startSerial input) := by
  constructor
  · exact intqInit_sound
  · exact sound
  · rfl
  · intro waiting
    cases waiting
  · rfl
  · intro thread active
    exact absurd rfl active
  · intro thread writes
    cases writes

/-- What is shown of the port in every state. -/
structure SerialSafe (s : Serial Thread) : Prop where
  order : s.txq.inserted = s.transmitted ++ s.txq.q.ring.contents
  xmit : s.txq.q.ring.contents ≠ [] → s.ierXmit = true
  recv : s.ierRecv = true ↔ s.input.q.intqFull = false

omit [DecidableEq Thread] in
theorem SerialSound.safe {s : Serial Thread} (sound : SerialSound s) : SerialSafe s := by
  constructor
  · rw [sound.sent]
    exact sound.txq.log
  · intro waiting
    apply sound.xmit
    rw [← Bool.not_eq_true, Intq.intqEmpty, RingBuffer.isEmpty_iff]
    exact waiting
  · rw [sound.recv, Bool.not_eq_true']

/-- In every run the bytes are sent in order, the transmit interrupt is enabled
while there are bytes to send, and the receive interrupt is enabled exactly while
there is room for input.  An assertion fails only where a reader gets the lock of
the input buffer too late. -/
theorem serial_safe {s : Serial Thread} (reachable : (serialSystem Thread).Reachable (.running s)) :
    SerialSafe s ∧
      ∀ move, (serialSystem Thread).step (.running s) move = some .panicked →
        ∃ thread, move = .resumeReader thread ∧
          inTime (.running s.input) (.resume thread) = false := by
  have sound : SerialSound s := by
    have all : ∀ state, (serialSystem Thread).Reachable state →
        ∀ s, state = .running s → SerialSound s := by
      intro state reachable
      apply reachable.invariant fun state => ∀ s, state = .running s → SerialSound s
      · rintro start ⟨input, before, rfl⟩ s same
        cases same
        exact startSerial_sound (intq_running_sound before)
      · intro before move after _ sound stepped s same
        cases before with
        | panicked => cases stepped
        | running before =>
            have moved := (sound before rfl).step stepped
            rw [same] at moved
            exact moved
    exact all _ reachable s rfl
  exact ⟨sound.safe, fun move stepped => sound.step stepped⟩

/-- A byte is put and sent, another one is put, and a key comes. -/
theorem serial_safe_sending :
    ∃ s : Serial ℕ, s.transmitted = [65] ∧ s.txq.q.ring.contents = [66] ∧
      SerialSafe s := by
  have passed : (((serialSystem ℕ).run
      (.running (startSerial
        { q := Intq.intqInit
          activity := fun _ => .outside
          inserted := []
          removed := [] }))
      [.putc 1 65, .interrupt [97] 1, .putcOff 66]).any fun state =>
        match state with
        | .running s => s.transmitted = [65] && s.txq.q.ring.contents = [66]
        | .panicked => false) = true := by
    decide +kernel
  rcases (Option.any_eq_true _ _).mp passed with ⟨state, execution, tested⟩
  cases state with
  | panicked => cases tested
  | running s =>
      have reachable : (serialSystem ℕ).Reachable (.running s) := by
        apply TransitionSystem.Reachable.of_run _ execution
        exact .initial ⟨_, .initial rfl, rfl⟩
      rw [Bool.and_eq_true, decide_eq_true_eq, decide_eq_true_eq] at tested
      exact ⟨s, tested.1, tested.2, (serial_safe reachable).1⟩

end Runs

end CS162.Devices

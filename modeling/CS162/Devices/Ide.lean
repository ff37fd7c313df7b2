import Mathlib.Data.List.Basic
import Mathlib.Logic.Function.Basic
import CS162.Foundation.TransitionSystem
import CS162.Threads.Semaphore

/-!
# Commands of an ATA channel

`ide_read` and `ide_write` of `devices/ide.c` on one channel, with the interrupt
handler.  Threads can be preempted between any two steps.  The drive raises one
interrupt for each command, and there may be others while no command is
outstanding.  A `PANIC` or a failed `ASSERT` is `none`.
-/

namespace CS162.Devices

open CS162.Foundation CS162.Threads

universe u

/-- `CMD_READ_SECTOR_RETRY` of `ide_read` or `CMD_WRITE_SECTOR_RETRY` of
`ide_write`. -/
inductive IdeCommand where
  | read
  | write
  deriving DecidableEq

/-- The next step of a thread: in the loop of `sema_down` in `lock_acquire` and at
`lock->holder`; at `select_sector`; at the two steps of `issue_pio_command`; at
`output_sector`; in the loop of `sema_down` for the completion; at
`input_sector`; in `lock_release`.  From the command on, its number is known. -/
inductive IdePhase where
  | outside
  | locking (command : IdeCommand)
  | locked (command : IdeCommand)
  | selecting (command : IdeCommand)
  | expecting (command : IdeCommand)
  | commanding (command : IdeCommand)
  | sending (number : Nat)
  | waiting (command : IdeCommand) (number : Nat)
  | receiving (number : Nat)
  | releasing (number : Nat)
  | upping (number : Nat)
  deriving DecidableEq

/-- `struct channel` and its threads; how many commands have been issued, the one
whose interrupt the drive has still to raise, the one that no `sema_down` has
returned for, and the commands whose interrupts have been raised. -/
structure Channel (Thread : Type u) where
  lock : Semaphore Thread
  holder : Option Thread
  expectingInterrupt : Bool
  completionWait : Semaphore Thread
  phase : Thread → IdePhase
  issued : Nat
  pending : Option Nat
  outstanding : Option Nat
  raised : List Nat

namespace Channel

variable {Thread : Type u} [DecidableEq Thread]

def setPhase (c : Channel Thread) (thread : Thread) (phase : IdePhase) : Channel Thread :=
  { c with phase := Function.update c.phase thread phase }

/-- `interrupt_handler`. -/
def interruptHandler (c : Channel Thread) : Channel Thread :=
  if c.expectingInterrupt then
    { c with completionWait := c.completionWait.semaUp }
  else c

/-- The next step of a thread, where `ready` is the result of
`wait_while_busy`. -/
def advance (c : Channel Thread) (thread : Thread) (ready : Bool) : Option (Channel Thread) :=
  match c.phase thread with
  | .outside => some c
  | .locking command =>
      if c.lock.value = 0 then some { c with lock := c.lock.enqueue thread }
      else
        some
          ({ c with lock := c.lock.take }.setPhase thread (.locked command))
  | .locked command =>
      some
        ({ c with holder := some thread }.setPhase thread (.selecting command))
  | .selecting command => some (c.setPhase thread (.expecting command))
  | .expecting command =>
      some
        ({ c with expectingInterrupt := true }.setPhase thread
          (.commanding command))
  | .commanding command =>
      let next :=
        match command with
        | .read => IdePhase.waiting .read c.issued
        | .write => IdePhase.sending c.issued
      some
        ({ c with
            issued := c.issued + 1
            pending := some c.issued
            outstanding := some c.issued }.setPhase thread next)
  | .sending number =>
      if ready then some (c.setPhase thread (.waiting .write number)) else none
  | .waiting command number =>
      if c.completionWait.value = 0 then
        some { c with completionWait := c.completionWait.enqueue thread }
      else
        let next :=
          match command with
          | .read => IdePhase.receiving number
          | .write => IdePhase.releasing number
        some
          ({ c with
              completionWait := c.completionWait.take
              outstanding := none }.setPhase thread next)
  | .receiving number =>
      if ready then some (c.setPhase thread (.releasing number)) else none
  | .releasing number =>
      if c.holder = some thread then
        some ({ c with holder := none }.setPhase thread (.upping number))
      else none
  | .upping _ =>
      some ({ c with lock := c.lock.semaUp }.setPhase thread .outside)

/-- The thread sleeps, or is in no call. -/
def rests (c : Channel Thread) (thread : Thread) : Bool :=
  c.phase thread = .outside || thread ∈ c.lock.waiters || thread ∈ c.completionWait.waiters

end Channel

inductive IdeMove (Thread : Type u) where
  | call (thread : Thread) (command : IdeCommand)
  | advance (thread : Thread) (ready : Bool)
  | complete
  | spurious

inductive IdeMachine (Thread : Type u) where
  | running (c : Channel Thread)
  | panicked

namespace IdeMachine

variable {Thread : Type u} [DecidableEq Thread]

def result : Option (Channel Thread) → IdeMachine Thread
  | some c => .running c
  | none => .panicked

/-- One move: a thread calls `ide_read` or `ide_write` or goes on, the drive raises
the interrupt of its command, or there is another interrupt. -/
def step (c : Channel Thread) : IdeMove Thread → Option (IdeMachine Thread)
  | .call thread command =>
      if c.phase thread = .outside then
        -- `lock_acquire` asserts that the thread does not hold the lock
        some (result (if c.holder = some thread then none
          else some (c.setPhase thread (.locking command))))
      else none
  | .advance thread ready =>
      if c.rests thread then none else some (result (c.advance thread ready))
  | .complete =>
      c.pending.map fun number =>
        .running
          { c.interruptHandler with
            pending := none
            raised := c.raised ++ [number] }
  | .spurious =>
      if c.outstanding = none then some (.running c.interruptHandler) else none

end IdeMachine

/-- A channel when its lock is free and no command is outstanding.  Where a disk
has been identified, `expecting_interrupt` is set already. -/
def startChannel {Thread : Type u} (expectingInterrupt : Bool) : Channel Thread where
  lock := Semaphore.semaInit 1
  holder := none
  expectingInterrupt := expectingInterrupt
  completionWait := Semaphore.semaInit 0
  phase := fun _ => .outside
  issued := 0
  pending := none
  outstanding := none
  raised := []

/-- All runs on one channel. -/
def ideSystem (Thread : Type u) [DecidableEq Thread] :
    TransitionSystem (IdeMachine Thread) (IdeMove Thread) where
  initial state := ∃ expecting, state = .running (startChannel expecting)
  step state move :=
    match state with
    | .running c => IdeMachine.step c move
    | .panicked => none

/-- There is no other interrupt while `expecting_interrupt` is set. -/
def expectedOnly {Thread : Type u} (state : IdeMachine Thread) (move : IdeMove Thread) : Bool :=
  match state, move with
  | .running c, .spurious => !c.expectingInterrupt
  | _, _ => true

/-! ## The invariant -/

/-- The thread has downed the semaphore of the lock and not upped it yet. -/
def IdePhase.inLock : IdePhase → Prop
  | .outside => False
  | .locking _ => False
  | _ => True

/-- The thread is the holder of the lock. -/
def IdePhase.holds : IdePhase → Prop
  | .outside => False
  | .locking _ => False
  | .locked _ => False
  | .upping _ => False
  | _ => True

/-- The command that the thread has issued and not been woken for. -/
def IdePhase.command : IdePhase → Option Nat
  | .sending number => some number
  | .waiting _ number => some number
  | _ => none

/-- The command that the thread has been woken for. -/
def IdePhase.served : IdePhase → Option Nat
  | .receiving number => some number
  | .releasing number => some number
  | .upping number => some number
  | _ => none

theorem IdePhase.holds.inLock {phase : IdePhase} (holds : phase.holds) :
    phase.inLock := by
  cases phase with
  | outside => cases holds
  | locking => cases holds
  | _ => trivial

/-- The counts of the completion agree with the drive. -/
structure CompletionSound {Thread : Type u} (c : Channel Thread) : Prop where
  idle : c.outstanding = none → c.pending = none ∧ c.completionWait.value = 0
  busy : ∀ number, c.outstanding = some number →
    c.expectingInterrupt = true ∧
      ((c.pending = some number ∧ c.completionWait.value = 0) ∨
        (c.pending = none ∧ c.completionWait.value = 1 ∧ number ∈ c.raised))

structure ChannelSound {Thread : Type u} (c : Channel Thread)
    (owner : Option Thread) : Prop where
  value : c.lock.value = if owner = none then 1 else 0
  inLock : ∀ thread, (c.phase thread).inLock ↔ owner = some thread
  holder : ∀ thread, (c.phase thread).holds ↔ c.holder = some thread
  command : ∀ thread, owner = some thread → c.outstanding = (c.phase thread).command
  free : owner = none → c.outstanding = none
  expected : ∀ thread command, c.phase thread = .commanding command → c.expectingInterrupt = true
  completion : CompletionSound c
  served : ∀ thread number, (c.phase thread).served = some number → number ∈ c.raised

section Sound

variable {Thread : Type u} {c : Channel Thread} {owner : Option Thread}

theorem startChannel_sound (expecting : Bool) :
    ChannelSound (startChannel expecting : Channel Thread) none := by
  constructor
  · rfl
  · intro thread
    simp [startChannel, IdePhase.inLock]
  · intro thread
    simp [startChannel, IdePhase.holds]
  · intro thread never
    cases never
  · exact fun _ => rfl
  · intro thread command never
    cases never
  · constructor
    · exact fun _ => ⟨rfl, rfl⟩
    · intro number never
      cases never
  · intro thread number never
    cases never

variable [DecidableEq Thread] {thread : Thread}

omit [DecidableEq Thread] in
theorem ChannelSound.nobodyElse (sound : ChannelSound c owner)
    (owns : owner = some thread) {other : Thread} (different : other ≠ thread) :
    ¬(c.phase other).inLock := by
  rw [sound.inLock other, owns]
  intro same
  cases same
  exact different rfl

/-- One thread takes a step. -/
theorem ChannelSound.update (sound : ChannelSound c owner)
    {c' : Channel Thread} {owner' : Option Thread} (phase : IdePhase)
    (moved : c'.phase = Function.update c.phase thread phase)
    (value : c'.lock.value = if owner' = none then 1 else 0)
    (inLock : phase.inLock ↔ owner' = some thread) (holder : phase.holds ↔ c'.holder = some thread)
    (others : ∀ other, other ≠ thread →
      (owner' = some other ↔ owner = some other) ∧
        (c'.holder = some other ↔ c.holder = some other) ∧
          (owner = some other → c'.outstanding = c.outstanding))
    (command : owner' = some thread → c'.outstanding = phase.command)
    (free : owner' = none → c'.outstanding = none)
    (expecting : c.expectingInterrupt = true → c'.expectingInterrupt = true)
    (expected : ∀ command, phase = .commanding command → c'.expectingInterrupt = true)
    (completion : CompletionSound c') (raised : ∀ number, number ∈ c.raised → number ∈ c'.raised)
    (served : ∀ number, phase.served = some number → number ∈ c'.raised) :
    ChannelSound c' owner' := by
  have record : ∀ other, c'.phase other = if other = thread then phase else c.phase other := by
    intro other
    rw [moved, Function.update_apply]
  constructor
  · exact value
  · intro other
    rw [record]
    by_cases here : other = thread
    · rw [if_pos here, here]
      exact inLock
    · rw [if_neg here, (others other here).1]
      exact sound.inLock other
  · intro other
    rw [record]
    by_cases here : other = thread
    · rw [if_pos here, here]
      exact holder
    · rw [if_neg here, (others other here).2.1]
      exact sound.holder other
  · intro other owns
    rw [record]
    by_cases here : other = thread
    · rw [if_pos here]
      rw [here] at owns
      exact command owns
    · have owned := (others other here).1.mp owns
      rw [if_neg here, (others other here).2.2 owned]
      exact sound.command other owned
  · exact free
  · intro other issuing at_command
    rw [record] at at_command
    by_cases here : other = thread
    · rw [if_pos here] at at_command
      exact expected issuing at_command
    · rw [if_neg here] at at_command
      exact expecting (sound.expected other issuing at_command)
  · exact completion
  · intro other number wasServed
    rw [record] at wasServed
    by_cases here : other = thread
    · rw [if_pos here] at wasServed
      exact served number wasServed
    · rw [if_neg here] at wasServed
      exact raised number (sound.served other number wasServed)

/-- A thread goes to another point, and the command it waits for stays the
same. -/
theorem ChannelSound.setPhase (sound : ChannelSound c owner)
    {phase : IdePhase} (inLock : phase.inLock ↔ (c.phase thread).inLock)
    (holds : phase.holds ↔ (c.phase thread).holds)
    (command : phase.command = (c.phase thread).command)
    (served : phase.served = (c.phase thread).served)
    (expected : ∀ command, phase ≠ .commanding command) :
    ChannelSound (c.setPhase thread phase) owner := by
  apply sound.update phase
  · rfl
  · exact sound.value
  · rw [inLock]
    exact sound.inLock thread
  · rw [holds]
    exact sound.holder thread
  · intro other _
    exact ⟨Iff.rfl, Iff.rfl, fun _ => rfl⟩
  · intro owns
    rw [command]
    exact sound.command thread owns
  · exact sound.free
  · exact id
  · intro issued same
    exact absurd same (expected issued)
  · exact ⟨sound.completion.idle, sound.completion.busy⟩
  · exact fun _ => id
  · intro number isServed
    rw [served] at isServed
    exact sound.served thread number isServed

omit [DecidableEq Thread] in
/-- The thread owns the lock in all of its critical section. -/
theorem ChannelSound.owns (sound : ChannelSound c owner)
    (inside : (c.phase thread).inLock) : owner = some thread :=
  (sound.inLock thread).mp inside

omit [DecidableEq Thread] in
theorem CompletionSound.congr {c' : Channel Thread} (sound : CompletionSound c)
    (outstanding : c'.outstanding = c.outstanding) (pending : c'.pending = c.pending)
    (value : c'.completionWait.value = c.completionWait.value) (raised : c'.raised = c.raised)
    (expecting : c.expectingInterrupt = true → c'.expectingInterrupt = true) :
    CompletionSound c' := by
  constructor
  · rw [outstanding, pending, value]
    exact sound.idle
  · intro number
    rw [outstanding, pending, value, raised]
    intro busy
    rcases sound.busy number busy with ⟨expects, served⟩
    exact ⟨expecting expects, served⟩

/-- The lock is free: the thread downs its semaphore. -/
theorem ChannelSound.down (sound : ChannelSound c owner)
    {command : IdeCommand} (at_lock : c.phase thread = .locking command)
    (positive : c.lock.value ≠ 0) :
    ChannelSound
      (({ c with lock := c.lock.take } : Channel Thread).setPhase thread
        (.locked command)) (some thread) := by
  have nobody : owner = none := by
    by_contra owned
    rw [sound.value, if_neg owned] at positive
    exact positive rfl
  apply sound.update (.locked command)
  · rfl
  · change c.lock.value - 1 = _
    rw [sound.value, nobody, if_pos rfl]
    rfl
  · simp [IdePhase.inLock]
  · change _ ↔ c.holder = some thread
    rw [← sound.holder thread, at_lock]
    rfl
  · intro other different
    refine ⟨?_, Iff.rfl, fun _ => rfl⟩
    simp [nobody, Ne.symm different]
  · intro _
    exact sound.free nobody
  · intro never
    cases never
  · exact id
  · intro issued same
    cases same
  · exact sound.completion.congr rfl rfl rfl rfl id
  · exact fun _ => id
  · intro number never
    cases never

/-- The thread becomes the holder. -/
theorem ChannelSound.hold (sound : ChannelSound c owner)
    {command : IdeCommand} (at_holder : c.phase thread = .locked command) :
    ChannelSound
      (({ c with holder := some thread } : Channel Thread).setPhase thread
        (.selecting command)) owner := by
  have owns : owner = some thread := by
    apply sound.owns
    rw [at_holder]
    trivial
  apply sound.update (.selecting command)
  · rfl
  · exact sound.value
  · simp [IdePhase.inLock, owns]
  · simp [IdePhase.holds, Channel.setPhase]
  · intro other different
    refine ⟨Iff.rfl, ?_, fun _ => rfl⟩
    rw [← sound.holder other]
    constructor
    · intro same
      cases same
      exact absurd rfl different
    · intro holds
      exact absurd holds.inLock (sound.nobodyElse owns different)
  · intro _
    change c.outstanding = none
    rw [sound.command thread owns, at_holder]
    rfl
  · exact sound.free
  · exact id
  · intro issued same
    cases same
  · exact sound.completion.congr rfl rfl rfl rfl id
  · exact fun _ => id
  · intro number never
    cases never

/-- An interrupt is expected from now on. -/
theorem ChannelSound.expect (sound : ChannelSound c owner)
    {command : IdeCommand} (at_flag : c.phase thread = .expecting command) :
    ChannelSound
      (({ c with expectingInterrupt := true } : Channel Thread).setPhase thread
        (.commanding command)) owner := by
  have owns : owner = some thread := by
    apply sound.owns
    rw [at_flag]
    trivial
  apply sound.update (.commanding command)
  · rfl
  · exact sound.value
  · simp [IdePhase.inLock, owns]
  · change _ ↔ c.holder = some thread
    rw [← sound.holder thread, at_flag]
    rfl
  · intro other _
    exact ⟨Iff.rfl, Iff.rfl, fun _ => rfl⟩
  · intro _
    change c.outstanding = none
    rw [sound.command thread owns, at_flag]
    rfl
  · exact sound.free
  · exact fun _ => rfl
  · exact fun _ _ => rfl
  · exact sound.completion.congr rfl rfl rfl rfl (fun _ => rfl)
  · exact fun _ => id
  · intro number never
    cases never

/-- A command is issued, and no completion has been counted yet. -/
theorem ChannelSound.issue (sound : ChannelSound c owner)
    {command : IdeCommand} (at_command : c.phase thread = .commanding command)
    {phase : IdePhase} (names : phase.command = some c.issued)
    (inLock : phase.inLock) (holds : phase.holds) (unserved : phase.served = none) :
    ChannelSound
      (({ c with
          issued := c.issued + 1
          pending := some c.issued
          outstanding := some c.issued } : Channel Thread).setPhase thread
        phase) owner := by
  have owns : owner = some thread := by
    apply sound.owns
    rw [at_command]
    trivial
  have idle : c.outstanding = none := by
    rw [sound.command thread owns, at_command]
    rfl
  apply sound.update phase
  · rfl
  · exact sound.value
  · simp [inLock, owns]
  · change _ ↔ c.holder = some thread
    rw [← sound.holder thread, at_command]
    exact ⟨fun _ => trivial, fun _ => holds⟩
  · intro other different
    refine ⟨Iff.rfl, Iff.rfl, fun otherOwns => ?_⟩
    rw [owns] at otherOwns
    cases otherOwns
    exact absurd rfl different
  · exact fun _ => names.symm
  · intro nobody
    rw [owns] at nobody
    cases nobody
  · exact id
  · intro issued same
    rw [same] at names
    cases names
  · constructor
    · intro never
      cases never
    · intro number same
      cases same
      refine ⟨sound.expected thread command at_command, Or.inl ⟨rfl, ?_⟩⟩
      exact (sound.completion.idle idle).2
  · exact fun _ => id
  · intro number isServed
    rw [unserved] at isServed
    cases isServed

/-- The completion of the command of the thread has been counted. -/
theorem ChannelSound.wake (sound : ChannelSound c owner) {command : IdeCommand} {number : Nat}
    (at_wait : c.phase thread = .waiting command number)
    (counted : c.completionWait.value ≠ 0) {phase : IdePhase}
    (names : phase.command = none) (inLock : phase.inLock)
    (holds : phase.holds) (served : phase.served = some number) :
    ChannelSound
      (({ c with
          completionWait := c.completionWait.take
          outstanding := none } : Channel Thread).setPhase thread phase)
      owner := by
  have owns : owner = some thread := by
    apply sound.owns
    rw [at_wait]
    trivial
  have busy : c.outstanding = some number := by
    rw [sound.command thread owns, at_wait]
    rfl
  rcases sound.completion.busy number busy with ⟨_, ⟨_, zero⟩ | ⟨nothing, one, raised⟩⟩
  · exact absurd zero counted
  · apply sound.update phase
    · rfl
    · exact sound.value
    · simp [inLock, owns]
    · change _ ↔ c.holder = some thread
      rw [← sound.holder thread, at_wait]
      exact ⟨fun _ => trivial, fun _ => holds⟩
    · intro other different
      refine ⟨Iff.rfl, Iff.rfl, fun otherOwns => ?_⟩
      rw [owns] at otherOwns
      cases otherOwns
      exact absurd rfl different
    · exact fun _ => names.symm
    · exact fun _ => rfl
    · exact id
    · intro issued same
      rw [same] at served
      cases served
    · constructor
      · intro _
        refine ⟨nothing, ?_⟩
        change c.completionWait.value - 1 = 0
        rw [one]
      · intro other never
        cases never
    · exact fun _ => id
    · intro other isServed
      rw [served] at isServed
      cases isServed
      exact raised

/-- The thread is not the holder any more. -/
theorem ChannelSound.release (sound : ChannelSound c owner) {number : Nat}
    (at_release : c.phase thread = .releasing number) :
    c.holder = some thread ∧
      ChannelSound
        (({ c with holder := none } : Channel Thread).setPhase thread
          (.upping number)) owner := by
  have owns : owner = some thread := by
    apply sound.owns
    rw [at_release]
    trivial
  have held : c.holder = some thread := by
    apply (sound.holder thread).mp
    rw [at_release]
    trivial
  refine ⟨held, ?_⟩
  apply sound.update (.upping number)
  · rfl
  · exact sound.value
  · simp [IdePhase.inLock, owns]
  · simp [IdePhase.holds, Channel.setPhase]
  · intro other different
    refine ⟨Iff.rfl, ?_, fun _ => rfl⟩
    rw [held]
    simp [Channel.setPhase, Ne.symm different]
  · intro _
    change c.outstanding = none
    rw [sound.command thread owns, at_release]
    rfl
  · exact sound.free
  · exact id
  · intro issued same
    cases same
  · exact sound.completion.congr rfl rfl rfl rfl id
  · exact fun _ => id
  · intro other isServed
    apply sound.served thread other
    rw [at_release]
    exact isServed

/-- The semaphore of the lock is upped. -/
theorem ChannelSound.up (sound : ChannelSound c owner) {number : Nat}
    (at_up : c.phase thread = .upping number) :
    ChannelSound
      (({ c with lock := c.lock.semaUp } : Channel Thread).setPhase thread
        .outside) none := by
  have owns : owner = some thread := by
    apply sound.owns
    rw [at_up]
    trivial
  have idle : c.outstanding = none := by
    rw [sound.command thread owns, at_up]
    rfl
  apply sound.update .outside
  · rfl
  · change c.lock.semaUp.value = 1
    rw [Semaphore.semaUp_value, sound.value, owns, if_neg (by simp)]
    decide
  · simp [IdePhase.inLock]
  · change _ ↔ c.holder = some thread
    rw [← sound.holder thread, at_up]
    rfl
  · intro other different
    refine ⟨?_, Iff.rfl, fun _ => rfl⟩
    simp [owns, Ne.symm different]
  · intro never
    cases never
  · exact fun _ => idle
  · exact id
  · intro issued same
    cases same
  · exact sound.completion.congr rfl rfl rfl rfl id
  · exact fun _ => id
  · intro other never
    cases never

omit [DecidableEq Thread] in
/-- Nothing but the waiters of a semaphore changes. -/
theorem ChannelSound.enqueued (sound : ChannelSound c owner)
    (lock completionWait : Semaphore Thread) (lockValue : lock.value = c.lock.value)
    (completionValue : completionWait.value = c.completionWait.value) :
    ChannelSound
      { c with lock := lock, completionWait := completionWait } owner := by
  constructor
  · exact lockValue.trans sound.value
  · exact sound.inLock
  · exact sound.holder
  · exact sound.command
  · exact sound.free
  · exact sound.expected
  · exact sound.completion.congr rfl rfl completionValue rfl id
  · exact sound.served

omit [DecidableEq Thread] in
/-- The drive raises the interrupt of its command, and the handler counts it. -/
theorem ChannelSound.complete (sound : ChannelSound c owner) {number : Nat}
    (pending : c.pending = some number) :
    ChannelSound
      { c.interruptHandler with
        pending := none
        raised := c.raised ++ [number] } owner := by
  have busy : ∃ other, c.outstanding = some other := by
    cases outstanding : c.outstanding with
    | none =>
        have nothing := (sound.completion.idle outstanding).1
        rw [pending] at nothing
        cases nothing
    | some other => exact ⟨other, rfl⟩
  rcases busy with ⟨other, outstanding⟩
  rcases sound.completion.busy other outstanding with ⟨expects, ⟨same, zero⟩ | ⟨nothing, _, _⟩⟩
  · rw [pending] at same
    cases same
    rw [Channel.interruptHandler, if_pos expects]
    constructor
    · exact sound.value
    · exact sound.inLock
    · exact sound.holder
    · exact sound.command
    · exact sound.free
    · exact sound.expected
    · constructor
      · intro idle
        rw [outstanding] at idle
        cases idle
      · intro third isThird
        rw [outstanding] at isThird
        cases isThird
        refine ⟨expects, Or.inr ⟨rfl, ?_, ?_⟩⟩
        · change c.completionWait.semaUp.value = 1
          rw [Semaphore.semaUp_value, zero]
          decide
        · exact List.mem_append_right _ (List.mem_singleton_self number)
    · intro other third isServed
      exact List.mem_append_left _ (sound.served other third isServed)
  · rw [pending] at nothing
    cases nothing

/-- The next step of a thread: only a drive that fails makes it panic. -/
theorem ChannelSound.advance (sound : ChannelSound c owner) (thread : Thread) (ready : Bool) :
    (∃ after owner', c.advance thread ready = some after ∧
        ChannelSound after owner') ∨
      (c.advance thread ready = none ∧ ready = false) := by
  cases phase : c.phase thread with
  | outside =>
      left
      refine ⟨c, owner, ?_, sound⟩
      rw [Channel.advance, phase]
  | locking command =>
      left
      rw [Channel.advance, phase]
      dsimp only
      by_cases taken : c.lock.value = 0
      · rw [if_pos taken]
        exact ⟨_, owner, rfl, sound.enqueued _ _ rfl rfl⟩
      · rw [if_neg taken]
        exact ⟨_, some thread, rfl, sound.down phase taken⟩
  | locked command =>
      left
      rw [Channel.advance, phase]
      exact ⟨_, owner, rfl, sound.hold phase⟩
  | selecting command =>
      left
      rw [Channel.advance, phase]
      refine ⟨_, owner, rfl, sound.setPhase ?_ ?_ ?_ ?_ ?_⟩
      · rw [phase]
        rfl
      · rw [phase]
        rfl
      · rw [phase]
        rfl
      · rw [phase]
        rfl
      · intro other same
        cases same
  | expecting command =>
      left
      rw [Channel.advance, phase]
      exact ⟨_, owner, rfl, sound.expect phase⟩
  | commanding command =>
      left
      rw [Channel.advance, phase]
      cases command with
      | read =>
          exact ⟨_, owner, rfl, sound.issue phase rfl trivial trivial rfl⟩
      | write =>
          exact ⟨_, owner, rfl, sound.issue phase rfl trivial trivial rfl⟩
  | sending number =>
      rw [Channel.advance, phase]
      cases ready with
      | false => exact Or.inr ⟨rfl, rfl⟩
      | true =>
          left
          refine ⟨_, owner, rfl, sound.setPhase ?_ ?_ ?_ ?_ ?_⟩
          · rw [phase]
            rfl
          · rw [phase]
            rfl
          · rw [phase]
            rfl
          · rw [phase]
            rfl
          · intro other same
            cases same
  | waiting command number =>
      left
      rw [Channel.advance, phase]
      dsimp only
      by_cases uncounted : c.completionWait.value = 0
      · rw [if_pos uncounted]
        exact ⟨_, owner, rfl, sound.enqueued _ _ rfl rfl⟩
      · rw [if_neg uncounted]
        cases command with
        | read =>
            exact ⟨_, owner, rfl, sound.wake phase uncounted rfl trivial trivial rfl⟩
        | write =>
            exact ⟨_, owner, rfl, sound.wake phase uncounted rfl trivial trivial rfl⟩
  | receiving number =>
      rw [Channel.advance, phase]
      cases ready with
      | false => exact Or.inr ⟨rfl, rfl⟩
      | true =>
          left
          refine ⟨_, owner, rfl, sound.setPhase ?_ ?_ ?_ ?_ ?_⟩
          · rw [phase]
            rfl
          · rw [phase]
            rfl
          · rw [phase]
            rfl
          · rw [phase]
            rfl
          · intro other same
            cases same
  | releasing number =>
      left
      have released := sound.release phase
      rw [Channel.advance, phase]
      dsimp only
      rw [if_pos released.1]
      exact ⟨_, owner, rfl, released.2⟩
  | upping number =>
      left
      rw [Channel.advance, phase]
      exact ⟨_, none, rfl, sound.up phase⟩

end Sound

/-! ## Runs -/

section Runs

variable {Thread : Type u} [DecidableEq Thread]

/-- What is shown of a channel in every state: no completion is counted while no
command is outstanding, and a thread that has been woken for a command is past
its interrupt. -/
structure IdeSafe (c : Channel Thread) : Prop where
  idle : c.outstanding = none → c.completionWait.value = 0
  matched : ∀ thread number, (c.phase thread).served = some number → number ∈ c.raised

def IdeSound (state : IdeMachine Thread) : Prop :=
  match state with
  | .running c => ∃ owner, ChannelSound c owner
  | .panicked => True

theorem IdeSound.step {state target : IdeMachine Thread}
    {move : IdeMove Thread} (sound : IdeSound state) (expected : expectedOnly state move = true)
    (stepped : (ideSystem Thread).step state move = some target) :
    IdeSound target := by
  cases state with
  | panicked => cases stepped
  | running c =>
      rcases sound with ⟨owner, sound⟩
      change IdeMachine.step c move = some target at stepped
      cases move with
      | call thread command =>
          rw [IdeMachine.step] at stepped
          split at stepped
          · rename_i outside
            cases stepped
            split
            · trivial
            · refine ⟨owner, sound.setPhase ?_ ?_ ?_ ?_ ?_⟩
              · rw [outside]
                rfl
              · rw [outside]
                rfl
              · rw [outside]
                rfl
              · rw [outside]
                rfl
              · intro other same
                cases same
          · cases stepped
      | advance thread ready =>
          rw [IdeMachine.step] at stepped
          split at stepped
          · cases stepped
          · cases stepped
            rcases sound.advance thread ready with ⟨after, owner', result, kept⟩ | ⟨result, _⟩
            · rw [result]
              exact ⟨owner', kept⟩
            · rw [result]
              trivial
      | complete =>
          rcases Option.map_eq_some_iff.mp stepped with ⟨number, pending, rfl⟩
          exact ⟨owner, sound.complete pending⟩
      | spurious =>
          rw [IdeMachine.step] at stepped
          split at stepped
          · cases stepped
            have unexpected : c.expectingInterrupt = false := by
              rw [expectedOnly, Bool.not_eq_true'] at expected
              exact expected
            rw [Channel.interruptHandler, unexpected]
            exact ⟨owner, sound⟩
          · cases stepped

/-- Every run in which there is no other interrupt while `expecting_interrupt` is
set: commands are matched with their own interrupts.  In any state of such a run,
another interrupt that comes while the flag is set leaves a count with no command
outstanding. -/
theorem ide_matched {c : Channel Thread}
    (reachable : ((ideSystem Thread).restrict expectedOnly).Reachable (.running c)) :
    IdeSafe c ∧
      ∀ move after, (ideSystem Thread).step (.running c) move = some (.running after) →
        expectedOnly (.running c) move = false → ¬IdeSafe after := by
  have sound : IdeSound (.running c) := by
    apply reachable.invariant IdeSound
    · rintro start ⟨expecting, rfl⟩
      exact ⟨none, startChannel_sound expecting⟩
    · intro before move after _ sound stepped
      have allowed := TransitionSystem.restrict_step_iff.mp stepped
      exact sound.step allowed.1 allowed.2
  rcases sound with ⟨owner, sound⟩
  constructor
  · constructor
    · exact fun idle => (sound.completion.idle idle).2
    · exact sound.served
  · intro move after stepped unexpected safe
    change IdeMachine.step c move = some (.running after) at stepped
    cases move with
    | call => cases unexpected
    | advance => cases unexpected
    | complete => cases unexpected
    | spurious =>
        rw [expectedOnly, Bool.not_eq_false'] at unexpected
        rw [IdeMachine.step] at stepped
        split at stepped
        · rename_i idle
          rw [Channel.interruptHandler, if_pos unexpected] at stepped
          cases stepped
          have counted := safe.idle idle
          have zero := (sound.completion.idle idle).2
          change c.completionWait.semaUp.value = 0 at counted
          rw [Semaphore.semaUp_value, zero] at counted
          cases counted
        · cases stepped

/-- Two threads read, and the first one has been woken for its command. -/
theorem ide_matched_reading :
    ∃ c : Channel ℕ, c.phase 1 = .receiving 0 ∧
      c.phase 2 = .locking .read ∧ IdeSafe c := by
  have passed : ((((ideSystem ℕ).restrict expectedOnly).run
      (.running (startChannel true))
      [.call 1 .read, .advance 1 true, .advance 1 true, .advance 1 true,
        .advance 1 true, .advance 1 true, .advance 1 true, .call 2 .read,
        .advance 2 true, .complete, .advance 1 true]).any fun state =>
        match state with
        | .running c =>
            c.phase 1 = .receiving 0 && c.phase 2 = .locking .read
        | .panicked => false) = true := by
    decide +kernel
  rcases (Option.any_eq_true _ _).mp passed with ⟨state, execution, tested⟩
  cases state with
  | panicked => cases tested
  | running c =>
      have reachable : ((ideSystem ℕ).restrict expectedOnly).Reachable
          (.running c) := by
        apply TransitionSystem.Reachable.of_run _ execution
        exact .initial ⟨true, rfl⟩
      rw [Bool.and_eq_true, decide_eq_true_eq, decide_eq_true_eq] at tested
      exact ⟨c, tested.1, tested.2, (ide_matched reachable).1⟩

/-- Another interrupt before the first read: the read takes its data before the
interrupt of its command. -/
theorem ide_stale_completion :
    ∃ c : Channel ℕ, (ideSystem ℕ).Reachable (.running c) ∧
      c.phase 1 = .releasing 0 ∧ c.raised = [] := by
  have passed : (((ideSystem ℕ).run (.running (startChannel true))
      [.spurious, .call 1 .read, .advance 1 true, .advance 1 true,
        .advance 1 true, .advance 1 true, .advance 1 true, .advance 1 true,
        .advance 1 true]).any fun state =>
        match state with
        | .running c => c.phase 1 = .releasing 0 && c.raised = []
        | .panicked => false) = true := by
    decide +kernel
  rcases (Option.any_eq_true _ _).mp passed with ⟨state, execution, tested⟩
  cases state with
  | panicked => cases tested
  | running c =>
      rw [Bool.and_eq_true, decide_eq_true_eq, decide_eq_true_eq] at tested
      refine ⟨c, ?_, tested.1, tested.2⟩
      apply TransitionSystem.Reachable.of_run _ execution
      exact .initial ⟨true, rfl⟩

end Runs

end CS162.Devices

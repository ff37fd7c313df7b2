import Mathlib.Data.List.MinMax
import CS162.Threads.Scheduler

/-!
# External interrupts

`intr_handler` of `threads/interrupt.c` for the interrupts of devices, with
`thread_tick` of `threads/thread.c` and `timer_interrupt` and `timer_sleep` of
`devices/timer.c`, over the scheduler.  Here a handler is a sequence of steps
with interrupts off, between which nothing else runs.  What the handlers of other
devices do is left open, except that they wake threads.
-/

namespace CS162.Threads

open CS162.Foundation

universe u v

/-- `TIME_SLICE`. -/
def timeSlice : Nat := 4

/-- The lines of the two interrupt controllers that are in service. -/
structure Pic where
  master : List Nat
  slave : List Nat
  deriving DecidableEq

namespace Pic

/-- A line waits while one of the same or of a higher priority is in service. -/
def admits (lines : List Nat) (line : Nat) : Bool := lines.all (line < ·)

/-- The slave is attached to line 2 of the master. -/
def accepts (pic : Pic) (irq : Nat) : Bool :=
  if irq < 0x28 then admits pic.master (irq - 0x20)
  else admits pic.master 2 && admits pic.slave (irq - 0x28)

/-- The interrupt goes to the processor.  The line of a spurious one does not
come into service. -/
def accept (pic : Pic) (irq : Nat) (spurious : Bool) : Pic :=
  if irq < 0x28 then
    { pic with
      master := if spurious then pic.master else (irq - 0x20) :: pic.master }
  else
    { master := 2 :: pic.master
      slave := if spurious then pic.slave else (irq - 0x28) :: pic.slave }

/-- The command 0x20 ends the service of the line with the highest priority. -/
def ended (lines : List Nat) : List Nat :=
  match lines.min? with
  | some line => lines.erase line
  | none => lines

/-- `pic_end_of_interrupt`. -/
def endOfInterrupt (pic : Pic) (irq : Nat) : Option Pic :=
  if 0x20 ≤ irq ∧ irq < 0x30 then
    some
      { master := ended pic.master
        slave := if 0x28 ≤ irq then ended pic.slave else pic.slave }
  else none

end Pic

/-- The interrupt that is being handled, and whether `timer_interrupt` has still
to be called for it. -/
structure ExternalFrame where
  vecNo : Nat
  tickDue : Bool

/-- `start` and `ticks` in `timer_sleep`. -/
structure Sleep where
  start : Nat
  ticks : Int

/-- The variables of `interrupt.c`, `timer.c` and `thread_tick` over those of the
scheduler; `pcb` says which threads have a process.  The last three fields are a
record of the past: the interrupts that the processor has taken and that have
been acknowledged, and the sleeps that are over with the tick at which they
were. -/
structure InterruptMachine (Page : Type u) (Sema : Type v) where
  kernel : Kernel Page Sema
  pic : Pic
  frame : Option ExternalFrame
  inExternalIntr : Bool
  yieldOnReturn : Bool
  ticks : Nat
  threadTicks : Nat
  idleTicks : Nat
  kernelTicks : Nat
  userTicks : Nat
  pcb : Page → Bool
  sleeping : Page → Option Sleep
  taken : List Nat
  acknowledged : List Nat
  woken : List (Sleep × Nat)

inductive InterruptState (Page : Type u) (Sema : Type v) where
  | running (m : InterruptMachine Page Sema)
  | panicked

/-- A move of the running thread, or of the handler on its stack. -/
inductive InterruptMove (Page : Type u) (Sema : Type v) where
  | code (move : KernelMove Page Sema)
  | setPcb (present : Bool)
  | sleep (ticks : Int)
  | sleepTest
  | interrupt (irq : Nat) (spurious : Bool)
  | timerInterrupt
  | unblock (page : Page)
  | tryDown (sema : Sema)
  | up (sema : Sema)
  | intrReturn

namespace KernelMove

variable {Page : Type u} {Sema : Type v}

/-- Moves of a thread rather than of a handler. -/
def ofThread : KernelMove Page Sema → Bool
  | .unblock _ handler => !handler
  | .tryDown _ handler => !handler
  | .up _ handler => !handler
  | .timer => false
  | _ => true

/-- Moves of a thread that has already left its own code. -/
def ofSwitch : KernelMove Page Sema → Bool
  | .switchTail => true
  | .resume => true
  | _ => false

/-- Moves with `ASSERT (!intr_context ())` in them, in the call itself or in the
`intr_enable` that restores the level. -/
def assertsNoContext : KernelMove Page Sema → Bool
  | .switchTail => false
  | .intrDisable => false
  | _ => true

end KernelMove

namespace InterruptMachine

variable {Page : Type u} {Sema : Type v} [DecidableEq Page] [DecidableEq Sema]

/-- `intr_yield_on_return`. -/
def intrYieldOnReturn (m : InterruptMachine Page Sema) : Option (InterruptMachine Page Sema) :=
  if m.inExternalIntr then some { m with yieldOnReturn := true } else none

/-- The statistics of `thread_tick`. -/
def countTick (m : InterruptMachine Page Sema) : InterruptMachine Page Sema :=
  if m.kernel.stack = m.kernel.idleThread then
    { m with idleTicks := m.idleTicks + 1 }
  else if m.pcb m.kernel.stack then { m with userTicks := m.userTicks + 1 }
  else { m with kernelTicks := m.kernelTicks + 1 }

/-- `thread_tick`. -/
def threadTick (m : InterruptMachine Page Sema) : Option (InterruptMachine Page Sema) :=
  m.kernel.threadCurrent.bind fun _ =>
    let counted := { m.countTick with threadTicks := m.threadTicks + 1 }
    if timeSlice ≤ counted.threadTicks then counted.intrYieldOnReturn
    else some counted

/-- `timer_interrupt`. -/
def timerInterrupt (m : InterruptMachine Page Sema) : Option (InterruptMachine Page Sema) :=
  threadTick { m with ticks := m.ticks + 1 }

/-- The processor goes through an interrupt gate, which turns interrupts off. -/
def throughGate (m : InterruptMachine Page Sema) (irq : Nat) (spurious : Bool) :
    InterruptMachine Page Sema :=
  { m with
    kernel := { m.kernel with interrupts := false }
    pic := m.pic.accept irq spurious
    frame := some { vecNo := irq, tickDue := irq = 0x20 }
    taken := m.taken ++ [irq] }

/-- `intr_handler` up to the call of the handler. -/
def intrHandlerEntry (m : InterruptMachine Page Sema) : Option (InterruptMachine Page Sema) :=
  if !m.kernel.interrupts && !m.inExternalIntr then
    some { m with inExternalIntr := true, yieldOnReturn := false }
  else none

/-- `intr_handler` from the return of the handler on.  If another thread is
scheduled, the level that its return leads to is the one that `iret` restores. -/
def intrHandlerExit (m : InterruptMachine Page Sema) (irq : Nat) :
    Option (InterruptMachine Page Sema) :=
  if !m.kernel.interrupts && m.inExternalIntr then
    (m.pic.endOfInterrupt irq).bind fun pic =>
      let after :=
        { m with
          kernel := { m.kernel with interrupts := true }
          pic := pic
          frame := none
          inExternalIntr := false
          acknowledged := m.acknowledged ++ [irq] }
      if m.yieldOnReturn then
        after.kernel.threadYield.map fun kernel => { after with kernel := kernel }
      else some after
  else none

/-- `timer_elapsed`. -/
def timerElapsed (m : InterruptMachine Page Sema) (start : Nat) : Int := (m.ticks : Int) - start

/-- The loop of `timer_sleep`, from its test to the next one. -/
def timerSleepTest (m : InterruptMachine Page Sema) (sleep : Sleep) :
    Option (InterruptMachine Page Sema) :=
  if m.timerElapsed sleep.start < sleep.ticks then
    if m.inExternalIntr then none
    else m.kernel.threadYield.map fun kernel => { m with kernel := kernel }
  else
    some
      { m with
        sleeping := Function.update m.sleeping m.kernel.stack none
        woken := m.woken ++ [(sleep, m.ticks)] }

/-- What a call of the scheduler changes in the other variables. -/
def afterCode (m : InterruptMachine Page Sema) : KernelMove Page Sema → InterruptMachine Page Sema
  | .switchTail => { m with threadTicks := 0 }
  | .create page => { m with pcb := Function.update m.pcb page false }
  | _ => m

def result : Option (InterruptMachine Page Sema) → InterruptState Page Sema
  | some m => .running m
  | none => .panicked

/-- The outcome of a call of the scheduler. -/
def withKernel (m : InterruptMachine Page Sema) : KernelState Page Sema → InterruptState Page Sema
  | .running kernel => .running { m with kernel := kernel }
  | .panicked => .panicked

/-- A thread in `timer_sleep` makes no other calls. -/
def mayRun (m : InterruptMachine Page Sema) (move : KernelMove Page Sema) : Bool :=
  m.frame.isNone && move.ofThread && (move.ofSwitch || (m.sleeping m.kernel.stack).isNone)

/-- The handler of a device other than the timer is running. -/
def inDeviceHandler (m : InterruptMachine Page Sema) : Bool :=
  match m.frame with
  | some frame => frame.vecNo ≠ 0x20
  | none => false

/-- One move, where the calling rules allow it. -/
def step (m : InterruptMachine Page Sema) :
    InterruptMove Page Sema → Option (InterruptState Page Sema)
  | .code move =>
      if m.mayRun move then
        (m.kernel.step move).map fun target =>
          if m.inExternalIntr && move.assertsNoContext then .panicked
          else (m.afterCode move).withKernel target
      else none
  | .setPcb present =>
      if m.mayRun .yield && m.kernel.kernelCode then
        some (.running { m with pcb := Function.update m.pcb m.kernel.stack present })
      else none
  | .sleep ticks =>
      -- interrupts are on when `timer_sleep` is called
      if m.mayRun .yield && m.kernel.kernelCode && m.kernel.interrupts then
        some (.running
          { m with
            sleeping := Function.update m.sleeping m.kernel.stack
              (some { start := m.ticks, ticks := ticks }) })
      else none
  | .sleepTest =>
      if m.frame.isNone && m.kernel.inOwnCode then
        (m.sleeping m.kernel.stack).map fun sleep =>
          result (m.timerSleepTest sleep)
      else none
  | .interrupt irq spurious =>
      if m.frame.isNone && m.kernel.inOwnCode && m.kernel.interrupts &&
          (0x20 ≤ irq && irq < 0x30 && m.pic.accepts irq &&
            (!spurious || irq = 0x27 || irq = 0x2f)) then
        some (result (m.throughGate irq spurious).intrHandlerEntry)
      else none
  | .timerInterrupt =>
      m.frame.bind fun frame =>
        if frame.tickDue then
          some (result (timerInterrupt { m with frame := some { frame with tickDue := false } }))
        else none
  | .unblock page =>
      if m.inDeviceHandler && m.kernel.directlyBlocked page then
        some (m.withKernel (Kernel.result (m.kernel.threadUnblock page)))
      else none
  | .tryDown id =>
      if m.inDeviceHandler then
        some (.running { m with kernel := m.kernel.semaTryDown id })
      else none
  | .up id =>
      if m.inDeviceHandler then
        some (m.withKernel (Kernel.result (m.kernel.semaUp id)))
      else none
  | .intrReturn =>
      m.frame.bind fun frame =>
        if frame.tickDue then none
        else some (result (m.intrHandlerExit frame.vecNo))

end InterruptMachine

/-- The ticks that have been counted when `thread_start` returns. -/
structure StartTicks where
  idleTicks : Nat
  kernelTicks : Nat
  userTicks : Nat
  threadTicks : Nat

/-- The state in which `thread_start` returns. -/
def startMachine {Page : Type u} {Sema : Type v} (kernel : Kernel Page Sema)
    (start : StartTicks) : InterruptMachine Page Sema where
  kernel := kernel
  pic := { master := [], slave := [] }
  frame := none
  inExternalIntr := false
  yieldOnReturn := false
  ticks := start.idleTicks + start.kernelTicks + start.userTicks
  threadTicks := start.threadTicks
  idleTicks := start.idleTicks
  kernelTicks := start.kernelTicks
  userTicks := start.userTicks
  pcb := fun _ => false
  sleeping := fun _ => none
  taken := []
  acknowledged := []
  woken := []

/-- All runs of the threads and of the handlers that interrupt them. -/
def interruptSystem (Page : Type u) (Sema : Type v) [DecidableEq Page] [DecidableEq Sema] :
    TransitionSystem (InterruptState Page Sema) (InterruptMove Page Sema) where
  initial state :=
    ∃ kernel start, (schedulerSystem Page Sema).initial (.running kernel) ∧
      start.threadTicks < timeSlice ∧
      state = .running (startMachine kernel start)
  step state move :=
    match state with
    | .running m => m.step move
    | .panicked => none

end CS162.Threads

import Mathlib.Logic.Function.Basic
import CS162.Foundation.TransitionSystem
import CS162.Threads.Semaphore

/-!
# The scheduler

`threads/thread.c` with the semaphores of `threads/synch.c` under the FIFO
policy, after `thread_start`.  A thread is the page that its `struct thread` and
its stack are in.  Code that runs with interrupts off is one step up to the stack
switch in `schedule`; `thread_switch_tail` is a step of the thread that was
switched to, and so is what that thread does on its return from `schedule`.  What
kernel code does between these calls is left open.  A failed `ASSERT` is `none`.
-/

namespace CS162.Threads

open CS162.Foundation

universe u v

/-- `enum thread_status`. -/
inductive ThreadStatus where
  | running
  | ready
  | blocked
  | dying
  deriving DecidableEq

/-- Where a thread goes on: in code of its own, at `switch_entry`, or after the
`schedule` in `thread_yield`, in `thread_block`, or in the `thread_block` of the
loop of `sema_down`.  The level is what `intr_set_level` will restore. -/
inductive ResumePoint (Sema : Type v) where
  | own
  | entry
  | yielded (oldLevel : Bool)
  | blocked
  | down (sema : Sema) (oldLevel : Bool)

/-- `struct thread`, where the thread goes on, and the thread that it is
creating. -/
structure ThreadPage (Page : Type u) (Sema : Type v) where
  status : ThreadStatus
  point : ResumePoint Sema
  creating : Option Page

/-- What happens to the page of a thread. -/
inductive PageEvent (Page : Type u) where
  | created (page : Page)
  | exited (page : Page)
  | dispatched (page : Page)
  | freed (page : Page)
  deriving DecidableEq

/-- The first value of a semaphore, and how often the operations on it have been
completed. -/
structure SemaCounts where
  initial : Nat
  ups : Nat
  downs : Nat
  tryDowns : Nat

/-- The processor and the variables of `thread.c`.  While threads are being
switched, `switching` has what `switch_threads` returns.  The last four fields
are a record of the past and decide nothing. -/
structure Kernel (Page : Type u) (Sema : Type v) where
  thread : Page → Option (ThreadPage Page Sema)
  fifoReadyList : List Page
  allList : List Page
  idleThread : Page
  initialThread : Page
  stack : Page
  switching : Option (Option Page)
  interrupts : Bool
  sema : Sema → Semaphore Page
  counts : Sema → SemaCounts
  enqueued : List Page
  dispatched : List Page
  events : List (PageEvent Page)

namespace Kernel

variable {Page : Type u} {Sema : Type v} [DecidableEq Page] [DecidableEq Sema]

def setThread (k : Kernel Page Sema) (page : Page) (t : ThreadPage Page Sema) : Kernel Page Sema :=
  { k with thread := Function.update k.thread page (some t) }

/-- `is_thread`. -/
def isThread (k : Kernel Page Sema) (page : Page) : Bool := (k.thread page).isSome

/-- `thread_current`, with the record of the thread. -/
def threadCurrent (k : Kernel Page Sema) : Option (ThreadPage Page Sema) :=
  (k.thread k.stack).bind fun t =>
    if t.status = .running then some t else none

/-- `thread_enqueue`. -/
def threadEnqueue (k : Kernel Page Sema) (page : Page) : Option (Kernel Page Sema) :=
  if !k.interrupts && k.isThread page then
    some
      { k with
        fifoReadyList := k.fifoReadyList ++ [page]
        enqueued := k.enqueued ++ [page] }
  else none

/-- `thread_unblock`. -/
def threadUnblock (k : Kernel Page Sema) (page : Page) : Option (Kernel Page Sema) :=
  (k.thread page).bind fun t =>
    if t.status = .blocked then
      (threadEnqueue { k with interrupts := false } page).map fun after =>
        { after.setThread page { t with status := .ready } with
          interrupts := k.interrupts }
    else none

/-- `thread_schedule_fifo`. -/
def threadScheduleFifo (k : Kernel Page Sema) : Kernel Page Sema × Page :=
  match k.fifoReadyList with
  | next :: rest =>
      ({ k with
          fifoReadyList := rest
          dispatched := k.dispatched ++ [next] }, next)
  | [] => (k, k.idleThread)

/-- `schedule`, up to the return of `switch_threads` in the next thread. -/
def schedule (k : Kernel Page Sema) : Option (Kernel Page Sema) :=
  (k.thread k.stack).bind fun cur =>
    let after := k.threadScheduleFifo.1
    let next := k.threadScheduleFifo.2
    if !after.interrupts && cur.status ≠ .running && after.isThread next then
      some
        { after with
          stack := next
          switching := some (if k.stack = next then none else some k.stack)
          events := after.events ++ [.dispatched next] }
    else none

/-- The running thread gets another status, and another thread is scheduled. -/
def leave (k : Kernel Page Sema) (status : ThreadStatus)
    (point : ResumePoint Sema) : Option (Kernel Page Sema) :=
  k.threadCurrent.bind fun cur =>
    (k.setThread k.stack { cur with status := status, point := point }).schedule

/-- `thread_block`. -/
def threadBlock (k : Kernel Page Sema) (point : ResumePoint Sema) : Option (Kernel Page Sema) :=
  if k.interrupts then none else k.leave .blocked point

/-- `thread_yield`, after which interrupts are as they were. -/
def threadYield (k : Kernel Page Sema) : Option (Kernel Page Sema) :=
  let off := { k with interrupts := false }
  k.threadCurrent.bind fun _ =>
    (if k.stack ≠ k.idleThread then off.threadEnqueue k.stack else some off).bind
      fun queued => queued.leave .ready (.yielded k.interrupts)

/-- `thread_exit`. -/
def threadExit (k : Kernel Page Sema) : Option (Kernel Page Sema) :=
  k.threadCurrent.bind fun _ =>
    if k.stack ∈ k.allList then
      leave
        { k with
          interrupts := false
          allList := k.allList.erase k.stack
          events := k.events ++ [.exited k.stack] } .dying .own
    else none

/-- `palloc_free_page`. -/
def pallocFreePage (k : Kernel Page Sema) (page : Page) : Kernel Page Sema :=
  { k with
    thread := Function.update k.thread page none
    events := k.events ++ [.freed page] }

/-- `thread_switch_tail`. -/
def threadSwitchTail (k : Kernel Page Sema) (prev : Option Page) : Option (Kernel Page Sema) :=
  if k.interrupts then none
  else
    (k.thread k.stack).bind fun cur =>
      let after := k.setThread k.stack { cur with status := .running }
      match prev with
      | none => some after
      | some page =>
          (after.thread page).bind fun t =>
            if t.status = .dying ∧ page ≠ k.initialThread then
              if page = k.stack then none else some (after.pallocFreePage page)
            else some after

/-- The first part of `thread_create`, where `palloc_get_page` gives a page:
`init_thread`. -/
def threadCreate (k : Kernel Page Sema) (page : Page) : Option (Kernel Page Sema) :=
  k.threadCurrent.map fun cur =>
    { (k.setThread k.stack { cur with creating := some page }).setThread page
        { status := .blocked, point := .entry, creating := none } with
      allList := k.allList ++ [page]
      events := k.events ++ [.created page] }

/-- The end of `thread_create`, after `allocate_tid`. -/
def threadStarted (k : Kernel Page Sema) (page : Page) : Option (Kernel Page Sema) :=
  k.threadCurrent.bind fun cur =>
    (k.setThread k.stack { cur with creating := none }).threadUnblock page

def setSema (k : Kernel Page Sema) (id : Sema) (sema : Semaphore Page) : Kernel Page Sema :=
  { k with sema := Function.update k.sema id sema }

def setCounts (k : Kernel Page Sema) (id : Sema) (counts : SemaCounts) : Kernel Page Sema :=
  { k with counts := Function.update k.counts id counts }

/-- The loop of `sema_down`, from its test on. -/
def semaDownLoop (k : Kernel Page Sema) (id : Sema) (oldLevel : Bool) : Option (Kernel Page Sema) :=
  k.threadCurrent.bind fun cur =>
    if (k.sema id).value = 0 then
      (k.setSema id ((k.sema id).enqueue k.stack)).threadBlock (.down id oldLevel)
    else
      let counts := k.counts id
      some
        { ((k.setSema id (k.sema id).take).setCounts id
            { counts with downs := counts.downs + 1 }).setThread k.stack
            { cur with point := .own } with
          interrupts := oldLevel }

/-- `sema_down`. -/
def semaDown (k : Kernel Page Sema) (id : Sema) : Option (Kernel Page Sema) :=
  semaDownLoop { k with interrupts := false } id k.interrupts

/-- `sema_try_down`. -/
def semaTryDown (k : Kernel Page Sema) (id : Sema) : Kernel Page Sema :=
  let counts := k.counts id
  let tried := (k.sema id).semaTryDown
  if tried.2 then
    (k.setSema id tried.1).setCounts id { counts with tryDowns := counts.tryDowns + 1 }
  else k.setSema id tried.1

/-- `sema_up`. -/
def semaUp (k : Kernel Page Sema) (id : Sema) : Option (Kernel Page Sema) :=
  let counts := k.counts id
  let woken :=
    match (k.sema id).waiters with
    | [] => some k
    | first :: _ => k.threadUnblock first
  woken.map fun after =>
    (after.setSema id (k.sema id).semaUp).setCounts id { counts with ups := counts.ups + 1 }

/-- What a thread does when it has been switched to. -/
def resume (k : Kernel Page Sema) : Option (Kernel Page Sema) :=
  k.threadCurrent.bind fun cur =>
    let own := k.setThread k.stack { cur with point := .own }
    match cur.point with
    | .own => none
    | .entry => some { own with interrupts := true }
    | .yielded oldLevel => some { own with interrupts := oldLevel }
    | .blocked => some own
    | .down id oldLevel => k.semaDownLoop id oldLevel

end Kernel

/-- A move of the running thread, or of an interrupt handler that runs on its
stack. -/
inductive KernelMove (Page : Type u) (Sema : Type v) where
  | switchTail
  | resume
  | intrDisable
  | intrEnable
  | create (page : Page)
  | started
  | block
  | unblock (page : Page) (handler : Bool)
  | yield
  | timer
  | exit
  | down (sema : Sema)
  | tryDown (sema : Sema) (handler : Bool)
  | up (sema : Sema) (handler : Bool)

inductive KernelState (Page : Type u) (Sema : Type v) where
  | running (k : Kernel Page Sema)
  | panicked

namespace Kernel

variable {Page : Type u} {Sema : Type v} [DecidableEq Page] [DecidableEq Sema]

/-- The running thread is in code of its own. -/
def inOwnCode (k : Kernel Page Sema) : Bool :=
  k.switching.isNone &&
    match k.thread k.stack with
    | some t =>
        match t.point with
        | .own => true
        | _ => false
    | none => false

/-- The thread that the running thread is creating. -/
def creating (k : Kernel Page Sema) : Option Page := (k.thread k.stack).bind (·.creating)

/-- The idle thread runs nothing but its loop. -/
def kernelCode (k : Kernel Page Sema) : Bool := k.inOwnCode && k.stack ≠ k.idleThread

/-- Kernel code, or a handler that interrupts it or the idle thread. -/
def mayCall (k : Kernel Page Sema) (handler : Bool) : Bool :=
  if handler then k.inOwnCode && k.interrupts else k.kernelCode

/-- A thread that has called `thread_block` may be unblocked. -/
def directlyBlocked (k : Kernel Page Sema) (page : Page) : Bool :=
  page ≠ k.idleThread &&
    match k.thread page with
    | some { status := .blocked, point := .blocked, .. } => true
    | _ => false

/-- A call that fails an assertion stops the kernel. -/
def result : Option (Kernel Page Sema) → KernelState Page Sema
  | some k => .running k
  | none => .panicked

/-- One move, where the calling rules allow it. -/
def step (k : Kernel Page Sema) : KernelMove Page Sema → Option (KernelState Page Sema)
  | .switchTail =>
      k.switching.map fun prev =>
        result ((k.threadSwitchTail prev).map fun after =>
          { after with switching := none })
  | .resume =>
      if k.switching.isNone && !k.inOwnCode then some (result k.resume)
      else none
  | .intrDisable =>
      if k.inOwnCode then some (.running { k with interrupts := false })
      else none
  | .intrEnable =>
      if k.inOwnCode then some (.running { k with interrupts := true })
      else none
  | .create page =>
      -- `palloc_get_page` gives a page that is in no use
      if k.kernelCode && k.creating.isNone && !k.isThread page then
        some (result (k.threadCreate page))
      else none
  | .started =>
      if k.kernelCode then
        k.creating.map fun page => result (k.threadStarted page)
      else none
  | .block =>
      -- interrupts are off when `thread_block` is called
      if k.inOwnCode && !k.interrupts then
        some (result (k.threadBlock .blocked))
      else none
  | .unblock page handler =>
      if k.mayCall handler && k.directlyBlocked page then
        some (result (k.threadUnblock page))
      else none
  | .yield => if k.kernelCode then some (result k.threadYield) else none
  | .timer =>
      if k.inOwnCode && k.interrupts then some (result k.threadYield) else none
  | .exit =>
      if k.kernelCode && k.creating.isNone then some (result k.threadExit)
      else none
  | .down id => if k.kernelCode then some (result (k.semaDown id)) else none
  | .tryDown id handler =>
      if k.mayCall handler then some (.running (k.semaTryDown id)) else none
  | .up id handler =>
      if k.mayCall handler then some (result (k.semaUp id)) else none

end Kernel

/-- The state in which `thread_start` returns: the first thread runs, and the
idle thread has registered itself and is either still on its way to its first
`thread_block` or already in it. -/
def startKernel {Page : Type u} {Sema : Type v} [DecidableEq Page]
    (initialThread idleThread : Page) (idleBlocked : Bool)
    (value : Sema → Nat) : Kernel Page Sema where
  thread := fun page =>
    if page = initialThread then
      some { status := .running, point := .own, creating := none }
    else if page = idleThread then
      if idleBlocked then
        some { status := .blocked, point := .blocked, creating := none }
      else some { status := .ready, point := .yielded true, creating := none }
    else none
  fifoReadyList := []
  allList := [initialThread, idleThread]
  idleThread := idleThread
  initialThread := initialThread
  stack := initialThread
  switching := none
  interrupts := true
  sema := fun id => Semaphore.semaInit (value id)
  counts := fun id => { initial := value id, ups := 0, downs := 0, tryDowns := 0 }
  enqueued := []
  dispatched := []
  events := []

/-- All runs of the threads after `thread_start`, with any semaphores. -/
def schedulerSystem (Page : Type u) (Sema : Type v) [DecidableEq Page] [DecidableEq Sema] :
    TransitionSystem (KernelState Page Sema) (KernelMove Page Sema) where
  initial state :=
    ∃ initialThread idleThread idleBlocked value,
      initialThread ≠ idleThread ∧ (∀ id, value id < unsignedModulus) ∧
        state = .running (startKernel initialThread idleThread idleBlocked value)
  step state move :=
    match state with
    | .running k => k.step move
    | .panicked => none

end CS162.Threads

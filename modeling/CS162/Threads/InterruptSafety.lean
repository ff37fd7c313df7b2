import CS162.Threads.Interrupts
import CS162.Threads.RunQueue

/-!
# What holds between any two steps of a handler

No run fails an assertion of `interrupt.c`, `timer.c` or the scheduler, an
interrupt that has been taken is acknowledged once and leaves no line in service,
and every run is one of the scheduler with interrupts as single steps.
-/

namespace CS162.Threads

open CS162.Foundation

universe u v

variable {Page : Type u} {Sema : Type v} [DecidableEq Page] [DecidableEq Sema]

namespace Kernel

omit [DecidableEq Page] [DecidableEq Sema] in
/-- The level of interrupts does not matter to a handler. -/
def atLevel (k : Kernel Page Sema) (level : Bool) : Kernel Page Sema :=
  { k with interrupts := level }

end Kernel

namespace InterruptMachine

/-- The kernel as the code that was interrupted sees it: `iret` turns interrupts
on again. -/
def interrupted (m : InterruptMachine Page Sema) : Kernel Page Sema :=
  if m.frame.isSome then m.kernel.atLevel true else m.kernel

end InterruptMachine

/-- The state of the scheduler in which interrupts are single steps. -/
def InterruptState.scheduler : InterruptState Page Sema → KernelState Page Sema
  | .running m => .running m.interrupted
  | .panicked => .panicked

/-! ## The invariant -/

/-- While a handler runs. -/
structure HandlerSound (m : InterruptMachine Page Sema) (frame : ExternalFrame) : Prop where
  off : m.kernel.interrupts = false
  own : m.kernel.inOwnCode = true
  context : m.inExternalIntr = true
  timer : frame.tickDue = true → frame.vecNo = 0x20
  ending : m.pic.endOfInterrupt frame.vecNo = some { master := [], slave := [] }
  record : m.taken = m.acknowledged ++ [frame.vecNo]

/-- While no handler runs. -/
structure ThreadSound (m : InterruptMachine Page Sema) : Prop where
  context : m.inExternalIntr = false
  pic : m.pic = { master := [], slave := [] }
  record : m.taken = m.acknowledged

/-- The time slice is over, and the running thread is about to be put on the ready
list or has been already. -/
def SliceOver (m : InterruptMachine Page Sema) : Prop :=
  m.kernel.switching.isSome = true ∨
    ∃ frame, m.frame = some frame ∧ frame.tickDue = false ∧ m.yieldOnReturn = true

/-- A thread in `timer_sleep` is ready or runs, and goes on in its own code. -/
structure Asleep (k : Kernel Page Sema) (page : Page) : Prop where
  notIdle : page ≠ k.idleThread
  awake : page ∈ k.fifoReadyList ∨ page = k.stack
  record : ∃ t, k.thread page = some t ∧ (t.point = .own ∨ ∃ level, t.point = .yielded level)

/-- The invariant of all runs. -/
structure InterruptSound (m : InterruptMachine Page Sema) : Prop where
  kernel : KernelSound m.interrupted
  handler : ∀ frame, m.frame = some frame → HandlerSound m frame
  thread : m.frame = none → ThreadSound m
  ticks : m.ticks = m.idleTicks + m.kernelTicks + m.userTicks
  slice : m.threadTicks ≤ timeSlice
  spent : m.threadTicks = timeSlice → SliceOver m
  asleep : ∀ page sleep, m.sleeping page = some sleep → Asleep m.interrupted page
  late : ∀ sleep tick, (sleep, tick) ∈ m.woken → (sleep.start : Int) + sleep.ticks ≤ tick

/-- What a move is to the scheduler: one of its moves, nothing, or a tick. -/
inductive Effect (m after : InterruptMachine Page Sema) : Prop
  | call (move : KernelMove Page Sema) :
      m.interrupted.step move = some (.running after.interrupted) →
      after.ticks = m.ticks →
      (after.threadTicks = m.threadTicks ∨ move = .switchTail) → Effect m after
  | unmoved :
      after.interrupted = m.interrupted → after.ticks = m.ticks →
      after.threadTicks = m.threadTicks → Effect m after
  | tick :
      after.interrupted = m.interrupted → m.interrupted.switching = none →
      m.threadTicks < timeSlice → after.ticks = m.ticks + 1 →
      after.threadTicks = m.threadTicks + 1 → Effect m after

/-- The target is sound, and the scheduler gets there too. -/
def Follows (m : InterruptMachine Page Sema) (target : InterruptState Page Sema) :
    Prop :=
  ∃ after, target = .running after ∧ InterruptSound after ∧ Effect m after

section Kernels

variable {k k' : Kernel Page Sema} {page : Page}

omit [DecidableEq Sema] in
theorem threadUnblock_atLevel (level : Bool) :
    (k.atLevel level).threadUnblock page = (k.threadUnblock page).map (·.atLevel level) := by
  rw [Kernel.threadUnblock, Kernel.threadUnblock]
  change (k.thread page).bind _ = _
  cases known : k.thread page with
  | none => rfl
  | some t =>
      rw [Option.bind_some, Option.bind_some]
      by_cases blocked : t.status = .blocked
      · rw [if_pos blocked, if_pos blocked, Option.map_map]
        rfl
      · rw [if_neg blocked, if_neg blocked]
        rfl

theorem semaUp_atLevel (id : Sema) (level : Bool) :
    (k.atLevel level).semaUp id = (k.semaUp id).map (·.atLevel level) := by
  rw [Kernel.semaUp, Kernel.semaUp]
  cases waiters : (k.sema id).waiters with
  | nil =>
      have same : ((k.atLevel level).sema id).waiters = [] := waiters
      rw [same]
      rfl
  | cons first rest =>
      have same : ((k.atLevel level).sema id).waiters = first :: rest := waiters
      rw [same]
      dsimp only
      rw [threadUnblock_atLevel, Option.map_map, Option.map_map]
      rfl

omit [DecidableEq Page] in
theorem semaTryDown_atLevel (id : Sema) (level : Bool) :
    (k.atLevel level).semaTryDown id = (k.semaTryDown id).atLevel level := by
  rw [Kernel.semaTryDown, Kernel.semaTryDown]
  change (if ((k.sema id).semaTryDown).2 then _ else _) = _
  split <;> rfl

omit [DecidableEq Sema] in
theorem threadUnblock_own (result : k.threadUnblock page = some k') :
    k'.inOwnCode = k.inOwnCode := by
  rw [Kernel.threadUnblock] at result
  rcases Option.bind_eq_some_iff.mp result with ⟨t, known, rest⟩
  by_cases blocked : t.status = .blocked
  · have woken := threadUnblock_eq known blocked
    rw [Kernel.threadUnblock, result] at woken
    cases woken
    rw [Kernel.inOwnCode, Kernel.inOwnCode]
    have here : (k.unblocked page t).stack = k.stack := rfl
    by_cases same : k.stack = page
    · have record : (k.unblocked page t).thread k.stack = some { t with status := .ready } := by
        rw [same]
        exact Function.update_self ..
      rw [here, record, same, known]
      rfl
    · have record : (k.unblocked page t).thread k.stack = k.thread k.stack :=
        Function.update_of_ne same _ _
      rw [here, record]
      rfl
  · rw [if_neg blocked] at rest
    cases rest

theorem semaUp_own {id : Sema} (result : k.semaUp id = some k') : k'.inOwnCode = k.inOwnCode := by
  rw [Kernel.semaUp] at result
  rcases Option.map_eq_some_iff.mp result with ⟨after, woken, same⟩
  cases same
  cases waiters : (k.sema id).waiters with
  | nil =>
      rw [waiters] at woken
      cases woken
      rfl
  | cons first rest =>
      rw [waiters] at woken
      have own : after.inOwnCode = k.inOwnCode := threadUnblock_own woken
      exact own

/-- Code of its own means that no switch is in progress. -/
theorem KernelSound.running (sound : KernelSound k)
    (own : k.inOwnCode = true) : RunningSound k := by
  rcases sound with running | ⟨prev, switching⟩
  · exact running
  · rw [Kernel.inOwnCode, switching.switching] at own
    cases own

/-- During a switch the only move is its end. -/
theorem step_switching {move : KernelMove Page Sema}
    {target : KernelState Page Sema} (switching : k.switching.isSome = true)
    (stepped : k.step move = some target) : move = .switchTail := by
  have still : k.switching.isNone = false := by
    rw [Option.isNone_eq_false_iff]
    exact switching
  have busy : k.inOwnCode = false := by
    rw [Kernel.inOwnCode, still]
    rfl
  have noCode : k.kernelCode = false := by
    rw [Kernel.kernelCode, busy]
    rfl
  have noCall : ∀ handler, k.mayCall handler = false := by
    intro handler
    rw [Kernel.mayCall, busy, noCode]
    cases handler <;> rfl
  cases move with
  | switchTail => rfl
  | resume => simp [Kernel.step, still] at stepped
  | _ => simp [Kernel.step, busy, noCode, noCall] at stepped

end Kernels

/-! ## Threads in `timer_sleep` -/

section Sleeping

variable {k k' : Kernel Page Sema} {page : Page} {move : KernelMove Page Sema}

/-- The moves that a thread in `timer_sleep` makes or that a handler makes on its
stack. -/
def KernelMove.whileAsleep : KernelMove Page Sema → Bool
  | .switchTail => true
  | .resume => true
  | .yield => true
  | .timer => true
  | .unblock _ handler => handler
  | .tryDown _ handler => handler
  | .up _ handler => handler
  | _ => false

omit [DecidableEq Page] in
theorem mem_tail_or_head {pages : List Page} (idle : Page)
    (member : page ∈ pages) : page ∈ pages.tail ∨ page = pages.headD idle := by
  cases pages with
  | nil => cases member
  | cons first rest =>
      rcases List.mem_cons.mp member with same | later
      · exact Or.inr same
      · exact Or.inl later

omit [DecidableEq Page] [DecidableEq Sema] in
/-- A thread leaves the ready list only for the processor. -/
theorem QueueMove.kept (queue : QueueMove k k') (listed : page ∈ k.fifoReadyList) :
    page ∈ k'.fifoReadyList ∨ page = k'.stack := by
  cases queue with
  | stays woken _ _ list =>
      rw [list]
      exact Or.inl (List.mem_append_left _ listed)
  | leaves queued _ list stack =>
      rw [list, stack]
      exact mem_tail_or_head _ (List.mem_append_left _ listed)
  | settles _ _ list =>
      rw [list]
      exact Or.inl listed

omit [DecidableEq Sema] in
/-- A yielding thread is put on the ready list or keeps the processor. -/
theorem Left.yielder {queued : List Page} {point : ResumePoint Sema}
    (left : Left k k' queued point) (member : k.stack ∈ queued) :
    k.stack ∈ k'.fifoReadyList ∨ k.stack = k'.stack := by
  rw [left.list, left.stack]
  exact mem_tail_or_head _ (List.mem_append_right _ member)

/-- Threads on the ready list and on the processor are alive. -/
theorem KernelSound.alive (sound : KernelSound k) (awake : page ∈ k.fifoReadyList ∨ page = k.stack)
    {t : ThreadPage Page Sema} (known : k.thread page = some t) :
    t.status ≠ .dying := by
  rcases awake with listed | current
  · rcases sound.lists with ⟨next, lists, _⟩
    have place : k.place next page = some .ready := (lists.queues.mem_iff .ready page).mp listed
    rw [Kernel.place, known, Option.bind_some, elemPlace] at place
    intro dying
    rw [dying] at place
    cases place
  · subst current
    rcases sound with running | ⟨prev, switching⟩
    · rcases running.current with ⟨u, record, runs, _⟩
      rw [known] at record
      cases record
      simp [runs]
    · rcases switching.current with ⟨u, record, ready | idle⟩
      · rw [known] at record
        cases record
        simp [ready]
      · rw [known] at record
        cases record
        simp [idle.1]

/-- A thread in `timer_sleep` is kept by the moves of the others. -/
theorem Asleep.moved (asleep : Asleep k page) (sound : KernelSound k)
    (idle : k'.idleThread = k.idleThread) (points : PointKept k k' page)
    (awake : page ∈ k'.fifoReadyList ∨ page = k'.stack) : Asleep k' page := by
  rcases asleep.record with ⟨t, known, point⟩
  rcases points t known (sound.alive asleep.awake known) with ⟨t', known', same⟩
  refine ⟨?_, awake, t', known', ?_⟩
  · rw [idle]
    exact asleep.notIdle
  · rw [same]
    exact point

/-- A thread in `timer_sleep` is kept by what a handler does on its stack. -/
theorem Asleep.stayed (asleep : Asleep k k.stack) (sound : KernelSound k)
    (stayed : Stayed k k') : Asleep k' k.stack :=
  asleep.moved sound stayed.idle (stayed.points k.stack) (Or.inr stayed.stack.symm)

omit [DecidableEq Sema] in
/-- A thread in `timer_sleep` yields. -/
theorem Asleep.yields (asleep : Asleep k k.stack)
    (yielded : k.threadYield = some k') : Asleep k' k.stack := by
  have left := left_of_threadYield yielded
  rw [if_neg asleep.notIdle] at left
  rcases left.thread with ⟨t', point, thread⟩
  refine ⟨?_, left.yielder List.mem_cons_self, t', ?_, Or.inr ⟨_, point⟩⟩
  · rw [left.idle]
    exact asleep.notIdle
  · rw [thread]
    exact Function.update_self ..

/-- A thread in `timer_sleep` has been switched to. -/
theorem Asleep.resumes (asleep : Asleep k k.stack)
    (resumed : k.resume = some k') : Asleep k' k.stack := by
  rcases asleep.record with ⟨t, known, point⟩
  rw [Kernel.resume] at resumed
  rcases Option.bind_eq_some_iff.mp resumed with ⟨u, current, rest⟩
  have record : u = t := by
    rw [Kernel.threadCurrent, known, Option.bind_some] at current
    exact (Option.some.inj (Option.ite_none_right_eq_some.mp current).2).symm
  subst record
  rcases point with own | ⟨level, yielded⟩
  · rw [own] at rest
    cases rest
  · rw [yielded] at rest
    cases rest
    exact ⟨asleep.notIdle, asleep.awake, _, Function.update_self .., Or.inl rfl⟩

/-- A thread in `timer_sleep` is ready or runs after every move. -/
theorem Asleep.step (asleep : Asleep k page) (sound : KernelSound k)
    (stepped : k.step move = some (.running k'))
    (own : page = k.stack → move.whileAsleep = true) : Asleep k' page := by
  have moved := moved_of_step stepped
  by_cases current : page = k.stack
  · have whileAsleep := own current
    subst current
    cases move with
    | switchTail =>
        rcases Option.map_eq_some_iff.mp stepped with ⟨prev, switching, same⟩
        rcases Option.map_eq_some_iff.mp (of_result same) with ⟨after, tail, rfl⟩
        have settled := moved_of_threadSwitchTail tail
        have queue : after.stack = k.stack := by
          cases settled.1.queue with
          | stays _ stack _ _ => exact stack
          | leaves _ switched _ _ => cases switched
          | settles stack _ _ => exact stack
        exact asleep.moved sound moved.idle settled.2 (Or.inr queue.symm)
    | resume =>
        rcases of_guard stepped with ⟨_, same⟩
        exact asleep.resumes (of_result same)
    | yield =>
        rcases of_guard stepped with ⟨_, same⟩
        exact asleep.yields (of_result same)
    | timer =>
        rcases of_guard stepped with ⟨_, same⟩
        exact asleep.yields (of_result same)
    | unblock other handler =>
        rcases of_guard stepped with ⟨_, same⟩
        exact asleep.stayed sound (stayed_of_threadUnblock (of_result same))
    | tryDown id handler =>
        rcases of_guard stepped with ⟨_, same⟩
        cases same
        exact asleep.stayed sound (stayed_of_semaTryDown k id)
    | up id handler =>
        rcases of_guard stepped with ⟨_, same⟩
        exact asleep.stayed sound (stayed_of_semaUp (of_result same))
    | _ => cases whileAsleep
  · apply asleep.moved sound moved.idle (moved.points page current)
    rcases asleep.awake with listed | here
    · exact moved.queue.kept listed
    · exact absurd here current

end Sleeping

end CS162.Threads

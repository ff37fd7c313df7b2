import CS162.Threads.SchedulerRuns

/-!
# What a move does to the run queue

Every move of the scheduler does one of three things to the ready list: it leaves
the processor where it is and may append a thread, it hands the processor to the
head of the list, or it completes the switch.  The place where another thread
goes on is not touched.
-/

namespace CS162.Threads

open CS162.Foundation

universe u v

variable {Page : Type u} {Sema : Type v} [DecidableEq Page] [DecidableEq Sema]

/-- The three things that a move can do to the ready list and the processor. -/
inductive QueueMove (k k' : Kernel Page Sema) : Prop
  | stays (woken : List Page) :
      k'.stack = k.stack → k'.switching = k.switching →
      k'.fifoReadyList = k.fifoReadyList ++ woken → QueueMove k k'
  | leaves (queued : List Page) :
      k'.switching.isSome = true →
      k'.fifoReadyList = (k.fifoReadyList ++ queued).tail →
      k'.stack = (k.fifoReadyList ++ queued).headD k.idleThread → QueueMove k k'
  | settles :
      k'.stack = k.stack → k'.switching = none →
      k'.fifoReadyList = k.fifoReadyList → QueueMove k k'

/-- A thread that is not dying keeps the place where it goes on. -/
def PointKept (k k' : Kernel Page Sema) (page : Page) : Prop :=
  ∀ t, k.thread page = some t → t.status ≠ .dying →
    ∃ t', k'.thread page = some t' ∧ t'.point = t.point

/-- What every move keeps. -/
structure Moved (k k' : Kernel Page Sema) : Prop where
  queue : QueueMove k k'
  idle : k'.idleThread = k.idleThread
  points : ∀ page, page ≠ k.stack → PointKept k k' page

section Parts

variable {k k' : Kernel Page Sema} {page : Page} {t t' : ThreadPage Page Sema}

omit [DecidableEq Page] [DecidableEq Sema] in
theorem pointKept_of_thread (same : k'.thread page = k.thread page) : PointKept k k' page := by
  intro t known _
  rw [same]
  exact ⟨t, known, rfl⟩

omit [DecidableEq Sema] in
theorem pointKept_of_update {other : Page}
    (thread : k'.thread = Function.update k.thread page (some t'))
    (away : other ≠ page) : PointKept k k' other := by
  apply pointKept_of_thread
  rw [thread, Function.update_of_ne away]

/-- No thread has left, and threads may have been woken. -/
structure Stayed (k k' : Kernel Page Sema) : Prop where
  stack : k'.stack = k.stack
  switching : k'.switching = k.switching
  list : ∃ woken, k'.fifoReadyList = k.fifoReadyList ++ woken
  idle : k'.idleThread = k.idleThread
  points : ∀ page, PointKept k k' page

omit [DecidableEq Page] [DecidableEq Sema] in
theorem Stayed.moved (stayed : Stayed k k') : Moved k k' := by
  rcases stayed.list with ⟨woken, list⟩
  exact ⟨.stays woken stayed.stack stayed.switching list, stayed.idle,
    fun page _ => stayed.points page⟩

omit [DecidableEq Sema] in
/-- `thread_unblock`. -/
theorem stayed_of_threadUnblock (result : k.threadUnblock page = some k') : Stayed k k' := by
  rw [Kernel.threadUnblock] at result
  rcases Option.bind_eq_some_iff.mp result with ⟨t, known, rest⟩
  by_cases blocked : t.status = .blocked
  · have woken := threadUnblock_eq known blocked
    rw [Kernel.threadUnblock, result] at woken
    cases woken
    refine ⟨rfl, rfl, ⟨[page], rfl⟩, rfl, ?_⟩
    intro other u record _
    by_cases same : other = page
    · subst same
      rw [known] at record
      cases record
      exact ⟨_, Function.update_self .., rfl⟩
    · exact ⟨u, (Function.update_of_ne same _ _).trans record, rfl⟩
  · rw [if_neg blocked] at rest
    cases rest

omit [DecidableEq Sema] in
/-- `schedule`. -/
theorem schedule_queue (result : k.schedule = some k') :
    k'.switching.isSome = true ∧ k'.fifoReadyList = k.fifoReadyList.tail ∧
      k'.stack = k.fifoReadyList.headD k.idleThread ∧
      k'.thread = k.thread ∧ k'.idleThread = k.idleThread := by
  rw [Kernel.schedule] at result
  rcases Option.bind_eq_some_iff.mp result with ⟨t, _, rest⟩
  cases waiting : k.fifoReadyList with
  | nil =>
      rw [threadScheduleFifo_nil waiting] at rest
      dsimp only at rest
      split at rest
      · cases rest
        exact ⟨rfl, waiting, rfl, rfl, rfl⟩
      · cases rest
  | cons next others =>
      rw [threadScheduleFifo_cons waiting] at rest
      dsimp only at rest
      split at rest
      · cases rest
        exact ⟨rfl, rfl, rfl, rfl, rfl⟩
      · cases rest

omit [DecidableEq Page] [DecidableEq Sema] in
/-- The same from a state that differs in what moves do not depend on. -/
theorem Moved.congr {base : Kernel Page Sema} (moved : Moved base k')
    (stack : base.stack = k.stack) (switching : base.switching = k.switching)
    (list : base.fifoReadyList = k.fifoReadyList) (idle : base.idleThread = k.idleThread)
    (thread : ∀ page, page ≠ k.stack → base.thread page = k.thread page) :
    Moved k k' := by
  refine ⟨?_, moved.idle.trans idle, ?_⟩
  · cases moved.queue with
    | stays woken stack' switching' list' =>
        exact .stays woken (stack'.trans stack) (switching'.trans switching)
          (by rw [list', list])
    | leaves queued switching' list' stack' =>
        exact .leaves queued switching' (by rw [list', list])
          (by rw [stack', list, idle])
    | settles stack' switching' list' =>
        exact .settles (stack'.trans stack) switching' (list'.trans list)
  · intro page away t known alive
    have apart : page ≠ base.stack := by
      rw [stack]
      exact away
    exact moved.points page apart t ((thread page away).trans known) alive

/-- The running thread has left, after it was itself put on the ready list or
not. -/
structure Left (k k' : Kernel Page Sema) (queued : List Page)
    (point : ResumePoint Sema) : Prop where
  switching : k'.switching.isSome = true
  list : k'.fifoReadyList = (k.fifoReadyList ++ queued).tail
  stack : k'.stack = (k.fifoReadyList ++ queued).headD k.idleThread
  idle : k'.idleThread = k.idleThread
  thread : ∃ t', t'.point = point ∧ k'.thread = Function.update k.thread k.stack (some t')

variable {status : ThreadStatus} {point : ResumePoint Sema} {queued : List Page}

omit [DecidableEq Sema] in
theorem left_of_leave (result : k.leave status point = some k') : Left k k' [] point := by
  rw [Kernel.leave] at result
  rcases Option.bind_eq_some_iff.mp result with ⟨t, _, scheduled⟩
  rcases schedule_queue scheduled with ⟨switching, list, stack, thread, idle⟩
  constructor
  · exact switching
  · rw [list, List.append_nil]
    rfl
  · rw [stack, List.append_nil]
    rfl
  · exact idle
  · exact ⟨_, rfl, thread⟩

omit [DecidableEq Sema] in
theorem Left.moved (left : Left k k' queued point) : Moved k k' := by
  refine ⟨.leaves queued left.switching left.list left.stack, left.idle, ?_⟩
  intro page away
  rcases left.thread with ⟨t', _, thread⟩
  exact pointKept_of_update thread away

omit [DecidableEq Sema] in
/-- `thread_yield`: only the idle thread is not put on the ready list. -/
theorem left_of_threadYield (result : k.threadYield = some k') :
    Left k k' (if k.stack = k.idleThread then [] else [k.stack])
      (.yielded k.interrupts) := by
  rw [Kernel.threadYield] at result
  rcases Option.bind_eq_some_iff.mp result with ⟨t, _, rest⟩
  rcases Option.bind_eq_some_iff.mp rest with ⟨queued, enqueued, left⟩
  have departed := left_of_leave left
  by_cases isIdle : k.stack = k.idleThread
  · rw [if_neg (not_not.mpr isIdle)] at enqueued
    cases enqueued
    rw [if_pos isIdle]
    exact ⟨departed.switching, departed.list, departed.stack, departed.idle, departed.thread⟩
  · rw [if_pos isIdle, Kernel.threadEnqueue] at enqueued
    rcases Option.ite_none_right_eq_some.mp enqueued with ⟨_, same⟩
    cases same
    rw [if_neg isIdle]
    refine ⟨departed.switching, ?_, ?_, departed.idle, departed.thread⟩
    · rw [departed.list, List.append_nil]
    · rw [departed.stack, List.append_nil]

/-- The loop of `sema_down`. -/
theorem moved_of_semaDownLoop {id : Sema} {oldLevel : Bool}
    (result : k.semaDownLoop id oldLevel = some k') : Moved k k' := by
  rw [Kernel.semaDownLoop] at result
  rcases Option.bind_eq_some_iff.mp result with ⟨t, _, rest⟩
  by_cases zero : (k.sema id).value = 0
  · rw [if_pos zero, Kernel.threadBlock] at rest
    rcases Option.ite_none_left_eq_some.mp rest with ⟨_, departs⟩
    exact (left_of_leave departs).moved.congr rfl rfl rfl rfl fun _ _ => rfl
  · rw [if_neg zero] at rest
    cases rest
    refine ⟨.stays [] rfl rfl (List.append_nil _).symm, rfl, ?_⟩
    intro page away
    exact pointKept_of_update rfl away

omit [DecidableEq Sema] in
/-- `thread_switch_tail`. -/
theorem moved_of_threadSwitchTail {prev : Option Page}
    (result : k.threadSwitchTail prev = some k') :
    Moved k { k' with switching := none } ∧
      PointKept k k' k.stack := by
  rw [Kernel.threadSwitchTail] at result
  rcases Option.ite_none_left_eq_some.mp result with ⟨_, rest⟩
  rcases Option.bind_eq_some_iff.mp rest with ⟨cur, current, rest⟩
  have entered : ∀ other, PointKept k
      (k.setThread k.stack { cur with status := .running }) other := by
    intro other u known _
    by_cases same : other = k.stack
    · subst same
      rw [current] at known
      cases known
      exact ⟨_, Function.update_self .., rfl⟩
    · exact ⟨u, (Function.update_of_ne same _ _).trans known, rfl⟩
  have settled : ∀ after : Kernel Page Sema,
      after.stack = k.stack → after.fifoReadyList = k.fifoReadyList →
      after.idleThread = k.idleThread → (∀ other, PointKept k after other) →
      Moved k { after with switching := none } ∧ PointKept k after k.stack := by
    intro after stack list idle points
    exact ⟨⟨.settles stack rfl list, idle, fun other _ => points other⟩, points k.stack⟩
  cases prev with
  | none =>
      cases rest
      exact settled _ rfl rfl rfl entered
  | some page =>
      rcases Option.bind_eq_some_iff.mp rest with ⟨t, known, rest⟩
      by_cases dying : t.status = .dying ∧ page ≠ k.initialThread
      · rw [if_pos dying] at rest
        rcases Option.ite_none_left_eq_some.mp rest with ⟨away, same⟩
        cases same
        refine settled _ rfl rfl rfl ?_
        intro other u record alive
        rcases entered other u record alive with ⟨u', record', point⟩
        refine ⟨u', ?_, point⟩
        have different : other ≠ page := by
          rintro rfl
          have same : k.thread other = some t := (Function.update_of_ne away _ _).symm.trans known
          rw [record] at same
          cases same
          exact alive dying.1
        exact (Function.update_of_ne different _ _).trans record'
      · rw [if_neg dying] at rest
        cases rest
        exact settled _ rfl rfl rfl entered

/-- What a thread does when it has been switched to. -/
theorem moved_of_resume (result : k.resume = some k') : Moved k k' := by
  rw [Kernel.resume] at result
  rcases Option.bind_eq_some_iff.mp result with ⟨t, current, rest⟩
  have goesOn : ∀ level, Moved k
      { k.setThread k.stack { t with point := .own } with interrupts := level } := by
    intro level
    refine ⟨.stays [] rfl rfl (List.append_nil _).symm, rfl, ?_⟩
    intro page away
    exact pointKept_of_update rfl away
  cases point : t.point with
  | own =>
      rw [point] at rest
      cases rest
  | entry =>
      rw [point] at rest
      cases rest
      exact goesOn true
  | yielded oldLevel =>
      rw [point] at rest
      cases rest
      exact goesOn oldLevel
  | blocked =>
      rw [point] at rest
      cases rest
      exact goesOn k.interrupts
  | down id oldLevel =>
      rw [point] at rest
      exact moved_of_semaDownLoop rest

/-- `sema_up`. -/
theorem stayed_of_semaUp {id : Sema} (result : k.semaUp id = some k') : Stayed k k' := by
  rw [Kernel.semaUp] at result
  rcases Option.map_eq_some_iff.mp result with ⟨after, woken, same⟩
  cases same
  cases waiters : (k.sema id).waiters with
  | nil =>
      rw [waiters] at woken
      cases woken
      exact ⟨rfl, rfl, ⟨[], (List.append_nil _).symm⟩, rfl, fun page => pointKept_of_thread rfl⟩
  | cons first rest =>
      rw [waiters] at woken
      have stayed := stayed_of_threadUnblock woken
      exact ⟨stayed.stack, stayed.switching, stayed.list, stayed.idle, stayed.points⟩

omit [DecidableEq Page] in
/-- `sema_try_down`. -/
theorem stayed_of_semaTryDown (k : Kernel Page Sema) (id : Sema) : Stayed k (k.semaTryDown id) := by
  rw [Kernel.semaTryDown]
  split
  · exact ⟨rfl, rfl, ⟨[], (List.append_nil _).symm⟩, rfl, fun page => pointKept_of_thread rfl⟩
  · exact ⟨rfl, rfl, ⟨[], (List.append_nil _).symm⟩, rfl, fun page => pointKept_of_thread rfl⟩

omit [DecidableEq Sema] in
/-- `threadCreate`: the new page was in no use. -/
theorem moved_of_threadCreate (fresh : k.thread page = none)
    (result : k.threadCreate page = some k') : Moved k k' := by
  rw [Kernel.threadCreate] at result
  rcases Option.map_eq_some_iff.mp result with ⟨cur, _, same⟩
  cases same
  refine ⟨.stays [] rfl rfl (List.append_nil _).symm, rfl, ?_⟩
  intro other away t known _
  have different : other ≠ page := by
    rintro rfl
    rw [fresh] at known
    cases known
  refine ⟨t, ?_, rfl⟩
  exact (Function.update_of_ne different _ _).trans ((Function.update_of_ne away _ _).trans known)

omit [DecidableEq Sema] in
/-- The end of `thread_create`. -/
theorem moved_of_threadStarted (result : k.threadStarted page = some k') : Moved k k' := by
  rw [Kernel.threadStarted] at result
  rcases Option.bind_eq_some_iff.mp result with ⟨cur, _, unblocked⟩
  exact (stayed_of_threadUnblock unblocked).moved.congr rfl rfl rfl rfl
    fun other away => Function.update_of_ne away _ _

omit [DecidableEq Sema] in
/-- `thread_exit`. -/
theorem moved_of_threadExit (result : k.threadExit = some k') : Moved k k' := by
  rw [Kernel.threadExit] at result
  rcases Option.bind_eq_some_iff.mp result with ⟨cur, _, rest⟩
  rcases Option.ite_none_right_eq_some.mp rest with ⟨_, departs⟩
  exact (left_of_leave departs).moved.congr rfl rfl rfl rfl fun _ _ => rfl

end Parts

section Steps

variable {k k' : Kernel Page Sema} {move : KernelMove Page Sema}

omit [DecidableEq Page] [DecidableEq Sema] in
theorem of_result {call : Option (Kernel Page Sema)}
    (same : Kernel.result call = .running k') : call = some k' := by
  cases call with
  | none => cases same
  | some after =>
      cases same
      rfl

omit [DecidableEq Page] [DecidableEq Sema] in
theorem moved_level (level : Bool) : Moved k { k with interrupts := level } :=
  ⟨.stays [] rfl rfl (List.append_nil _).symm, rfl, fun _ _ => pointKept_of_thread rfl⟩

/-- What every move of the scheduler does. -/
theorem moved_of_step (stepped : k.step move = some (.running k')) : Moved k k' := by
  cases move with
  | switchTail =>
      rcases Option.map_eq_some_iff.mp stepped with ⟨prev, _, same⟩
      rcases Option.map_eq_some_iff.mp (of_result same) with ⟨after, tail, rfl⟩
      exact (moved_of_threadSwitchTail tail).1
  | resume =>
      rcases of_guard stepped with ⟨_, same⟩
      exact moved_of_resume (of_result same)
  | intrDisable =>
      rcases of_guard stepped with ⟨_, same⟩
      cases same
      exact moved_level false
  | intrEnable =>
      rcases of_guard stepped with ⟨_, same⟩
      cases same
      exact moved_level true
  | create page =>
      rcases of_guard stepped with ⟨guard, same⟩
      rw [Bool.and_eq_true, Bool.not_eq_true', Kernel.isThread, Option.isSome_eq_false_iff] at guard
      exact moved_of_threadCreate (Option.isNone_iff_eq_none.mp guard.2)
        (of_result same)
  | started =>
      rcases Option.ite_none_right_eq_some.mp stepped with ⟨_, created⟩
      rcases Option.map_eq_some_iff.mp created with ⟨page, _, same⟩
      exact moved_of_threadStarted (of_result same)
  | block =>
      rcases of_guard stepped with ⟨_, same⟩
      rcases Option.ite_none_left_eq_some.mp (of_result same) with ⟨_, departs⟩
      exact (left_of_leave departs).moved
  | unblock page handler =>
      rcases of_guard stepped with ⟨_, same⟩
      exact (stayed_of_threadUnblock (of_result same)).moved
  | yield =>
      rcases of_guard stepped with ⟨_, same⟩
      exact (left_of_threadYield (of_result same)).moved
  | timer =>
      rcases of_guard stepped with ⟨_, same⟩
      exact (left_of_threadYield (of_result same)).moved
  | exit =>
      rcases of_guard stepped with ⟨_, same⟩
      exact moved_of_threadExit (of_result same)
  | down id =>
      rcases of_guard stepped with ⟨_, same⟩
      exact (moved_of_semaDownLoop (of_result same)).congr rfl rfl rfl rfl
        fun _ _ => rfl
  | tryDown id handler =>
      rcases of_guard stepped with ⟨_, same⟩
      cases same
      exact (stayed_of_semaTryDown k id).moved
  | up id handler =>
      rcases of_guard stepped with ⟨_, same⟩
      exact (stayed_of_semaUp (of_result same)).moved

end Steps

end CS162.Threads

import CS162.Threads.SchedulerSafety

/-!
# The calls of the scheduler

Each call of a running thread succeeds, and either the thread runs on or the
call ends in a sound switch.
-/

namespace CS162.Threads

open CS162.Foundation

universe u v

variable {Page : Type u} {Sema : Type v} [DecidableEq Page]

section Places

variable {k k' : Kernel Page Sema} {next next' : Option Page}
variable {page : Page} {t t' : ThreadPage Page Sema}

theorem elemPlace_running (idle : Page) (running : t.status = .running) :
    elemPlace idle next page t = none := by
  rw [elemPlace, running]

omit [DecidableEq Page] in
theorem not_embryo_of_running (running : t.status = .running) : ¬Embryo t := by
  intro embryo
  rw [Embryo, running] at embryo
  cases embryo.1

/-- A thread that keeps its place leaves the lists as they are. -/
theorem ListsSound.unmoved (sound : ListsSound k next)
    (was : k.thread page = some t) (recorded : Recorded k k' page t')
    (elem : k'.elemList = k.elemList)
    (agree : ∀ other, other ≠ page → (next' = some other ↔ next = some other))
    (same : elemPlace k.idleThread next' page t' = elemPlace k.idleThread next page t) :
    QueuesSound k'.elemList (k'.place next') := by
  rw [elem, place_update recorded agree]
  apply sound.queues.update_same
  rw [same, Kernel.place, was, Option.bind_some]

variable [DecidableEq Sema]

/-- A thread without a place goes to the end of a list. -/
theorem ListsSound.pushed (sound : ListsSound k next)
    (was : k.thread page = some t) (recorded : Recorded k k' page t') {list : ElemList Sema}
    (elem : k'.elemList = Function.update k.elemList list (k.elemList list ++ [page]))
    (agree : ∀ other, other ≠ page → (next' = some other ↔ next = some other))
    (free : elemPlace k.idleThread next page t = none)
    (placed : elemPlace k.idleThread next' page t' = some list) :
    QueuesSound k'.elemList (k'.place next') := by
  rw [elem, place_update recorded agree, placed]
  apply sound.queues.push
  rw [Kernel.place, was, Option.bind_some, free]

omit [DecidableEq Page] in
theorem elemList_ready {list : List Page} (ready : k'.fifoReadyList = list)
    (sema : ∀ id, (k'.sema id).waiters = (k.sema id).waiters) :
    k'.elemList = Function.update k.elemList .ready list := by
  funext other
  cases other with
  | ready =>
      rw [Function.update_self]
      exact ready
  | waiters id =>
      rw [Function.update_of_ne (by simp)]
      exact sema id

omit [DecidableEq Page] in
theorem elemList_waiters {id : Sema} {sema : Semaphore Page}
    (ready : k'.fifoReadyList = k.fifoReadyList)
    (changed : k'.sema = Function.update k.sema id sema) :
    k'.elemList = Function.update k.elemList (.waiters id) sema.waiters := by
  funext other
  cases other with
  | ready =>
      rw [Function.update_of_ne (by simp)]
      exact ready
  | waiters other =>
      change (k'.sema other).waiters = _
      rw [changed]
      by_cases same : other = id
      · subst same
        rw [Function.update_self, Function.update_self]
      · rw [Function.update_of_ne same, Function.update_of_ne (by simp [same])]
        rfl

theorem enqueue_elemList {id : Sema} (_recorded : Recorded k k' page t')
    (ready : k'.fifoReadyList = k.fifoReadyList)
    (changed : k'.sema = Function.update k.sema id ((k.sema id).enqueue page)) :
    k'.elemList = Function.update k.elemList (.waiters id)
      (k.elemList (.waiters id) ++ [page]) :=
  elemList_waiters ready changed

omit [DecidableEq Page] [DecidableEq Sema] in
theorem elemList_same (ready : k'.fifoReadyList = k.fifoReadyList)
    (sema : ∀ id, (k'.sema id).waiters = (k.sema id).waiters) :
    k'.elemList = k.elemList := by
  funext other
  cases other with
  | ready => exact ready
  | waiters id => exact sema id

end Places

section Calls

variable [DecidableEq Sema] {k k' : Kernel Page Sema}
variable {page : Page} {t t' : ThreadPage Page Sema}

/-- A thread gets a new record, and the semaphores stay as they are. -/
theorem ListsSound.semas {next : Option Page} (sound : ListsSound k next)
    (semas : ∀ id, SemaSound k id) (was : k.thread page = some t)
    (alive : t.status ≠ .dying) (recorded : Recorded k k' page t')
    (all : k'.allList = k.allList) (sema : k'.sema = k.sema) (counts : k'.counts = k.counts)
    (woken : ∀ id, wokenBy id t = true → wokenBy id t' = true) (id : Sema) :
    SemaSound k' id := by
  apply (semas id).congr
  · rw [sema]
  · rw [counts]
  · have moved := sound.woken_setRecord was alive recorded all id
    cases before : wokenBy id t with
    | false =>
        rw [before] at moved
        simp only [Bool.toNat_false] at moved
        omega
    | true =>
        rw [before, woken id before] at moved
        simp only [Bool.toNat_true] at moved
        omega

/-- The running thread in code of its own. -/
structure OwnCode (k : Kernel Page Sema) (t : ThreadPage Page Sema) : Prop where
  record : k.thread k.stack = some t
  running : t.status = .running
  own : t.point = .own

theorem RunningSound.ownCode (sound : RunningSound k)
    (own : k.inOwnCode = true) : ∃ t, OwnCode k t := by
  rcases sound.current with ⟨t, record, running, _⟩
  refine ⟨t, record, running, ?_⟩
  rw [Kernel.inOwnCode, record] at own
  cases point : t.point <;> simp [point] at own
  rfl

omit [DecidableEq Page] [DecidableEq Sema] in
theorem threadCurrent_eq (record : k.thread k.stack = some t)
    (running : t.status = .running) : k.threadCurrent = some t := by
  rw [Kernel.threadCurrent, record, Option.bind_some, if_pos running]

/-- A thread that leaves in a sound state is switched away from. -/
theorem leave_switches {status : ThreadStatus} {point : ResumePoint Sema}
    (record : k.thread k.stack = some t) (running : t.status = .running)
    (leaving : LeavingSound (k.setThread k.stack { t with status := status, point := point })) :
    ∃ after prev, k.leave status point = some after ∧
      SwitchSound after prev := by
  rcases leaving.schedule with ⟨after, prev, result, switched⟩
  refine ⟨after, prev, ?_, switched⟩
  rw [Kernel.leave, threadCurrent_eq record running, Option.bind_some]
  exact result

omit [DecidableEq Page] in
theorem wokenBy_own (running : t.status = .running) (own : t.point = .own)
    (id : Sema) : wokenBy id t = false := by
  rw [wokenBy, running, own]

/-- The running thread gives up the processor. -/
theorem RunningSound.leaving (sound : RunningSound k) (recorded : Recorded k k' k.stack t')
    (off : k'.interrupts = false) (left : t'.status ≠ .running)
    (lists : ListsSound k' none) (semas : ∀ id, SemaSound k' id)
    (log : if t'.status = .dying ∧ k.stack ≠ k.initialThread then
        PageLog k.initialThread k'.events (.exiting k.stack)
      else PageLog k.initialThread k'.events .quiet) :
    LeavingSound k' := by
  constructor
  · exact lists
  · exact semas
  · exact off
  · refine ⟨t', ?_, left, ?_⟩
    · rw [recorded.thread, recorded.stack, Function.update_self]
    · rw [recorded.stack, recorded.initial]
      exact log
  · rw [recorded.thread, recorded.stack, recorded.initial]
    intro page u known different
    rw [Function.update_of_ne different] at known
    exact sound.others page u known different

/-- The same, where the thread will run again. -/
theorem RunningSound.leavingAlive (sound : RunningSound k)
    (record : k.thread k.stack = some t) (running : t.status = .running)
    (recorded : Recorded k k' k.stack t') (all : k'.allList = k.allList)
    (off : k'.interrupts = false) (left : t'.status ≠ .running) (lives : t'.status ≠ .dying)
    (created : ∀ child, t'.creating = some child → t.creating = some child)
    (recordSound : RecordSound t') (idleSound : k.stack = k.idleThread → IdleSound t')
    (queues : QueuesSound k'.elemList (k'.place none))
    (history : k'.enqueued = k'.dispatched ++ k'.fifoReadyList)
    (semas : ∀ id, SemaSound k' id) (events : k'.events = k.events) :
    LeavingSound k' := by
  apply sound.leaving recorded off left
  · apply sound.lists.setAlive record recorded queues all
    · simp [running]
    · exact lives
    · exact recordSound
    · exact idleSound
    · exact created
    · exact sound.lists.not_embryo record (not_embryo_of_running running)
    · exact history
  · exact semas
  · rw [if_neg (fun dying => lives dying.1), events]
    exact sound.log

/-- `thread_yield`. -/
theorem RunningSound.threadYield (sound : RunningSound k) (own : OwnCode k t) :
    ∃ after prev, k.threadYield = some after ∧ SwitchSound after prev := by
  have current := threadCurrent_eq own.record own.running
  have history := sound.lists.history
  have semas : ∀ k' : Kernel Page Sema,
      Recorded k k' k.stack { t with status := .ready, point := .yielded k.interrupts } →
      k'.allList = k.allList → k'.sema = k.sema → k'.counts = k.counts →
      ∀ id, SemaSound k' id := by
    intro k' recorded all sema counts
    apply sound.lists.semas sound.semas own.record _ recorded all sema counts
    · intro id woken
      rw [wokenBy_own own.running own.own] at woken
      cases woken
    · simp [own.running]
  by_cases idle : k.stack = k.idleThread
  · have recorded : Recorded k
        (({ k with interrupts := false } : Kernel Page Sema).setThread k.stack
          { t with status := .ready, point := .yielded k.interrupts }) k.stack
        { t with status := .ready, point := .yielded k.interrupts } :=
      ⟨rfl, rfl, rfl, rfl, rfl⟩
    have leaving := sound.leavingAlive own.record own.running recorded rfl rfl
      (by simp) (by simp) (fun _ creates => creates) trivial
      (by
        intro isIdle
        have before := sound.lists.idle_of own.record isIdle
        exact ⟨by simp, before.childless, by simp, by simp⟩)
      (by
        apply sound.lists.unmoved own.record recorded
        · exact elemList_same rfl (fun _ => rfl)
        · intro other _
          rfl
        · rw [elemPlace_running k.idleThread own.running]
          simp [elemPlace, idle])
      history (semas _ recorded rfl rfl rfl) rfl
    rw [Kernel.threadYield, current, Option.bind_some, if_neg (by simp [idle]), Option.bind_some]
    exact leave_switches own.record own.running leaving
  · have queued : Kernel.threadEnqueue
        ({ k with interrupts := false } : Kernel Page Sema) k.stack = some
        { k with
          interrupts := false
          fifoReadyList := k.fifoReadyList ++ [k.stack]
          enqueued := k.enqueued ++ [k.stack] } := by
      apply if_pos
      rw [Kernel.isThread, own.record]
      rfl
    have recorded : Recorded k
        (({ k with
            interrupts := false
            fifoReadyList := k.fifoReadyList ++ [k.stack]
            enqueued := k.enqueued ++ [k.stack] } : Kernel Page Sema).setThread k.stack
          { t with status := .ready, point := .yielded k.interrupts }) k.stack
        { t with status := .ready, point := .yielded k.interrupts } :=
      ⟨rfl, rfl, rfl, rfl, rfl⟩
    have leaving := sound.leavingAlive own.record own.running recorded rfl rfl
      (by simp) (by simp) (fun _ creates => creates) trivial (fun isIdle => absurd isIdle idle)
      (by
        apply sound.lists.pushed own.record recorded
        · exact elemList_ready rfl (fun _ => rfl)
        · intro other _
          rfl
        · exact elemPlace_running k.idleThread own.running
        · simp [elemPlace, idle])
      (by
        change k.enqueued ++ [k.stack] = k.dispatched ++ (k.fifoReadyList ++ [k.stack])
        rw [history, List.append_assoc])
      (semas _ recorded rfl rfl rfl) rfl
    rw [Kernel.threadYield, current, Option.bind_some, if_pos idle]
    rw [queued, Option.bind_some]
    exact leave_switches own.record own.running leaving

/-- `thread_block` in code of the running thread. -/
theorem RunningSound.threadBlock (sound : RunningSound k)
    (own : OwnCode k t) (off : k.interrupts = false) :
    ∃ after prev, k.threadBlock .blocked = some after ∧
      SwitchSound after prev := by
  have recorded : Recorded k
      (k.setThread k.stack { t with status := .blocked, point := .blocked })
      k.stack { t with status := .blocked, point := .blocked } :=
    ⟨rfl, rfl, rfl, rfl, rfl⟩
  have leaving := sound.leavingAlive own.record own.running recorded rfl off
    (by simp) (by simp) (fun _ creates => creates) trivial
    (by
      intro isIdle
      have before := sound.lists.idle_of own.record isIdle
      exact ⟨by simp, before.childless, by simp, by simp⟩)
    (by
      apply sound.lists.unmoved own.record recorded
      · exact elemList_same rfl (fun _ => rfl)
      · intro other _
        rfl
      · rw [elemPlace_running k.idleThread own.running]
        rfl)
    sound.lists.history
    (by
      apply sound.lists.semas sound.semas own.record _ recorded rfl rfl rfl
      · intro id woken
        rw [wokenBy_own own.running own.own] at woken
        cases woken
      · simp [own.running])
    rfl
  rw [Kernel.threadBlock, if_neg (by simp [off])]
  exact leave_switches own.record own.running leaving

/-- A thread that nobody has woken leaves the list of all threads. -/
theorem ListsSound.woken_erase {next : Option Page} (sound : ListsSound k next)
    (was : k.thread page = some t) (member : page ∈ k.allList)
    (recorded : Recorded k k' page t') (all : k'.allList = k.allList.erase page) (id : Sema)
    (asleep : wokenBy id t = false) : k.woken id ≤ k'.woken id := by
  rw [Kernel.woken, Kernel.woken, all]
  rw [(List.perm_cons_erase member).countP_eq, List.countP_cons_of_neg]
  · apply Nat.le_of_eq
    apply List.countP_congr
    intro other later
    have different : other ≠ page := (sound.allNodup.mem_erase_iff.mp later).1
    rw [recorded.thread, Function.update_of_ne different]
  · rw [was, Option.any_some, asleep]
    exact Bool.false_ne_true

/-- `thread_exit`. -/
theorem RunningSound.threadExit (sound : RunningSound k)
    (own : OwnCode k t) (notIdle : k.stack ≠ k.idleThread) :
    ∃ after prev, k.threadExit = some after ∧ SwitchSound after prev := by
  have alive : t.status ≠ .dying := by simp [own.running]
  have member : k.stack ∈ k.allList := (sound.lists.all k.stack).mpr ⟨t, own.record, alive⟩
  have recorded : Recorded k
      (({ k with
          interrupts := false
          allList := k.allList.erase k.stack
          events := k.events ++ [.exited k.stack] } : Kernel Page Sema).setThread k.stack
        { t with status := .dying, point := .own }) k.stack
      { t with status := .dying, point := .own } :=
    ⟨rfl, rfl, rfl, rfl, rfl⟩
  have leaving := sound.leaving recorded rfl (by simp)
    (by
      apply sound.lists.setRecord own.record recorded
      · apply sound.lists.unmoved own.record recorded
        · exact elemList_same rfl (fun _ => rfl)
        · intro other _
          rfl
        · rw [elemPlace_running k.idleThread own.running]
          rfl
      · exact sound.lists.allNodup.erase k.stack
      · intro other
        change other ∈ k.allList.erase k.stack ↔ _
        rw [sound.lists.allNodup.mem_erase_iff]
        by_cases same : other = k.stack <;> simp [same]
      · exact trivial
      · exact fun isIdle => absurd isIdle notIdle
      · exact fun _ creates => creates
      · exact sound.lists.not_embryo own.record (not_embryo_of_running own.running)
      · exact sound.lists.history)
    (by
      intro id
      have woken := sound.lists.woken_erase own.record member recorded rfl id
        (wokenBy_own own.running own.own id)
      exact ⟨(sound.semas id).account, fun waiting =>
        Nat.le_trans ((sound.semas id).noLostWakeup waiting) woken⟩)
    (by
      by_cases first : k.stack = k.initialThread
      · rw [if_neg (fun dying => dying.2 first)]
        change PageLog k.initialThread (k.events ++ [.exited k.stack]) .quiet
        rw [first]
        exact .exitedInitial sound.log
      · rw [if_pos ⟨rfl, first⟩]
        exact .exited sound.log first)
  rw [Kernel.threadExit, threadCurrent_eq own.record own.running, Option.bind_some, if_pos member]
  exact leave_switches own.record own.running leaving

/-- The running thread runs on. -/
theorem RunningSound.goesOn (sound : RunningSound k)
    (record : k.thread k.stack = some t) (running : t.status = .running)
    (recorded : Recorded k k' k.stack t') (still : t'.status = .running)
    (all : k'.allList = k.allList)
    (created : ∀ child, t'.creating = some child → t.creating = some child)
    (elem : k'.elemList = k.elemList) (idleSound : k.stack = k.idleThread → IdleSound t')
    (history : k'.enqueued = k'.dispatched ++ k'.fifoReadyList)
    (semas : ∀ id, SemaSound k' id) (events : k'.events = k.events)
    (level : t'.point ≠ .own → k'.interrupts = false) : RunningSound k' := by
  constructor
  · apply sound.lists.setAlive record recorded _ all
    · simp [running]
    · simp [still]
    · rw [RecordSound, still]
      trivial
    · exact idleSound
    · exact created
    · exact sound.lists.not_embryo record (not_embryo_of_running running)
    · exact history
    · apply sound.lists.unmoved record recorded elem
      · intro other _
        rfl
      · rw [elemPlace_running k.idleThread running, elemPlace_running k.idleThread still]
  · exact semas
  · rw [recorded.switching]
    exact sound.still
  · refine ⟨t', ?_, still, level⟩
    rw [recorded.thread, recorded.stack, Function.update_self]
  · rw [recorded.thread, recorded.stack, recorded.initial]
    intro page u known different
    rw [Function.update_of_ne different] at known
    exact sound.others page u known different
  · rw [recorded.initial, events]
    exact sound.log

/-- A thread runs, or one is being switched to. -/
def KernelSound (k : Kernel Page Sema) : Prop := RunningSound k ∨ ∃ prev, SwitchSound k prev

/-- The running thread goes through code of its own at another level. -/
theorem RunningSound.setLevel (sound : RunningSound k) (level : Bool)
    (own : OwnCode k t) : RunningSound { k with interrupts := level } := by
  constructor
  · exact ⟨sound.lists.queues, sound.lists.allNodup, sound.lists.all,
        sound.lists.records, sound.lists.idle, sound.lists.creating,
        sound.lists.creator, sound.lists.history⟩
  · exact fun id => ⟨(sound.semas id).account, (sound.semas id).noLostWakeup⟩
  · exact sound.still
  · exact ⟨t, own.record, own.running, fun away => absurd own.own away⟩
  · exact sound.others
  · exact sound.log

omit [DecidableEq Page] in
/-- One semaphore changes. -/
theorem SemaSound.update (semas : ∀ other, SemaSound k other) (id : Sema)
    (sema : Semaphore Page) (counts : SemaCounts)
    (changed : k'.sema = Function.update k.sema id sema)
    (counted : k'.counts = Function.update k.counts id counts)
    (account : counts.initial + counts.ups < unsignedModulus →
      sema.value + counts.downs + counts.tryDowns = counts.initial + counts.ups)
    (noLostWakeup : sema.waiters ≠ [] → sema.value ≤ k'.woken id)
    (woken : ∀ other, other ≠ id → k.woken other ≤ k'.woken other)
    (other : Sema) : SemaSound k' other := by
  by_cases same : other = id
  · subst same
    constructor
    · rw [changed, counted, Function.update_self, Function.update_self]
      exact account
    · rw [changed, Function.update_self]
      exact noLostWakeup
  · apply (semas other).congr
    · rw [changed, Function.update_of_ne same]
    · rw [counted, Function.update_of_ne same]
    · exact woken other same

/-- A running thread that can call `sema_down`, or that goes on in its loop. -/
structure InSemaDown (k : Kernel Page Sema) (t : ThreadPage Page Sema)
    (id : Sema) : Prop where
  record : k.thread k.stack = some t
  running : t.status = .running
  off : k.interrupts = false
  notIdle : k.stack ≠ k.idleThread
  point : t.point = .own ∨ ∃ level, t.point = .down id level

omit [DecidableEq Page] in
theorem InSemaDown.wokenBy_other {id other : Sema} (down : InSemaDown k t id)
    (different : other ≠ id) : wokenBy other t = false := by
  rw [wokenBy, down.running]
  rcases down.point with own | ⟨level, waiting⟩
  · rw [own]
  · rw [waiting]
    exact decide_eq_false (Ne.symm different)

/-- The value is zero: the thread goes to the end of the waiters. -/
theorem RunningSound.semaDown_zero (sound : RunningSound k) {id : Sema}
    (down : InSemaDown k t id) (zero : (k.sema id).value = 0) (oldLevel : Bool) :
    ∃ after prev,
      (k.setSema id ((k.sema id).enqueue k.stack)).threadBlock
        (.down id oldLevel) = some after ∧ SwitchSound after prev := by
  have recorded : Recorded k
      ((k.setSema id ((k.sema id).enqueue k.stack)).setThread k.stack
        { t with status := .blocked, point := .down id oldLevel }) k.stack
      { t with status := .blocked, point := .down id oldLevel } :=
    ⟨rfl, rfl, rfl, rfl, rfl⟩
  have leaving := sound.leavingAlive down.record down.running recorded rfl
    down.off (by simp) (by simp) (fun _ creates => creates) trivial
    (fun isIdle => absurd isIdle down.notIdle)
    (by
      apply sound.lists.pushed down.record recorded
      · exact enqueue_elemList recorded rfl rfl
      · intro other _
        rfl
      · exact elemPlace_running k.idleThread down.running
      · rfl)
    sound.lists.history
    (by
      apply SemaSound.update sound.semas id ((k.sema id).enqueue k.stack) (k.counts id)
      · rfl
      · exact (Function.update_eq_self id k.counts).symm
      · exact (sound.semas id).account
      · intro _
        rw [Semaphore.enqueue_value, zero]
        exact Nat.zero_le _
      · intro other different
        have moved := sound.lists.woken_setRecord down.record
          (by simp [down.running]) recorded rfl other
        rw [down.wokenBy_other different, Bool.toNat_false] at moved
        omega)
    rfl
  rw [Kernel.threadBlock, if_neg (by simp [Kernel.setSema, down.off])]
  exact leave_switches down.record down.running leaving

/-- The value is positive: the thread takes one and runs on. -/
theorem RunningSound.semaDown_pos (sound : RunningSound k) {id : Sema}
    (down : InSemaDown k t id) (positive : (k.sema id).value ≠ 0) (oldLevel : Bool) :
    RunningSound
      { ((k.setSema id (k.sema id).take).setCounts id
          { k.counts id with downs := (k.counts id).downs + 1 }).setThread
          k.stack { t with point := .own } with
        interrupts := oldLevel } := by
  have recorded : Recorded k
      { ((k.setSema id (k.sema id).take).setCounts id
          { k.counts id with downs := (k.counts id).downs + 1 }).setThread
          k.stack { t with point := .own } with
        interrupts := oldLevel } k.stack { t with point := .own } :=
    ⟨rfl, rfl, rfl, rfl, rfl⟩
  apply sound.goesOn down.record down.running recorded down.running rfl (fun _ creates => creates)
  · refine elemList_same (k := k) rfl ?_
    intro other
    change (Function.update k.sema id _ other).waiters = _
    by_cases same : other = id
    · subst same
      rw [Function.update_self, Semaphore.take_waiters]
    · rw [Function.update_of_ne same]
  · exact fun isIdle => absurd isIdle down.notIdle
  · exact sound.lists.history
  · have moved := sound.lists.woken_setRecord down.record (by simp [down.running]) recorded rfl
    apply SemaSound.update sound.semas id (k.sema id).take
      { k.counts id with downs := (k.counts id).downs + 1 }
    · rfl
    · rfl
    · intro bound
      have account := (sound.semas id).account bound
      change (k.sema id).value - 1 + ((k.counts id).downs + 1) +
        (k.counts id).tryDowns = (k.counts id).initial + (k.counts id).ups
      omega
    · rw [Semaphore.take_value, Semaphore.take_waiters]
      intro waiting
      have enough := (sound.semas id).noLostWakeup waiting
      have atMost : (wokenBy id t).toNat ≤ 1 := Bool.toNat_le _
      have moved := moved id
      omega
    · intro other different
      have moved := moved other
      rw [down.wokenBy_other different, Bool.toNat_false] at moved
      omega
  · rfl
  · exact fun away => absurd rfl away

/-- The loop of `sema_down`. -/
theorem RunningSound.semaDownLoop (sound : RunningSound k) {id : Sema}
    (down : InSemaDown k t id) (oldLevel : Bool) :
    ∃ after, k.semaDownLoop id oldLevel = some after ∧ KernelSound after := by
  rw [Kernel.semaDownLoop, threadCurrent_eq down.record down.running, Option.bind_some]
  by_cases zero : (k.sema id).value = 0
  · rw [if_pos zero]
    rcases sound.semaDown_zero down zero oldLevel with ⟨after, prev, result, switched⟩
    exact ⟨after, result, Or.inr ⟨prev, switched⟩⟩
  · rw [if_neg zero]
    exact ⟨_, rfl, Or.inl (sound.semaDown_pos down zero oldLevel)⟩

end Calls

end CS162.Threads

import CS162.Foundation.Queues
import CS162.Threads.Scheduler

/-!
# The lists of the scheduler

A thread's one `elem` link is in the ready list or in the waiters of one
semaphore, as its status and its place in the code say.  The invariant comes in
three forms: while a thread runs, when it enters `schedule`, and after the stack
switch.
-/

namespace CS162.Threads

open CS162.Foundation

universe u v

variable {Page : Type u} {Sema : Type v}

/-- The lists that `elem` can be in. -/
inductive ElemList (Sema : Type v) where
  | ready
  | waiters (sema : Sema)
  deriving DecidableEq

/-- The list that the `elem` of a thread belongs in.  The thread that `schedule`
has chosen is in none, and the idle thread never is. -/
def elemPlace [DecidableEq Page] (idle : Page) (next : Option Page) (page : Page)
    (t : ThreadPage Page Sema) : Option (ElemList Sema) :=
  match t.status with
  | .ready => if page = idle ∨ next = some page then none else some .ready
  | .blocked =>
      match t.point with
      | .down id _ => some (.waiters id)
      | _ => none
  | .running => none
  | .dying => none

/-- A thread that does not run is in the code where it left the processor. -/
def RecordSound (t : ThreadPage Page Sema) : Prop :=
  match t.status, t.point with
  | .ready, .own => False
  | .blocked, .own => False
  | .blocked, .yielded _ => False
  | _, _ => True

/-- What the idle thread may be doing. -/
structure IdleSound (t : ThreadPage Page Sema) : Prop where
  alive : t.status ≠ .dying
  childless : t.creating = none
  entered : t.point ≠ .entry
  waitless : ∀ id oldLevel, t.point ≠ .down id oldLevel

/-- A thread that `thread_create` has not handed to the scheduler yet. -/
def Embryo (t : ThreadPage Page Sema) : Prop := t.status = .blocked ∧ t.point = .entry

namespace Kernel

variable [DecidableEq Page]

def elemList (k : Kernel Page Sema) : ElemList Sema → List Page
  | .ready => k.fifoReadyList
  | .waiters id => (k.sema id).waiters

def place (k : Kernel Page Sema) (next : Option Page) (page : Page) : Option (ElemList Sema) :=
  (k.thread page).bind (elemPlace k.idleThread next page)

end Kernel

section Lists

variable [DecidableEq Page]

/-- The part of the invariant that does not depend on who runs. -/
structure ListsSound (k : Kernel Page Sema) (next : Option Page) : Prop where
  queues : QueuesSound k.elemList (k.place next)
  allNodup : k.allList.Nodup
  all : ∀ page, page ∈ k.allList ↔ ∃ t, k.thread page = some t ∧ t.status ≠ .dying
  records : ∀ page t, k.thread page = some t → RecordSound t
  idle : ∃ t, k.thread k.idleThread = some t ∧ IdleSound t
  creating : ∀ page t child, k.thread page = some t →
    t.creating = some child → ∃ c, k.thread child = some c ∧ Embryo c
  creator : ∀ page other t u child, k.thread page = some t →
    k.thread other = some u → t.creating = some child →
    u.creating = some child → page = other
  history : k.enqueued = k.dispatched ++ k.fifoReadyList

/-- A thread has got a new record. -/
structure Recorded (k k' : Kernel Page Sema) (page : Page)
    (t' : ThreadPage Page Sema) : Prop where
  thread : k'.thread = Function.update k.thread page (some t')
  idle : k'.idleThread = k.idleThread
  initial : k'.initialThread = k.initialThread
  stack : k'.stack = k.stack
  switching : k'.switching = k.switching

variable {k k' : Kernel Page Sema} {next next' : Option Page}
variable {page : Page} {t t' : ThreadPage Page Sema}

/-- A new record changes only the place of its own page. -/
theorem place_update (recorded : Recorded k k' page t')
    (agree : ∀ other, other ≠ page → (next' = some other ↔ next = some other)) :
    k'.place next' = Function.update (k.place next) page
      (elemPlace k.idleThread next' page t') := by
  funext other
  rw [Kernel.place, recorded.thread, recorded.idle]
  by_cases same : other = page
  · subst same
    rw [Function.update_self, Function.update_self]
    rfl
  · rw [Function.update_of_ne same, Function.update_of_ne same, Kernel.place]
    congr 1
    funext u
    simp only [elemPlace, agree other same]

theorem ListsSound.idle_of (sound : ListsSound k next)
    (was : k.thread page = some t) (isIdle : page = k.idleThread) :
    IdleSound t := by
  rcases sound.idle with ⟨u, record, idle⟩
  rw [← isIdle, was] at record
  cases record
  exact idle

theorem ListsSound.not_embryo (sound : ListsSound k next)
    (was : k.thread page = some t) (grown : ¬Embryo t) :
    ∀ other u, k.thread other = some u → u.creating ≠ some page := by
  intro other u record creates
  rcases sound.creating other u page record creates with ⟨c, child, embryo⟩
  rw [was] at child
  cases child
  exact grown embryo

/-- One thread gets a new record. -/
theorem ListsSound.setRecord (sound : ListsSound k next)
    (was : k.thread page = some t) (recorded : Recorded k k' page t')
    (queues : QueuesSound k'.elemList (k'.place next')) (allNodup : k'.allList.Nodup)
    (all : ∀ other, other ∈ k'.allList ↔
      if other = page then t'.status ≠ .dying else other ∈ k.allList)
    (record : RecordSound t') (idleSound : page = k.idleThread → IdleSound t')
    (creating : ∀ child, t'.creating = some child → t.creating = some child)
    (unborn : ∀ other u, k.thread other = some u → u.creating ≠ some page)
    (history : k'.enqueued = k'.dispatched ++ k'.fifoReadyList) :
    ListsSound k' next' := by
  -- A thread that creates another has done so before.
  have before : ∀ other v child, k'.thread other = some v → v.creating = some child →
      ∃ x, k.thread other = some x ∧ x.creating = some child := by
    intro other v child known creates
    rw [recorded.thread] at known
    by_cases same : other = page
    · subst same
      rw [Function.update_self] at known
      cases known
      exact ⟨t, was, creating child creates⟩
    · rw [Function.update_of_ne same] at known
      exact ⟨v, known, creates⟩
  constructor
  · exact queues
  · exact allNodup
  · intro other
    rw [all, recorded.thread]
    by_cases same : other = page
    · subst same
      simp
    · rw [if_neg same, Function.update_of_ne same]
      exact sound.all other
  · intro other u known
    rw [recorded.thread] at known
    by_cases same : other = page
    · subst same
      rw [Function.update_self] at known
      cases known
      exact record
    · rw [Function.update_of_ne same] at known
      exact sound.records other u known
  · rw [recorded.idle, recorded.thread]
    by_cases same : k.idleThread = page
    · subst same
      rw [Function.update_self]
      exact ⟨t', rfl, idleSound rfl⟩
    · rw [Function.update_of_ne same]
      exact sound.idle
  · intro other u child known creates
    rcases before other u child known creates with ⟨v, record, creates⟩
    rcases sound.creating other v child record creates with ⟨c, born, embryo⟩
    have different : child ≠ page := by
      rintro rfl
      exact unborn other v record creates
    refine ⟨c, ?_, embryo⟩
    rw [recorded.thread, Function.update_of_ne different]
    exact born
  · intro first second u w child firstKnown secondKnown firstCreates secondCreates
    rcases before first u child firstKnown firstCreates with ⟨x, record, creates⟩
    rcases before second w child secondKnown secondCreates with ⟨y, record', creates'⟩
    exact sound.creator first second x y child record record' creates creates'
  · exact history

/-- One thread that goes on living gets a new record. -/
theorem ListsSound.setAlive (sound : ListsSound k next)
    (was : k.thread page = some t) (recorded : Recorded k k' page t')
    (queues : QueuesSound k'.elemList (k'.place next')) (allList : k'.allList = k.allList)
    (lived : t.status ≠ .dying) (lives : t'.status ≠ .dying) (record : RecordSound t')
    (idleSound : page = k.idleThread → IdleSound t')
    (creating : ∀ child, t'.creating = some child → t.creating = some child)
    (unborn : ∀ other u, k.thread other = some u → u.creating ≠ some page)
    (history : k'.enqueued = k'.dispatched ++ k'.fifoReadyList) :
    ListsSound k' next' := by
  apply sound.setRecord was recorded queues
  · rw [allList]
    exact sound.allNodup
  · intro other
    rw [allList]
    by_cases same : other = page
    · subst same
      rw [if_pos rfl, sound.all]
      exact ⟨fun _ => lives, fun _ => ⟨t, was, lived⟩⟩
    · rw [if_neg same]
  · exact record
  · exact idleSound
  · exact creating
  · exact unborn
  · exact history

end Lists

/-! ## Semaphores -/

section Semaphores

variable [DecidableEq Sema]

/-- A thread that `sema_up` has made ready and that has not tested the value of
the semaphore again. -/
def wokenBy (id : Sema) (t : ThreadPage Page Sema) : Bool :=
  match t.status, t.point with
  | .ready, .down other _ => other = id
  | .running, .down other _ => other = id
  | _, _ => false

namespace Kernel

/-- How many threads have been woken and not yet tested the value again. -/
def woken (k : Kernel Page Sema) (id : Sema) : Nat :=
  k.allList.countP fun page => (k.thread page).any (wokenBy id)

end Kernel

theorem countP_update {members : List Page} {test test' : Page → Bool}
    {page : Page} (nodup : members.Nodup) (member : page ∈ members)
    (same : ∀ other, other ≠ page → test' other = test other) :
    members.countP test' + (test page).toNat = members.countP test + (test' page).toNat := by
  induction members with
  | nil => cases member
  | cons first rest inductionHypothesis =>
      have once := List.nodup_cons.mp nodup
      rw [List.countP_cons, List.countP_cons]
      by_cases here : first = page
      · subst here
        have others : rest.countP test' = rest.countP test := by
          apply List.countP_congr
          intro other inRest
          have different : other ≠ first := by
            rintro rfl
            exact once.1 inRest
          rw [same other different]
        rw [others]
        cases test first <;> cases test' first <;> simp
      · have later : page ∈ rest := by
          rcases List.mem_cons.mp member with same | later
          · exact absurd same.symm here
          · exact later
        have moved := inductionHypothesis once.2 later
        rw [same first here]
        omega

/-- The value of each semaphore is what its operations have left, and while
threads wait it is not more than the number of woken threads. -/
structure SemaSound (k : Kernel Page Sema) (id : Sema) : Prop where
  account :
    (k.counts id).initial + (k.counts id).ups < unsignedModulus →
    (k.sema id).value + (k.counts id).downs + (k.counts id).tryDowns =
      (k.counts id).initial + (k.counts id).ups
  noLostWakeup : (k.sema id).waiters ≠ [] → (k.sema id).value ≤ k.woken id

variable {k k' : Kernel Page Sema}

theorem woken_congr (thread : k'.thread = k.thread)
    (all : k'.allList = k.allList) (id : Sema) : k'.woken id = k.woken id := by
  rw [Kernel.woken, Kernel.woken, thread, all]

theorem SemaSound.congr {id : Sema} (sound : SemaSound k id)
    (sema : k'.sema id = k.sema id) (counts : k'.counts id = k.counts id)
    (woken : k.woken id ≤ k'.woken id) : SemaSound k' id := by
  constructor
  · rw [sema, counts]
    exact sound.account
  · rw [sema]
    intro waiting
    exact Nat.le_trans (sound.noLostWakeup waiting) woken

variable [DecidableEq Page] {next : Option Page} {page : Page}
variable {t t' : ThreadPage Page Sema}

theorem ListsSound.woken_setRecord (sound : ListsSound k next)
    (was : k.thread page = some t) (alive : t.status ≠ .dying)
    (recorded : Recorded k k' page t') (all : k'.allList = k.allList) (id : Sema) :
    k'.woken id + (wokenBy id t).toNat = k.woken id + (wokenBy id t').toNat := by
  have member : page ∈ k.allList := (sound.all page).mpr ⟨t, was, alive⟩
  have others : ∀ other, other ≠ page →
      (k'.thread other).any (wokenBy id) = (k.thread other).any (wokenBy id) := by
    intro other different
    rw [recorded.thread, Function.update_of_ne different]
  have moved := countP_update sound.allNodup member others
  have record : k'.thread page = some t' := by
    rw [recorded.thread, Function.update_self]
  rw [was, record, Option.any_some, Option.any_some] at moved
  rw [Kernel.woken, Kernel.woken, all]
  exact moved

end Semaphores

/-! ## Pages of threads -/

/-- How far the reclaiming of a page is. -/
inductive PagePhase (Page : Type u) where
  | quiet
  | exiting (page : Page)
  | owed (page : Page)

/-- Every exit of a thread other than the first one is followed at once by the
dispatch of another thread, and that by the freeing of its page.  No other page
is freed. -/
inductive PageLog (initialThread : Page) : List (PageEvent Page) → PagePhase Page → Prop
  | nil : PageLog initialThread [] .quiet
  | created {events : List (PageEvent Page)} {page : Page} :
      PageLog initialThread events .quiet →
      PageLog initialThread (events ++ [.created page]) .quiet
  | dispatched {events : List (PageEvent Page)} {page : Page} :
      PageLog initialThread events .quiet →
      PageLog initialThread (events ++ [.dispatched page]) .quiet
  | exitedInitial {events : List (PageEvent Page)} :
      PageLog initialThread events .quiet →
      PageLog initialThread (events ++ [.exited initialThread]) .quiet
  | exited {events : List (PageEvent Page)} {page : Page} :
      PageLog initialThread events .quiet → page ≠ initialThread →
      PageLog initialThread (events ++ [.exited page]) (.exiting page)
  | successor {events : List (PageEvent Page)} {page next : Page} :
      PageLog initialThread events (.exiting page) → next ≠ page →
      PageLog initialThread (events ++ [.dispatched next]) (.owed page)
  | freed {events : List (PageEvent Page)} {page : Page} :
      PageLog initialThread events (.owed page) →
      PageLog initialThread (events ++ [.freed page]) .quiet

/-- The pages that are still to be freed: one or none. -/
def PagePhase.pending [DecidableEq Page] (phase : PagePhase Page) (page : Page) : Nat :=
  match phase with
  | .quiet => 0
  | .exiting other => if other = page then 1 else 0
  | .owed other => if other = page then 1 else 0

section Log

variable [DecidableEq Page] {initialThread : Page}
variable {events : List (PageEvent Page)} {phase : PagePhase Page}

/-- Each page has been freed as often as its thread has exited, but for the one
that is pending. -/
theorem PageLog.count (log : PageLog initialThread events phase) {page : Page}
    (other : page ≠ initialThread) :
    events.count (.freed page) + phase.pending page = events.count (.exited page) := by
  induction log with
  | nil => rfl
  | created _ inductionHypothesis =>
      simpa [List.count_append] using inductionHypothesis
  | dispatched _ inductionHypothesis =>
      simpa [List.count_append] using inductionHypothesis
  | exitedInitial _ inductionHypothesis =>
      simpa [List.count_append, Ne.symm other] using inductionHypothesis
  | @exited _ exiting _ _ inductionHypothesis =>
      simp only [PagePhase.pending, List.count_append] at inductionHypothesis ⊢
      by_cases same : exiting = page
      · simp [same]
        omega
      · simp [same]
        omega
  | successor _ _ inductionHypothesis =>
      simpa [List.count_append, PagePhase.pending] using inductionHypothesis
  | @freed _ owed _ inductionHypothesis =>
      simp only [PagePhase.pending, List.count_append] at inductionHypothesis ⊢
      by_cases same : owed = page
      · simp [same] at inductionHypothesis ⊢
        omega
      · simp [same] at inductionHypothesis ⊢
        omega

omit [DecidableEq Page] in
theorem PageLog.exiting_ne (log : PageLog initialThread events phase)
    {page : Page} (pending : phase = .exiting page ∨ phase = .owed page) :
    page ≠ initialThread := by
  induction log with
  | exited _ different _ =>
      rcases pending with same | same
      · cases same
        exact different
      · cases same
  | successor _ _ inductionHypothesis =>
      rcases pending with same | same
      · cases same
      · cases same
        exact inductionHypothesis (Or.inl rfl)
  | _ => simp at pending

omit [DecidableEq Page] in
/-- The page of the first thread is never freed. -/
theorem PageLog.initial_kept (log : PageLog initialThread events phase) :
    .freed initialThread ∉ events := by
  induction log with
  | nil => simp
  | freed log inductionHypothesis =>
      have different := log.exiting_ne (Or.inr rfl)
      simp [inductionHypothesis, Ne.symm different]
  | _ => simp_all

end Log

/-! ## The three forms of the invariant -/

section Phases

variable [DecidableEq Page] [DecidableEq Sema]

/-- A thread runs and no switch is in progress. -/
structure RunningSound (k : Kernel Page Sema) : Prop where
  lists : ListsSound k none
  semas : ∀ id, SemaSound k id
  still : k.switching = none
  current : ∃ t, k.thread k.stack = some t ∧ t.status = .running ∧
    (t.point ≠ .own → k.interrupts = false)
  others : ∀ page t, k.thread page = some t → page ≠ k.stack →
    t.status ≠ .running ∧ (t.status = .dying → page = k.initialThread)
  log : PageLog k.initialThread k.events .quiet

/-- The running thread has given up the processor and enters `schedule`. -/
structure LeavingSound (k : Kernel Page Sema) : Prop where
  lists : ListsSound k none
  semas : ∀ id, SemaSound k id
  off : k.interrupts = false
  current : ∃ t, k.thread k.stack = some t ∧ t.status ≠ .running ∧
    (if t.status = .dying ∧ k.stack ≠ k.initialThread then
      PageLog k.initialThread k.events (.exiting k.stack)
    else PageLog k.initialThread k.events .quiet)
  others : ∀ page t, k.thread page = some t → page ≠ k.stack →
    t.status ≠ .running ∧ (t.status = .dying → page = k.initialThread)

/-- The thread that was left is dying, and its page has to be freed. -/
def Owed (k : Kernel Page Sema) (prev : Option Page) (page : Page) : Prop :=
  prev = some page ∧ page ≠ k.initialThread ∧ ∃ t, k.thread page = some t ∧ t.status = .dying

/-- The stack is that of the next thread, which has not marked itself running
yet. -/
structure SwitchSound (k : Kernel Page Sema) (prev : Option Page) : Prop where
  lists : ListsSound k (some k.stack)
  semas : ∀ id, SemaSound k id
  switching : k.switching = some prev
  off : k.interrupts = false
  current : ∃ t, k.thread k.stack = some t ∧
    (t.status = .ready ∨ (t.status = .blocked ∧ k.stack = k.idleThread))
  nobody : ∀ page t, k.thread page = some t → t.status ≠ .running
  dead : ∀ page t, k.thread page = some t → t.status = .dying →
    page = k.initialThread ∨ prev = some page
  handed : ∀ page, prev = some page → page ≠ k.stack ∧ ∃ t, k.thread page = some t
  idleLast : k.stack = k.idleThread → k.fifoReadyList = []
  owed : ∀ page, Owed k prev page → PageLog k.initialThread k.events (.owed page)
  quiet : (∀ page, ¬Owed k prev page) → PageLog k.initialThread k.events .quiet

variable {k : Kernel Page Sema}

/-- What `schedule` does. -/
structure Scheduled (k after : Kernel Page Sema) : Prop where
  thread : after.thread = k.thread
  sema : after.sema = k.sema
  counts : after.counts = k.counts
  all : after.allList = k.allList
  idle : after.idleThread = k.idleThread
  initial : after.initialThread = k.initialThread
  interrupts : after.interrupts = k.interrupts
  handed : after.switching = some (if k.stack = after.stack then none else some k.stack)
  events : after.events = k.events ++ [.dispatched after.stack]
  chosen : after.stack = k.threadScheduleFifo.2
  waiting : after.fifoReadyList = k.threadScheduleFifo.1.fifoReadyList
  enqueued : after.enqueued = k.enqueued
  dispatched : after.dispatched = k.threadScheduleFifo.1.dispatched

omit [DecidableEq Sema] [DecidableEq Page] in
theorem threadScheduleFifo_nil (waiting : k.fifoReadyList = []) :
    k.threadScheduleFifo = (k, k.idleThread) := by
  rw [Kernel.threadScheduleFifo, waiting]

omit [DecidableEq Sema] [DecidableEq Page] in
theorem threadScheduleFifo_cons {next : Page} {rest : List Page}
    (waiting : k.fifoReadyList = next :: rest) :
    k.threadScheduleFifo =
      ({ k with
          fifoReadyList := rest
          dispatched := k.dispatched ++ [next] }, next) := by
  rw [Kernel.threadScheduleFifo, waiting]

omit [DecidableEq Sema] in
theorem schedule_eq {t : ThreadPage Page Sema}
    (current : k.thread k.stack = some t) (left : t.status ≠ .running)
    (off : k.interrupts = false) (valid : (k.thread k.threadScheduleFifo.2).isSome = true) :
    ∃ after, k.schedule = some after ∧ Scheduled k after := by
  have kept : k.threadScheduleFifo.1.thread = k.thread ∧
      k.threadScheduleFifo.1.interrupts = k.interrupts ∧
      k.threadScheduleFifo.1.events = k.events ∧
      k.threadScheduleFifo.1.sema = k.sema ∧
      k.threadScheduleFifo.1.counts = k.counts ∧
      k.threadScheduleFifo.1.allList = k.allList ∧
      k.threadScheduleFifo.1.idleThread = k.idleThread ∧
      k.threadScheduleFifo.1.initialThread = k.initialThread ∧
      k.threadScheduleFifo.1.enqueued = k.enqueued := by
    rw [Kernel.threadScheduleFifo]
    cases k.fifoReadyList <;> simp
  rcases kept with ⟨thread, interrupts, events, sema, counts, all, idle, initial, enqueued⟩
  have asserted : (!k.threadScheduleFifo.1.interrupts &&
      t.status ≠ .running &&
      k.threadScheduleFifo.1.isThread k.threadScheduleFifo.2) = true := by
    rw [interrupts, off, Kernel.isThread, thread, valid]
    simp [left]
  refine
    ⟨{ k.threadScheduleFifo.1 with
        stack := k.threadScheduleFifo.2
        switching := some (if k.stack = k.threadScheduleFifo.2 then none else some k.stack)
        events := k.threadScheduleFifo.1.events ++ [.dispatched k.threadScheduleFifo.2] }, ?_, ?_⟩
  · rw [Kernel.schedule, current, Option.bind_some]
    simp only [asserted, if_true]
  · constructor
    · exact thread
    · exact sema
    · exact counts
    · exact all
    · exact idle
    · exact initial
    · exact interrupts
    · rfl
    · change _ ++ _ = _
      rw [events]
    · rfl
    · rfl
    · exact enqueued
    · rfl

omit [DecidableEq Sema] in
theorem elemPlace_ready {idle page : Page} {t : ThreadPage Page Sema}
    (place : elemPlace idle none page t = some .ready) :
    t.status = .ready ∧ page ≠ idle := by
  rw [elemPlace] at place
  cases status : t.status with
  | ready =>
      rw [status] at place
      constructor
      · rfl
      · rintro rfl
        simp at place
  | blocked =>
      rw [status] at place
      cases point : t.point <;> simp [point] at place
  | running => simp [status] at place
  | dying => simp [status] at place

omit [DecidableEq Sema] in
/-- The thread at the head of the ready list is ready and is not the idle
thread. -/
theorem ListsSound.head (sound : ListsSound k none) {next : Page}
    {rest : List Page} (waiting : k.fifoReadyList = next :: rest) :
    next ≠ k.idleThread ∧ ∃ t, k.thread next = some t ∧ t.status = .ready := by
  have place : k.place none next = some .ready := by
    exact sound.queues.place_of_head waiting
  rcases Option.bind_eq_some_iff.mp place with ⟨t, record, place⟩
  have ready := elemPlace_ready place
  exact ⟨ready.2, t, record, ready.1⟩

/-- The lists while the chosen thread is switched to. -/
theorem ListsSound.scheduled {after : Kernel Page Sema}
    (sound : ListsSound k none) (scheduled : Scheduled k after) :
    ListsSound after (some after.stack) := by
  constructor
  · cases waiting : k.fifoReadyList with
    | nil =>
        have stack : after.stack = k.idleThread := by
          rw [scheduled.chosen, threadScheduleFifo_nil waiting]
        have lists : after.elemList = k.elemList := by
          funext list
          cases list with
          | ready =>
              change after.fifoReadyList = k.fifoReadyList
              rw [scheduled.waiting, threadScheduleFifo_nil waiting]
          | waiters id =>
              change (after.sema id).waiters = _
              rw [scheduled.sema]
              rfl
        have places : after.place (some after.stack) = k.place none := by
          funext page
          rw [Kernel.place, Kernel.place, scheduled.thread, scheduled.idle, stack]
          congr 1
          funext t
          simp [elemPlace, eq_comm]
        rw [lists, places]
        exact sound.queues
    | cons next rest =>
        have stack : after.stack = next := by
          rw [scheduled.chosen, threadScheduleFifo_cons waiting]
        have lists : after.elemList = Function.update k.elemList .ready rest := by
          funext list
          cases list with
          | ready =>
              rw [Function.update_self]
              change after.fifoReadyList = rest
              rw [scheduled.waiting, threadScheduleFifo_cons waiting]
          | waiters id =>
              rw [Function.update_of_ne (by simp)]
              change (after.sema id).waiters = _
              rw [scheduled.sema]
              rfl
        have places : after.place (some after.stack) =
            Function.update (k.place none) next none := by
          rcases (sound.head waiting).2 with ⟨u, record, ready⟩
          funext page
          rw [Kernel.place, scheduled.thread, scheduled.idle, stack]
          by_cases same : page = next
          · subst same
            rw [Function.update_self, record, Option.bind_some, elemPlace, ready]
            simp
          · rw [Function.update_of_ne same, Kernel.place]
            congr 1
            funext t
            simp [elemPlace, Ne.symm same]
        rw [lists, places]
        exact sound.queues.pop waiting
  · rw [scheduled.all]
    exact sound.allNodup
  · rw [scheduled.all, scheduled.thread]
    exact sound.all
  · rw [scheduled.thread]
    exact sound.records
  · rw [scheduled.thread, scheduled.idle]
    exact sound.idle
  · rw [scheduled.thread]
    exact sound.creating
  · rw [scheduled.thread]
    exact sound.creator
  · rw [scheduled.enqueued, scheduled.dispatched, scheduled.waiting, sound.history]
    cases waiting : k.fifoReadyList with
    | nil =>
        rw [threadScheduleFifo_nil waiting]
        rw [waiting]
    | cons next rest =>
        rw [threadScheduleFifo_cons waiting]
        exact List.append_cons k.dispatched next rest

/-- The thread that `schedule` chooses can be switched to. -/
theorem LeavingSound.chosen (sound : LeavingSound k) :
    ∃ t, k.thread k.threadScheduleFifo.2 = some t ∧
      (t.status = .ready ∨ (t.status = .blocked ∧ k.threadScheduleFifo.2 = k.idleThread)) ∧
      (k.threadScheduleFifo.2 = k.idleThread → k.fifoReadyList = []) := by
  cases waiting : k.fifoReadyList with
  | cons next rest =>
      have stack : k.threadScheduleFifo.2 = next := by
        rw [threadScheduleFifo_cons waiting]
      rcases sound.lists.head waiting with ⟨notIdle, t, record, ready⟩
      rw [stack]
      exact ⟨t, record, Or.inl ready, fun idle => absurd idle notIdle⟩
  | nil =>
      have stack : k.threadScheduleFifo.2 = k.idleThread := by
        rw [threadScheduleFifo_nil waiting]
      rcases sound.lists.idle with ⟨t, record, idle⟩
      have stopped : t.status ≠ .running := by
        by_cases here : k.idleThread = k.stack
        · rcases sound.current with ⟨u, current, left, _⟩
          rw [here, current] at record
          cases record
          exact left
        · exact (sound.others k.idleThread t record here).1
      rw [stack]
      refine ⟨t, record, ?_, fun _ => rfl⟩
      cases status : t.status with
      | running => exact absurd status stopped
      | ready => exact Or.inl rfl
      | blocked => exact Or.inr ⟨rfl, rfl⟩
      | dying => exact absurd status idle.alive

/-- `schedule` does not fail and leaves a sound switch in progress. -/
theorem LeavingSound.schedule (sound : LeavingSound k) :
    ∃ after prev, k.schedule = some after ∧ SwitchSound after prev := by
  rcases sound.chosen with ⟨t, record, ready, idleLast⟩
  rcases sound.current with ⟨u, current, left, log⟩
  have valid : (k.thread k.threadScheduleFifo.2).isSome = true := by
    rw [record]
    rfl
  rcases schedule_eq current left sound.off valid with ⟨after, result, scheduled⟩
  refine ⟨after, if k.stack = after.stack then none else some k.stack, result, ?_⟩
  have alive : t.status ≠ .dying := by
    rcases ready with ready | ready
    · simp [ready]
    · simp [ready.1]
  have handed : ∀ page,
      (if k.stack = after.stack then none else some k.stack) = some page →
      page ≠ after.stack ∧ page = k.stack := by
    intro page previous
    by_cases same : k.stack = after.stack
    · simp [same] at previous
    · rw [if_neg same] at previous
      cases previous
      exact ⟨same, rfl⟩
  have leftDying : u.status = .dying → k.stack ≠ after.stack := by
    intro dying same
    rw [scheduled.chosen] at same
    rw [← same, current] at record
    cases record
    exact alive dying
  constructor
  · exact sound.lists.scheduled scheduled
  · intro id
    apply (sound.semas id).congr
    · rw [scheduled.sema]
    · rw [scheduled.counts]
    · exact Nat.le_of_eq (woken_congr scheduled.thread scheduled.all id).symm
  · exact scheduled.handed
  · rw [scheduled.interrupts]
    exact sound.off
  · rw [scheduled.thread, scheduled.chosen, scheduled.idle]
    exact ⟨t, record, ready⟩
  · rw [scheduled.thread]
    intro page w known
    by_cases here : page = k.stack
    · rw [here, current] at known
      cases known
      exact left
    · exact (sound.others page w known here).1
  · rw [scheduled.thread, scheduled.initial]
    intro page w known dying
    by_cases here : page = k.stack
    · right
      rw [here, current] at known
      cases known
      rw [if_neg (leftDying dying), here]
    · left
      exact (sound.others page w known here).2 dying
  · intro page previous
    rw [scheduled.thread]
    have was := handed page previous
    exact ⟨was.1, u, by rw [was.2]; exact current⟩
  · rw [scheduled.chosen, scheduled.idle, scheduled.waiting]
    intro idle
    rw [threadScheduleFifo_nil (idleLast idle)]
    exact idleLast idle
  · intro page owed
    rcases owed with ⟨previous, notInitial, w, known, dying⟩
    have was := handed page previous
    rw [scheduled.thread, was.2, current] at known
    cases known
    rw [scheduled.initial, was.2] at notInitial
    rw [if_pos ⟨dying, notInitial⟩] at log
    rw [scheduled.initial, scheduled.events, was.2]
    exact .successor log (Ne.symm (leftDying dying))
  · intro nothing
    have quiet : ¬(u.status = .dying ∧ k.stack ≠ k.initialThread) := by
      intro due
      apply nothing k.stack
      refine ⟨if_neg (leftDying due.1), ?_, u, ?_, due.1⟩
      · rw [scheduled.initial]
        exact due.2
      · rw [scheduled.thread]
        exact current
    rw [if_neg quiet] at log
    rw [scheduled.initial, scheduled.events]
    exact .dispatched log

end Phases

end CS162.Threads

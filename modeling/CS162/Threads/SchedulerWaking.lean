import CS162.Threads.SchedulerCalls

/-!
# Waking, creating and switching to threads

The calls that change the record of another thread, and what a thread does that
has been switched to.
-/

namespace CS162.Threads

open CS162.Foundation

universe u v

variable {Page : Type u} {Sema : Type v} [DecidableEq Page] [DecidableEq Sema]
variable {k k' : Kernel Page Sema}
variable {page : Page} {t t' cur : ThreadPage Page Sema} {id : Sema}

/-! ## Waking -/

/-- The state after `thread_unblock`. -/
def Kernel.unblocked (k : Kernel Page Sema) (page : Page)
    (t : ThreadPage Page Sema) : Kernel Page Sema :=
  Kernel.setThread
    { k with
      fifoReadyList := k.fifoReadyList ++ [page]
      enqueued := k.enqueued ++ [page] } page { t with status := .ready }

omit [DecidableEq Sema] in
theorem threadUnblock_eq (known : k.thread page = some t) (blocked : t.status = .blocked) :
    k.threadUnblock page = some (k.unblocked page t) := by
  have queued : Kernel.threadEnqueue
      ({ k with interrupts := false } : Kernel Page Sema) page = some
      { k with
        interrupts := false
        fifoReadyList := k.fifoReadyList ++ [page]
        enqueued := k.enqueued ++ [page] } := by
    apply if_pos
    rw [Kernel.isThread, known]
    rfl
  rw [Kernel.threadUnblock, known, Option.bind_some, if_pos blocked, queued]
  rfl

/-- A blocked thread becomes ready. -/
theorem RunningSound.becameReady (sound : RunningSound k)
    (known : k.thread page = some t) (blocked : t.status = .blocked)
    (recorded : Recorded k k' page { t with status := .ready })
    (interrupts : k'.interrupts = k.interrupts)
    (all : k'.allList = k.allList) (events : k'.events = k.events) (notIdle : page ≠ k.idleThread)
    (unborn : ∀ other u, k.thread other = some u → u.creating ≠ some page)
    (queues : QueuesSound k'.elemList (k'.place none))
    (history : k'.enqueued = k'.dispatched ++ k'.fifoReadyList)
    (semas : ∀ id, SemaSound k' id) : RunningSound k' := by
  have different : k.stack ≠ page := by
    intro same
    rcases sound.current with ⟨u, record, running, _⟩
    rw [same, known] at record
    cases record
    rw [blocked] at running
    cases running
  constructor
  · apply sound.lists.setAlive known recorded queues all
    · simp [blocked]
    · simp
    · have before := sound.lists.records page t known
      rw [RecordSound, blocked] at before
      rw [RecordSound]
      cases point : t.point <;> simp [point] at before ⊢
    · exact fun isIdle => absurd isIdle notIdle
    · exact fun _ creates => creates
    · exact unborn
    · exact history
  · exact semas
  · rw [recorded.switching]
    exact sound.still
  · rw [recorded.thread, recorded.stack, interrupts, Function.update_of_ne different]
    exact sound.current
  · rw [recorded.thread, recorded.stack, recorded.initial]
    intro other u record away
    by_cases same : other = page
    · subst same
      rw [Function.update_self] at record
      cases record
      simp
    · rw [Function.update_of_ne same] at record
      exact sound.others other u record away
  · rw [recorded.initial, events]
    exact sound.log

/-- `thread_unblock`, for a thread that waits on no semaphore. -/
theorem RunningSound.threadUnblock (sound : RunningSound k)
    (known : k.thread page = some t) (blocked : t.status = .blocked)
    (waitless : ∀ id level, t.point ≠ .down id level) (notIdle : page ≠ k.idleThread)
    (unborn : ∀ other u, k.thread other = some u → u.creating ≠ some page) :
    RunningSound (k.unblocked page t) := by
  have recorded : Recorded k (k.unblocked page t) page
      { t with status := .ready } := ⟨rfl, rfl, rfl, rfl, rfl⟩
  apply sound.becameReady known blocked recorded rfl rfl rfl notIdle unborn
  · apply sound.lists.pushed known recorded
    · exact elemList_ready rfl (fun _ => rfl)
    · intro other _
      rfl
    · rw [elemPlace, blocked]
      cases point : t.point with
      | down id level => exact absurd point (waitless id level)
      | _ => rfl
    · simp [elemPlace, notIdle]
  · change k.enqueued ++ [page] = k.dispatched ++ (k.fifoReadyList ++ [page])
    rw [sound.lists.history, List.append_assoc]
  · apply sound.lists.semas sound.semas known _ recorded rfl rfl rfl
    · intro id woken
      simp [wokenBy, blocked] at woken
    · simp [blocked]

omit [DecidableEq Sema] in
theorem ListsSound.waiter {next : Option Page} (sound : ListsSound k next)
    (waiting : page ∈ (k.sema id).waiters) :
    ∃ t level, k.thread page = some t ∧ t.status = .blocked ∧
      t.point = .down id level := by
  have place : k.place next page = some (.waiters id) :=
    (sound.queues.mem_iff (.waiters id) page).mp waiting
  rcases Option.bind_eq_some_iff.mp place with ⟨t, record, place⟩
  rw [elemPlace] at place
  cases status : t.status with
  | running => simp [status] at place
  | dying => simp [status] at place
  | ready =>
      rw [status] at place
      dsimp only at place
      split at place <;> cases place
  | blocked =>
      rw [status] at place
      cases point : t.point with
      | down other level =>
          simp only [point, Option.some.injEq, ElemList.waiters.injEq] at place
          exact ⟨t, level, record, status, by rw [point, place]⟩
      | _ => simp [point] at place

/-- The state after `sema_up`, where it wakes a thread. -/
def Kernel.upped (k : Kernel Page Sema) (id : Sema) : Kernel Page Sema :=
  (k.setSema id (k.sema id).semaUp).setCounts id { k.counts id with ups := (k.counts id).ups + 1 }

omit [DecidableEq Page] in
/-- The value of a semaphore after an up, as long as it does not wrap. -/
theorem SemaSound.upped_account (sound : SemaSound k id)
    (bound : (k.counts id).initial + ((k.counts id).ups + 1) < unsignedModulus) :
    (k.sema id).semaUp.value + (k.counts id).downs +
        (k.counts id).tryDowns =
      (k.counts id).initial + ((k.counts id).ups + 1) := by
  have account := sound.account (by omega)
  rw [Semaphore.semaUp_value_of_lt (by omega)]
  omega

omit [DecidableEq Page] in
theorem semaUp_value_le (sema : Semaphore Page) : sema.semaUp.value ≤ sema.value + 1 := by
  rw [Semaphore.semaUp_value]
  exact Nat.mod_le _ _

/-- A semaphore changes that keeps its waiters. -/
theorem RunningSound.semaChanged (sound : RunningSound k)
    (sema : Semaphore Page) (counts : SemaCounts) (waiters : sema.waiters = (k.sema id).waiters)
    (account : counts.initial + counts.ups < unsignedModulus →
      sema.value + counts.downs + counts.tryDowns = counts.initial + counts.ups)
    (noLostWakeup : sema.waiters ≠ [] → sema.value ≤ k.woken id) :
    RunningSound ((k.setSema id sema).setCounts id counts) := by
  have elem : ((k.setSema id sema).setCounts id counts).elemList =
      k.elemList := by
    apply elemList_same
    · rfl
    · intro other
      change (Function.update k.sema id sema other).waiters = _
      by_cases same : other = id
      · subst same
        rw [Function.update_self, waiters]
      · rw [Function.update_of_ne same]
  constructor
  · constructor
    · rw [elem]
      exact sound.lists.queues
    · exact sound.lists.allNodup
    · exact sound.lists.all
    · exact sound.lists.records
    · exact sound.lists.idle
    · exact sound.lists.creating
    · exact sound.lists.creator
    · exact sound.lists.history
  · apply SemaSound.update sound.semas id sema counts
    · rfl
    · rfl
    · exact account
    · exact noLostWakeup
    · intro other _
      exact Nat.le_refl _
  · exact sound.still
  · exact sound.current
  · exact sound.others
  · exact sound.log

/-- `sema_up` without waiters. -/
theorem RunningSound.semaUp_nil (sound : RunningSound k)
    (nobody : (k.sema id).waiters = []) : RunningSound (k.upped id) := by
  have queue : (k.sema id).semaUp.waiters = (k.sema id).waiters := by
    rw [Semaphore.semaUp_waiters, nobody]
    rfl
  apply sound.semaChanged (k.sema id).semaUp
  · exact queue
  · exact (sound.semas id).upped_account
  · intro waiting
    exact absurd (queue.trans nobody) waiting

/-- `sema_up` with waiters. -/
theorem RunningSound.semaUp_cons (sound : RunningSound k) {rest : List Page}
    (waiters : (k.sema id).waiters = page :: rest) {level : Bool}
    (known : k.thread page = some t) (blocked : t.status = .blocked)
    (point : t.point = .down id level) :
    RunningSound ((k.unblocked page t).upped id) := by
  have recorded : Recorded k ((k.unblocked page t).upped id) page
      { t with status := .ready } := ⟨rfl, rfl, rfl, rfl, rfl⟩
  have notIdle : page ≠ k.idleThread := by
    intro isIdle
    exact (sound.lists.idle_of known isIdle).waitless id level point
  have grown : ¬Embryo t := by
    intro embryo
    rw [Embryo, point] at embryo
    cases embryo.2
  have tail : (k.sema id).semaUp.waiters = rest := by
    rw [Semaphore.semaUp_waiters, waiters]
    rfl
  apply sound.becameReady known blocked recorded rfl rfl rfl notIdle
    (sound.lists.not_embryo known grown)
  · have popped : QueuesSound (Function.update k.elemList (.waiters id) rest)
        (Function.update (k.place none) page none) :=
      sound.lists.queues.pop waiters
    have free : Function.update (k.place none) page none page = none := by
      rw [Function.update_self]
    have pushed := popped.push .ready free
    rw [Function.update_idem, Function.update_of_ne (by simp)] at pushed
    have places : ((k.unblocked page t).upped id).place none =
        Function.update (k.place none) page (some .ready) := by
      rw [place_update recorded (fun _ _ => Iff.rfl)]
      simp [elemPlace, notIdle]
    have lists : ((k.unblocked page t).upped id).elemList =
        Function.update (Function.update k.elemList (.waiters id) rest) .ready
          (k.elemList .ready ++ [page]) := by
      funext list
      cases list with
      | ready =>
          rw [Function.update_self]
          rfl
      | waiters other =>
          rw [Function.update_of_ne (by simp)]
          change (Function.update k.sema id (k.sema id).semaUp other).waiters = _
          by_cases same : other = id
          · subst same
            rw [Function.update_self, Function.update_self, tail]
          · rw [Function.update_of_ne same, Function.update_of_ne (by simp [same])]
            rfl
    rw [lists, places]
    exact pushed
  · change k.enqueued ++ [page] = k.dispatched ++ (k.fifoReadyList ++ [page])
    rw [sound.lists.history, List.append_assoc]
  · have moved := sound.lists.woken_setRecord known (by simp [blocked]) recorded rfl
    apply SemaSound.update sound.semas id (k.sema id).semaUp
      { k.counts id with ups := (k.counts id).ups + 1 }
    · rfl
    · rfl
    · exact (sound.semas id).upped_account
    · intro _
      have before := (sound.semas id).noLostWakeup (by simp [waiters])
      have atMost := semaUp_value_le (k.sema id)
      have moved := moved id
      have was : wokenBy id t = false := by
        rw [wokenBy, blocked]
      have woken : wokenBy id { t with status := .ready } = true := by
        simp [wokenBy, point]
      rw [was, woken, Bool.toNat_false, Bool.toNat_true] at moved
      omega
    · intro other _
      have moved := moved other
      have was : wokenBy other t = false := by
        rw [wokenBy, blocked]
      rw [was, Bool.toNat_false] at moved
      omega

/-- `sema_up`. -/
theorem RunningSound.semaUp (sound : RunningSound k) (id : Sema) :
    ∃ after, k.semaUp id = some after ∧ RunningSound after := by
  cases waiters : (k.sema id).waiters with
  | nil =>
      refine ⟨k.upped id, ?_, sound.semaUp_nil waiters⟩
      rw [Kernel.semaUp, waiters]
      rfl
  | cons first rest =>
      have member : first ∈ (k.sema id).waiters := by
        rw [waiters]
        exact List.mem_cons_self
      rcases sound.lists.waiter member with ⟨t, level, known, blocked, point⟩
      refine ⟨(k.unblocked first t).upped id, ?_, sound.semaUp_cons waiters known blocked point⟩
      rw [Kernel.semaUp, waiters]
      dsimp only
      rw [threadUnblock_eq known blocked]
      rfl

/-- `sema_try_down`. -/
theorem RunningSound.semaTryDown (sound : RunningSound k) (id : Sema) :
    RunningSound (k.semaTryDown id) := by
  by_cases zero : (k.sema id).value = 0
  · have same : k.semaTryDown id = k := by
      rw [Kernel.semaTryDown, Semaphore.semaTryDown_of_zero zero]
      simp only [Bool.false_eq_true, if_false, Kernel.setSema, Function.update_eq_self]
    rw [same]
    exact sound
  · have taken : k.semaTryDown id =
        (k.setSema id (k.sema id).take).setCounts id
          { k.counts id with tryDowns := (k.counts id).tryDowns + 1 } := by
      rw [Kernel.semaTryDown, Semaphore.semaTryDown_of_pos (Nat.pos_of_ne_zero zero)]
      rfl
    rw [taken]
    apply sound.semaChanged (k.sema id).take
    · exact Semaphore.take_waiters _
    · intro bound
      have account := (sound.semas id).account bound
      change (k.sema id).value - 1 + (k.counts id).downs +
        ((k.counts id).tryDowns + 1) = (k.counts id).initial + (k.counts id).ups
      omega
    · rw [Semaphore.take_value, Semaphore.take_waiters]
      intro waiting
      have enough := (sound.semas id).noLostWakeup waiting
      omega

/-! ## Creating -/

/-- The state after the first part of `thread_create`. -/
def Kernel.born (k : Kernel Page Sema) (page : Page)
    (cur : ThreadPage Page Sema) : Kernel Page Sema :=
  { (k.setThread k.stack { cur with creating := some page }).setThread page
      { status := .blocked, point := .entry, creating := none } with
    allList := k.allList ++ [page]
    events := k.events ++ [.created page] }

omit [DecidableEq Sema] in
/-- The records after the first part of `thread_create`. -/
theorem born_thread (other : Page) :
    (k.born page cur).thread other =
      if other = page then
        some { status := .blocked, point := .entry, creating := none }
      else if other = k.stack then some { cur with creating := some page }
      else k.thread other := by
  change Function.update (Function.update k.thread k.stack _) page _ other = _
  by_cases same : other = page
  · subst same
    rw [Function.update_self, if_pos rfl]
  · rw [Function.update_of_ne same, if_neg same]
    by_cases here : other = k.stack
    · subst here
      rw [Function.update_self, if_pos rfl]
    · rw [Function.update_of_ne here, if_neg here]

omit [DecidableEq Sema] in
theorem born_other {other : Page} (fresh : k.thread page = none)
    {u : ThreadPage Page Sema} (known : k.thread other = some u)
    (away : other ≠ k.stack) : (k.born page cur).thread other = some u := by
  have different : other ≠ page := by
    intro same
    rw [same, fresh] at known
    cases known
  rw [born_thread, if_neg different, if_neg away]
  exact known

omit [DecidableEq Sema] in
/-- A thread whose `creating` names a page is the running thread with the new
page, or was creating that page before. -/
theorem born_creating {other child : Page} {u : ThreadPage Page Sema}
    (known : (k.born page cur).thread other = some u) (creates : u.creating = some child) :
    (other = k.stack ∧ child = page) ∨
      (other ≠ k.stack ∧ k.thread other = some u) := by
  rw [born_thread] at known
  by_cases same : other = page
  · rw [if_pos same] at known
    cases known
    cases creates
  · rw [if_neg same] at known
    by_cases here : other = k.stack
    · rw [if_pos here] at known
      cases known
      cases creates
      exact Or.inl ⟨here, rfl⟩
    · rw [if_neg here] at known
      exact Or.inr ⟨here, known⟩

omit [DecidableEq Sema] in
theorem ListsSound.born (sound : ListsSound k none)
    (current : k.thread k.stack = some cur) (running : cur.status = .running)
    (notIdle : k.stack ≠ k.idleThread) (fresh : k.thread page = none) :
    ListsSound (k.born page cur) none := by
  have away : page ≠ k.stack := by
    intro same
    rw [same, current] at fresh
    cases fresh
  have embryo : (k.born page cur).thread page =
      some { status := .blocked, point := .entry, creating := none } := by
    rw [born_thread, if_pos rfl]
  have parent : (k.born page cur).thread k.stack = some { cur with creating := some page } := by
    rw [born_thread, if_neg (Ne.symm away), if_pos rfl]
  have unlisted : page ∉ k.allList := by
    intro member
    rcases (sound.all page).mp member with ⟨u, known, _⟩
    rw [fresh] at known
    cases known
  constructor
  · have places : (k.born page cur).place none = k.place none := by
      funext other
      rw [Kernel.place, Kernel.place, born_thread]
      by_cases same : other = page
      · subst same
        rw [if_pos rfl, fresh]
        rfl
      · rw [if_neg same]
        by_cases here : other = k.stack
        · subst here
          rw [if_pos rfl, current]
          rfl
        · rw [if_neg here]
          rfl
    rw [places]
    exact sound.queues
  · change (k.allList ++ [page]).Nodup
    apply List.nodup_append.mpr
    refine ⟨sound.allNodup, List.nodup_singleton page, ?_⟩
    intro x listed y isPage same
    rw [List.mem_singleton] at isPage
    rw [same, isPage] at listed
    exact unlisted listed
  · intro other
    change other ∈ k.allList ++ [page] ↔ _
    rw [List.mem_append, List.mem_singleton, sound.all other]
    by_cases same : other = page
    · subst same
      simp [embryo]
    · by_cases here : other = k.stack
      · subst here
        simp [parent, current, running]
      · rw [born_thread, if_neg same, if_neg here]
        simp [same]
  · intro other u known
    rw [born_thread] at known
    by_cases same : other = page
    · rw [if_pos same] at known
      cases known
      trivial
    · rw [if_neg same] at known
      by_cases here : other = k.stack
      · rw [if_pos here] at known
        cases known
        rw [RecordSound, running]
        trivial
      · rw [if_neg here] at known
        exact sound.records other u known
  · rcases sound.idle with ⟨u, known, idle⟩
    exact ⟨u, born_other fresh known (Ne.symm notIdle), idle⟩
  · intro other u child known creates
    rcases born_creating known creates with new | old
    · rw [new.2]
      exact ⟨_, embryo, rfl, rfl⟩
    · rcases sound.creating other u child old.2 creates with ⟨c, born, infant⟩
      have asleep : child ≠ k.stack := by
        intro same
        rw [same, current] at born
        cases born
        exact not_embryo_of_running running infant
      exact ⟨c, born_other fresh born asleep, infant⟩
  · have old : ∀ other u, k.thread other = some u →
        u.creating ≠ some page := by
      intro other u known creates
      rcases sound.creating other u page known creates with ⟨c, born, _⟩
      rw [fresh] at born
      cases born
    intro first second u w child firstKnown secondKnown firstCreates secondCreates
    rcases born_creating firstKnown firstCreates with firstNew | firstOld
    · rcases born_creating secondKnown secondCreates with secondNew | secondOld
      · rw [firstNew.1, secondNew.1]
      · rw [firstNew.2] at secondCreates
        exact absurd secondCreates (old second w secondOld.2)
    · rcases born_creating secondKnown secondCreates with secondNew | secondOld
      · rw [secondNew.2] at firstCreates
        exact absurd firstCreates (old first u firstOld.2)
      · exact sound.creator first second u w child firstOld.2 secondOld.2 firstCreates secondCreates
  · exact sound.history

/-- The first part of `thread_create`. -/
theorem RunningSound.threadCreate (sound : RunningSound k)
    (own : OwnCode k cur) (notIdle : k.stack ≠ k.idleThread) (fresh : k.thread page = none) :
    k.threadCreate page = some (k.born page cur) ∧
      RunningSound (k.born page cur) := by
  have away : page ≠ k.stack := by
    intro same
    rw [same, own.record] at fresh
    cases fresh
  have parent : (k.born page cur).thread k.stack = some { cur with creating := some page } := by
    rw [born_thread, if_neg (Ne.symm away), if_pos rfl]
  constructor
  · rw [Kernel.threadCreate, threadCurrent_eq own.record own.running]
    rfl
  · constructor
    · exact sound.lists.born own.record own.running notIdle fresh
    · intro id
      apply (sound.semas id).congr
      · rfl
      · rfl
      · change k.allList.countP _ ≤ (k.allList ++ [page]).countP _
        rw [List.countP_append]
        apply Nat.le_trans _ (Nat.le_add_right _ _)
        apply Nat.le_of_eq
        apply List.countP_congr
        intro other listed
        rw [born_thread]
        by_cases same : other = page
        · rw [same, fresh, if_pos rfl]
          simp [wokenBy]
        · rw [if_neg same]
          by_cases here : other = k.stack
          · rw [if_pos here, here, own.record]
            rfl
          · rw [if_neg here]
    · exact sound.still
    · exact ⟨_, parent, own.running, fun moved => absurd own.own moved⟩
    · intro other u known different
      change other ≠ k.stack at different
      rw [born_thread] at known
      by_cases same : other = page
      · rw [if_pos same] at known
        cases known
        simp
      · rw [if_neg same, if_neg different] at known
        exact sound.others other u known different
    · exact .created sound.log

/-- The end of `thread_create`. -/
theorem RunningSound.threadStarted (sound : RunningSound k)
    (own : OwnCode k cur) (creates : cur.creating = some page) :
    ∃ after, k.threadStarted page = some after ∧ RunningSound after := by
  rcases sound.lists.creating k.stack cur page own.record creates with ⟨c, born, embryo⟩
  have away : page ≠ k.stack := by
    intro same
    rw [same, own.record] at born
    cases born
    exact not_embryo_of_running own.running embryo
  have recorded : Recorded k
      (k.setThread k.stack { cur with creating := none }) k.stack
      { cur with creating := none } := ⟨rfl, rfl, rfl, rfl, rfl⟩
  have handed : RunningSound
      (k.setThread k.stack { cur with creating := none }) := by
    apply sound.goesOn own.record own.running recorded own.running rfl
    · intro child none
      cases none
    · rfl
    · intro isIdle
      have idle := sound.lists.idle_of own.record isIdle
      exact ⟨idle.alive, rfl, idle.entered, idle.waitless⟩
    · exact sound.lists.history
    · apply sound.lists.semas sound.semas own.record _ recorded rfl rfl rfl
      · exact fun _ woken => woken
      · simp [own.running]
    · rfl
    · exact fun moved => absurd own.own moved
  have known : (k.setThread k.stack { cur with creating := none }).thread page = some c := by
    rw [recorded.thread, Function.update_of_ne away]
    exact born
  have notIdle : page ≠ k.idleThread := by
    intro isIdle
    exact (sound.lists.idle_of born isIdle).entered embryo.2
  refine ⟨_, ?_, handed.threadUnblock known embryo.1 ?_ notIdle ?_⟩
  · rw [Kernel.threadStarted, threadCurrent_eq own.record own.running, Option.bind_some]
    exact threadUnblock_eq known embryo.1
  · intro id level down
    rw [embryo.2] at down
    cases down
  · intro other u record names
    rw [recorded.thread] at record
    by_cases here : other = k.stack
    · rw [here, Function.update_self] at record
      cases record
      cases names
    · rw [Function.update_of_ne here] at record
      exact here (sound.lists.creator other k.stack u cur page record own.record names creates)

/-! ## Switching -/

omit [DecidableEq Sema] in
/-- The page of a dying thread is freed. -/
theorem ListsSound.freed (sound : ListsSound k none)
    (known : k.thread page = some t) (dying : t.status = .dying) :
    ListsSound (k.pallocFreePage page) none := by
  have remains : ∀ other u, (k.pallocFreePage page).thread other = some u →
      k.thread other = some u := by
    intro other u record
    change Function.update k.thread page none other = some u at record
    by_cases same : other = page
    · rw [same, Function.update_self] at record
      cases record
    · rw [Function.update_of_ne same] at record
      exact record
  have kept : ∀ other u, k.thread other = some u → u.status ≠ .dying →
      (k.pallocFreePage page).thread other = some u := by
    intro other u record alive
    change Function.update k.thread page none other = some u
    have different : other ≠ page := by
      intro same
      rw [same, known] at record
      cases record
      exact alive dying
    rw [Function.update_of_ne different]
    exact record
  constructor
  · have places : (k.pallocFreePage page).place none = k.place none := by
      funext other
      change (Function.update k.thread page none other).bind _ = _
      by_cases same : other = page
      · rw [same, Function.update_self, Kernel.place, known, Option.bind_some, elemPlace, dying]
        rfl
      · rw [Function.update_of_ne same]
        rfl
    rw [places]
    exact sound.queues
  · exact sound.allNodup
  · intro other
    change other ∈ k.allList ↔ _
    rw [sound.all other]
    constructor
    · rintro ⟨u, record, alive⟩
      exact ⟨u, kept other u record alive, alive⟩
    · rintro ⟨u, record, alive⟩
      exact ⟨u, remains other u record, alive⟩
  · exact fun other u record => sound.records other u (remains other u record)
  · rcases sound.idle with ⟨u, record, idle⟩
    exact ⟨u, kept _ u record idle.alive, idle⟩
  · intro other u child record creates
    rcases sound.creating other u child (remains other u record) creates with ⟨c, born, embryo⟩
    exact ⟨c, kept child c born (by simp [embryo.1]), embryo⟩
  · intro first second u w child firstKnown secondKnown
    exact sound.creator first second u w child (remains first u firstKnown)
      (remains second w secondKnown)
  · exact sound.history

theorem SwitchSound.chosen_free {prev : Option Page}
    (sound : SwitchSound k prev) (record : k.thread k.stack = some t) :
    elemPlace k.idleThread (some k.stack) k.stack t = none := by
  rcases sound.current with ⟨u, current, status⟩
  rw [record] at current
  cases current
  rcases status with ready | ⟨blocked, isIdle⟩
  · rw [elemPlace, ready]
    simp
  · have idle := sound.lists.idle_of record isIdle
    rw [elemPlace, blocked]
    cases point : t.point with
    | down id level => exact absurd point (idle.waitless id level)
    | _ => rfl

/-- The state in which the next thread has marked itself running. -/
def Kernel.entered (k : Kernel Page Sema) (t : ThreadPage Page Sema) : Kernel Page Sema :=
  { k.setThread k.stack { t with status := .running } with switching := none }

omit [DecidableEq Sema] in
theorem entered_thread (t : ThreadPage Page Sema) {other : Page} (different : other ≠ k.stack) :
    (k.entered t).thread other = k.thread other :=
  Function.update_of_ne different _ _

/-- The lists and the semaphores when the next thread has marked itself
running. -/
theorem SwitchSound.entered {prev : Option Page} (sound : SwitchSound k prev)
    (record : k.thread k.stack = some t) :
    ListsSound (k.entered t) none ∧ ∀ id, SemaSound (k.entered t) id := by
  have recorded : Recorded { k with switching := none } (k.entered t) k.stack
      { t with status := .running } := ⟨rfl, rfl, rfl, rfl, rfl⟩
  have lists : ListsSound { k with switching := none } (some k.stack) :=
    ⟨sound.lists.queues, sound.lists.allNodup, sound.lists.all,
      sound.lists.records, sound.lists.idle, sound.lists.creating,
      sound.lists.creator, sound.lists.history⟩
  have semas : ∀ id, SemaSound { k with switching := none } id := fun id =>
    ⟨(sound.semas id).account, (sound.semas id).noLostWakeup⟩
  rcases sound.current with ⟨u, current, status⟩
  rw [record] at current
  cases current
  have alive : t.status ≠ .dying := by
    rcases status with ready | ⟨blocked, _⟩
    · simp [ready]
    · simp [blocked]
  have unborn : ∀ other u, k.thread other = some u →
      u.creating ≠ some k.stack := by
    rcases status with ready | ⟨_, isIdle⟩
    · apply sound.lists.not_embryo record
      intro embryo
      rw [Embryo, ready] at embryo
      cases embryo.1
    · apply sound.lists.not_embryo record
      intro embryo
      exact (sound.lists.idle_of record isIdle).entered embryo.2
  constructor
  · apply lists.setAlive record recorded _ rfl alive (by simp) trivial
    · intro isIdle
      have idle := sound.lists.idle_of record isIdle
      exact ⟨by simp, idle.childless, idle.entered, idle.waitless⟩
    · exact fun _ creates => creates
    · exact unborn
    · exact sound.lists.history
    · apply lists.unmoved record recorded rfl
      · intro other different
        simp [Ne.symm different]
      · change elemPlace k.idleThread none k.stack _ =
          elemPlace k.idleThread (some k.stack) k.stack t
        rw [sound.chosen_free record]
        rfl
  · apply lists.semas semas record alive recorded rfl rfl rfl
    intro id woken
    rcases status with ready | ⟨blocked, _⟩
    · cases point : t.point with
      | down other level =>
          simp only [wokenBy, ready, point] at woken ⊢
          exact woken
      | _ => simp [wokenBy, ready, point] at woken
    · rw [wokenBy, blocked] at woken
      cases woken

/-- The next thread runs, and nothing is to be freed. -/
theorem SwitchSound.quietTail {prev : Option Page} (sound : SwitchSound k prev)
    (record : k.thread k.stack = some t) (nothing : ∀ page, ¬Owed k prev page) :
    RunningSound (k.entered t) := by
  have kept := sound.entered record
  constructor
  · exact kept.1
  · exact kept.2
  · rfl
  · exact ⟨_, Function.update_self _ _ _, rfl, fun _ => sound.off⟩
  · intro other u known different
    rw [entered_thread (k := k) t different] at known
    refine ⟨sound.nobody other u known, fun dying => ?_⟩
    rcases sound.dead other u known dying with first | handed
    · exact first
    · by_contra notInitial
      exact nothing other ⟨handed, notInitial, u, known, dying⟩
  · exact sound.quiet nothing

/-- The next thread runs, and frees the page of the thread before. -/
theorem SwitchSound.freeingTail {prev : Option Page}
    (sound : SwitchSound k prev) (record : k.thread k.stack = some t) (owed : Owed k prev page) :
    RunningSound ((k.entered t).pallocFreePage page) := by
  have kept := sound.entered record
  have log := sound.owed page owed
  rcases owed with ⟨handed, notInitial, u, known, dying⟩
  have away := (sound.handed page handed).1
  have still : (k.entered t).thread page = some u := by
    rw [entered_thread t away]
    exact known
  have unlisted : page ∉ k.allList := by
    intro member
    rcases (sound.lists.all page).mp member with ⟨w, record, alive⟩
    rw [known] at record
    cases record
    exact alive dying
  constructor
  · exact kept.1.freed still dying
  · intro id
    apply (kept.2 id).congr
    · rfl
    · rfl
    · apply Nat.le_of_eq
      apply List.countP_congr
      intro other listed
      have different : other ≠ page := by
        intro same
        rw [same] at listed
        exact unlisted listed
      change _ ↔ (Function.update (k.entered t).thread page none other).any _ = _
      rw [Function.update_of_ne different]
  · rfl
  · refine ⟨{ t with status := .running }, ?_, rfl, fun _ => sound.off⟩
    change Function.update (k.entered t).thread page none k.stack = _
    rw [Function.update_of_ne (Ne.symm away)]
    exact Function.update_self _ _ _
  · intro other w record' different
    change Function.update (k.entered t).thread page none other = _ at record'
    by_cases same : other = page
    · rw [same, Function.update_self] at record'
      cases record'
    · rw [Function.update_of_ne same, entered_thread (k := k) t different] at record'
      refine ⟨sound.nobody other w record', fun dead => ?_⟩
      rcases sound.dead other w record' dead with first | isPrev
      · exact first
      · rw [handed] at isPrev
        cases isPrev
        exact absurd rfl same
  · exact .freed log

/-- `thread_switch_tail`. -/
theorem SwitchSound.threadSwitchTail {prev : Option Page} (sound : SwitchSound k prev) :
    ∃ after, k.threadSwitchTail prev = some after ∧
      RunningSound { after with switching := none } ∧
      (after.events = k.events ∨
        ∃ page, Owed k prev page ∧
          after.events = k.events ++ [.freed page]) := by
  rcases sound.current with ⟨t, record, _⟩
  rw [Kernel.threadSwitchTail, if_neg (by simp [sound.off]), record, Option.bind_some]
  cases handed : prev with
  | none =>
      refine ⟨_, rfl, sound.quietTail record ?_, Or.inl rfl⟩
      intro page owed
      rw [Owed, handed] at owed
      cases owed.1
  | some page =>
      rcases sound.handed page handed with ⟨away, u, known⟩
      have still : (k.setThread k.stack
          { t with status := .running }).thread page = some u := by
        change Function.update k.thread k.stack _ page = some u
        rw [Function.update_of_ne away]
        exact known
      dsimp only
      rw [still, Option.bind_some]
      by_cases due : u.status = .dying ∧ page ≠ k.initialThread
      · rw [if_pos due, if_neg away]
        have owed : Owed k prev page := ⟨handed, due.2, u, known, due.1⟩
        rw [← handed]
        exact ⟨_, rfl, sound.freeingTail record owed, Or.inr ⟨page, owed, rfl⟩⟩
      · rw [if_neg due]
        refine ⟨_, rfl, sound.quietTail record ?_, Or.inl rfl⟩
        intro other owed
        rcases owed with ⟨isPrev, notInitial, w, other_known, dying⟩
        rw [handed] at isPrev
        cases isPrev
        rw [known] at other_known
        cases other_known
        exact due ⟨dying, notInitial⟩

/-- What a thread does when it has been switched to. -/
theorem RunningSound.resume (sound : RunningSound k) (away : k.inOwnCode = false) :
    ∃ after, k.resume = some after ∧ KernelSound after := by
  rcases sound.current with ⟨t, record, running, level⟩
  have moved : t.point ≠ .own := by
    intro own
    rw [Kernel.inOwnCode, sound.still, record] at away
    simp [own] at away
  have goes : (∀ id oldLevel, t.point ≠ .down id oldLevel) →
      ∀ interrupts, RunningSound
      { k.setThread k.stack { t with point := .own } with
        interrupts := interrupts } := by
    intro waitless interrupts
    have recorded : Recorded k
        { k.setThread k.stack { t with point := .own } with
          interrupts := interrupts } k.stack { t with point := .own } :=
      ⟨rfl, rfl, rfl, rfl, rfl⟩
    apply sound.goesOn record running recorded running rfl (fun _ creates => creates) rfl
    · intro isIdle
      have idle := sound.lists.idle_of record isIdle
      exact ⟨idle.alive, idle.childless, by simp, by simp⟩
    · exact sound.lists.history
    · apply sound.lists.semas sound.semas record _ recorded rfl rfl rfl
      · intro id woken
        cases point : t.point with
        | down other level => exact absurd point (waitless other level)
        | _ => simp [wokenBy, running, point] at woken
      · simp [running]
    · rfl
    · exact fun away => absurd rfl away
  rw [Kernel.resume, threadCurrent_eq record running, Option.bind_some]
  cases point : t.point with
  | own => exact absurd point moved
  | entry => exact ⟨_, rfl, Or.inl (goes (by simp [point]) true)⟩
  | yielded oldLevel => exact ⟨_, rfl, Or.inl (goes (by simp [point]) oldLevel)⟩
  | blocked => exact ⟨_, rfl, Or.inl (goes (by simp [point]) k.interrupts)⟩
  | down id oldLevel =>
      apply sound.semaDownLoop ⟨record, running, level moved, ?_, ?_⟩
      · intro isIdle
        have idle := sound.lists.idle_of record isIdle
        exact idle.waitless id oldLevel point
      · exact Or.inr ⟨oldLevel, point⟩

end CS162.Threads

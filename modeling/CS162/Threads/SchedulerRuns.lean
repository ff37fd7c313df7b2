import CS162.Threads.SchedulerWaking

/-!
# Runs of the scheduler

No run fails an assertion.  In every state that a run reaches the semaphores are
accounted for and no wakeup is lost, the ready list is that of the ready
threads, and the pages of dead threads have been freed exactly once.
-/

namespace CS162.Threads

open CS162.Foundation

universe u v

variable {Page : Type u} {Sema : Type v} [DecidableEq Page] [DecidableEq Sema]

/-- The invariant of all runs: the kernel is sound and has not panicked. -/
def StateSound : KernelState Page Sema → Prop
  | .running k => KernelSound k
  | .panicked => False

section Steps

variable {k : Kernel Page Sema} {target : KernelState Page Sema}
variable {move : KernelMove Page Sema}

/-- The guards that let a thread call the scheduler. -/
theorem RunningSound.kernelCode (sound : RunningSound k) (code : k.kernelCode = true) :
    (∃ t, OwnCode k t) ∧ k.stack ≠ k.idleThread := by
  rw [Kernel.kernelCode, Bool.and_eq_true, decide_eq_true_eq] at code
  exact ⟨sound.ownCode code.1, code.2⟩

theorem stateSound_of_running {call : Option (Kernel Page Sema)}
    (sound : ∃ after, call = some after ∧ RunningSound after) :
    StateSound (Kernel.result call) := by
  rcases sound with ⟨after, result, sound⟩
  rw [result]
  exact Or.inl sound

theorem stateSound_of_switch {call : Option (Kernel Page Sema)}
    (sound : ∃ after prev, call = some after ∧ SwitchSound after prev) :
    StateSound (Kernel.result call) := by
  rcases sound with ⟨after, prev, result, sound⟩
  rw [result]
  exact Or.inr ⟨prev, sound⟩

theorem stateSound_of_kernel {call : Option (Kernel Page Sema)}
    (sound : ∃ after, call = some after ∧ KernelSound after) :
    StateSound (Kernel.result call) := by
  rcases sound with ⟨after, result, sound⟩
  rw [result]
  exact sound

omit [DecidableEq Page] [DecidableEq Sema] in
/-- A move that is allowed has the result of its call. -/
theorem of_guard {guard : Bool} {state : KernelState Page Sema}
    (stepped : (if guard then some state else none) = some target) :
    guard = true ∧ state = target := by
  cases guard with
  | false => cases stepped
  | true =>
      cases stepped
      exact ⟨rfl, rfl⟩

theorem RunningSound.unblockMove (sound : RunningSound k) {page : Page}
    (direct : k.directlyBlocked page = true) :
    ∃ after, k.threadUnblock page = some after ∧ RunningSound after := by
  rw [Kernel.directlyBlocked, Bool.and_eq_true, decide_eq_true_eq] at direct
  rcases direct with ⟨notIdle, blocked⟩
  cases known : k.thread page with
  | none => simp [known] at blocked
  | some t =>
      have status : t.status = .blocked ∧ t.point = .blocked := by
        rcases t with ⟨status, point, creating⟩
        rw [known] at blocked
        cases status <;> cases point <;> simp at blocked ⊢
      refine ⟨_, threadUnblock_eq known status.1, sound.threadUnblock known status.1 ?_ notIdle ?_⟩
      · rw [status.2]
        intro id level down
        cases down
      · apply sound.lists.not_embryo known
        intro embryo
        rw [Embryo, status.2] at embryo
        cases embryo.2

/-- A step of a running thread. -/
theorem RunningSound.step (sound : RunningSound k)
    (stepped : k.step move = some target) : StateSound target := by
  cases move with
  | switchTail =>
      rw [Kernel.step, sound.still] at stepped
      cases stepped
  | resume =>
      rcases of_guard stepped with ⟨guard, rfl⟩
      rw [Bool.and_eq_true, Bool.not_eq_true'] at guard
      exact stateSound_of_kernel (sound.resume guard.2)
  | intrDisable =>
      rcases of_guard stepped with ⟨guard, rfl⟩
      rcases sound.ownCode guard with ⟨t, own⟩
      exact Or.inl (sound.setLevel false own)
  | intrEnable =>
      rcases of_guard stepped with ⟨guard, rfl⟩
      rcases sound.ownCode guard with ⟨t, own⟩
      exact Or.inl (sound.setLevel true own)
  | create page =>
      rcases of_guard stepped with ⟨guard, rfl⟩
      rw [Bool.and_eq_true, Bool.and_eq_true, Bool.not_eq_true',
        Kernel.isThread, Option.isSome_eq_false_iff] at guard
      rcases sound.kernelCode guard.1.1 with ⟨⟨t, own⟩, notIdle⟩
      exact stateSound_of_running
        ⟨_, sound.threadCreate own notIdle
          (Option.isNone_iff_eq_none.mp guard.2)⟩
  | started =>
      rw [Kernel.step] at stepped
      split at stepped
      · rename_i guard
        rcases sound.kernelCode guard with ⟨⟨t, own⟩, _⟩
        rcases Option.map_eq_some_iff.mp stepped with ⟨page, creates, rfl⟩
        rw [Kernel.creating, own.record, Option.bind_some] at creates
        exact stateSound_of_running (sound.threadStarted own creates)
      · cases stepped
  | block =>
      rcases of_guard stepped with ⟨guard, rfl⟩
      rw [Bool.and_eq_true, Bool.not_eq_true'] at guard
      rcases sound.ownCode guard.1 with ⟨t, own⟩
      exact stateSound_of_switch (sound.threadBlock own guard.2)
  | unblock page handler =>
      rcases of_guard stepped with ⟨guard, rfl⟩
      rw [Bool.and_eq_true] at guard
      exact stateSound_of_running (sound.unblockMove guard.2)
  | yield =>
      rcases of_guard stepped with ⟨guard, rfl⟩
      rcases sound.kernelCode guard with ⟨⟨t, own⟩, _⟩
      exact stateSound_of_switch (sound.threadYield own)
  | timer =>
      rcases of_guard stepped with ⟨guard, rfl⟩
      rw [Bool.and_eq_true] at guard
      rcases sound.ownCode guard.1 with ⟨t, own⟩
      exact stateSound_of_switch (sound.threadYield own)
  | exit =>
      rcases of_guard stepped with ⟨guard, rfl⟩
      rw [Bool.and_eq_true] at guard
      rcases sound.kernelCode guard.1 with ⟨⟨t, own⟩, notIdle⟩
      exact stateSound_of_switch (sound.threadExit own notIdle)
  | down id =>
      rcases of_guard stepped with ⟨guard, rfl⟩
      rcases sound.kernelCode guard with ⟨⟨t, own⟩, notIdle⟩
      exact stateSound_of_kernel ((sound.setLevel false own).semaDownLoop
        ⟨own.record, own.running, rfl, notIdle, Or.inl own.own⟩ k.interrupts)
  | tryDown id handler =>
      rcases of_guard stepped with ⟨_, rfl⟩
      exact Or.inl (sound.semaTryDown id)
  | up id handler =>
      rcases of_guard stepped with ⟨_, rfl⟩
      exact stateSound_of_running (sound.semaUp id)

/-- During a switch only `thread_switch_tail` can run. -/
theorem SwitchSound.step {prev : Option Page} (sound : SwitchSound k prev)
    (stepped : k.step move = some target) : StateSound target := by
  have busy : k.inOwnCode = false := by
    rw [Kernel.inOwnCode, sound.switching]
    rfl
  have noCode : k.kernelCode = false := by
    rw [Kernel.kernelCode, busy]
    rfl
  have noCall : ∀ handler, k.mayCall handler = false := by
    intro handler
    rw [Kernel.mayCall, busy, noCode]
    cases handler <;> rfl
  cases move with
  | switchTail =>
      rw [Kernel.step, sound.switching] at stepped
      cases stepped
      rcases sound.threadSwitchTail with ⟨after, result, running, _⟩
      apply stateSound_of_running
      exact ⟨_, by rw [result]; rfl, running⟩
  | resume => simp [Kernel.step, sound.switching] at stepped
  | _ => simp [Kernel.step, busy, noCode, noCall] at stepped

theorem StateSound.step {state : KernelState Page Sema} (sound : StateSound state)
    (stepped : (schedulerSystem Page Sema).step state move = some target) :
    StateSound target := by
  cases state with
  | panicked => cases sound
  | running k =>
      rcases sound with running | ⟨prev, switching⟩
      · exact running.step stepped
      · exact switching.step stepped

end Steps

/-! ## The first state -/

section Start

variable {initialThread idleThread page : Page} {idleBlocked : Bool}
variable {value : Sema → Nat} {t : ThreadPage Page Sema}

omit [DecidableEq Sema] in
/-- The two threads that there are when `thread_start` returns. -/
theorem start_thread
    (known : (startKernel initialThread idleThread idleBlocked value).thread page = some t) :
    t.creating = none ∧
      ((page = initialThread ∧ t.status = .running ∧ t.point = .own) ∨
        (page = idleThread ∧
          (t.status = .blocked ∧ t.point = .blocked ∨
            t.status = .ready ∧ t.point = .yielded true))) := by
  change (if page = initialThread then _ else if page = idleThread then
    if idleBlocked then _ else _ else none) = some t at known
  split at known
  · rename_i first
    cases known
    exact ⟨rfl, Or.inl ⟨first, rfl, rfl⟩⟩
  · split at known
    · rename_i isIdle
      cases idleBlocked with
      | true =>
          cases known
          exact ⟨rfl, Or.inr ⟨isIdle, Or.inl ⟨rfl, rfl⟩⟩⟩
      | false =>
          cases known
          exact ⟨rfl, Or.inr ⟨isIdle, Or.inr ⟨rfl, rfl⟩⟩⟩
    · cases known

omit [DecidableEq Sema] in
theorem start_initial :
    (startKernel initialThread idleThread idleBlocked value).thread
      initialThread = some { status := .running, point := .own, creating := none } :=
  if_pos rfl

omit [DecidableEq Sema] in
theorem start_idle (different : initialThread ≠ idleThread) :
    ∃ t, (startKernel initialThread idleThread idleBlocked value).thread
      idleThread = some t ∧ (t.status = .blocked ∨ t.status = .ready) := by
  change ∃ t, (if idleThread = initialThread then _ else
    if idleThread = idleThread then if idleBlocked then _ else _
    else none) = some t ∧ _
  rw [if_neg (Ne.symm different), if_pos rfl]
  cases idleBlocked with
  | true => exact ⟨_, rfl, Or.inl rfl⟩
  | false => exact ⟨_, rfl, Or.inr rfl⟩

omit [DecidableEq Sema] in
theorem start_lists (different : initialThread ≠ idleThread) :
    ListsSound (startKernel initialThread idleThread idleBlocked value)
      none := by
  constructor
  · constructor
    · intro list
      cases list <;> exact List.nodup_nil
    · intro list page
      have empty : (startKernel initialThread idleThread idleBlocked
          value).elemList list = [] := by
        cases list <;> rfl
      rw [empty]
      constructor
      · intro member
        cases member
      · intro place
        rcases Option.bind_eq_some_iff.mp place with ⟨t, known, place⟩
        rcases (start_thread known).2 with ⟨_, running, _⟩ | ⟨isIdle, ⟨blocked, point⟩ | ⟨ready, _⟩⟩
        · simp [elemPlace, running] at place
        · simp [elemPlace, blocked, point] at place
        · rw [elemPlace, ready] at place
          have unlisted : page = (startKernel initialThread idleThread
              idleBlocked value).idleThread := isIdle
          dsimp only at place
          rw [if_pos (Or.inl unlisted)] at place
          cases place
  · change [initialThread, idleThread].Nodup
    simp [different]
  · intro page
    change page ∈ [initialThread, idleThread] ↔ _
    constructor
    · intro member
      rcases List.mem_cons.mp member with same | member
      · rw [same]
        exact ⟨_, start_initial, by simp⟩
      · rw [List.mem_singleton.mp member]
        rcases start_idle different with ⟨t, known, blocked | ready⟩
        · exact ⟨t, known, by simp [blocked]⟩
        · exact ⟨t, known, by simp [ready]⟩
    · rintro ⟨t, known, _⟩
      rcases (start_thread known).2 with ⟨same, _⟩ | ⟨same, _⟩
      · simp [same]
      · simp [same]
  · intro page t known
    rcases (start_thread known).2 with ⟨_, running, _⟩ | ⟨_, ⟨blocked, point⟩ | ⟨ready, point⟩⟩
    · rw [RecordSound, running]
      trivial
    · rw [RecordSound, blocked, point]
      trivial
    · rw [RecordSound, ready, point]
      trivial
  · rcases start_idle different with ⟨t, known, _⟩
    refine ⟨t, known, ?_⟩
    have start := start_thread known
    rcases start.2 with ⟨same, _⟩ | ⟨_, ⟨blocked, point⟩ | ⟨ready, point⟩⟩
    · exact absurd same.symm different
    · exact ⟨by simp [blocked], start.1, by simp [point], by simp [point]⟩
    · exact ⟨by simp [ready], start.1, by simp [point], by simp [point]⟩
  · intro page t child known creates
    rw [(start_thread known).1] at creates
    cases creates
  · intro first second t u child known _ creates _
    rw [(start_thread known).1] at creates
    cases creates
  · rfl

theorem start_sound (different : initialThread ≠ idleThread)
    (values : ∀ id, value id < unsignedModulus) :
    RunningSound (startKernel initialThread idleThread idleBlocked value) := by
  constructor
  · exact start_lists different
  · intro id
    constructor
    · intro _
      change value id % unsignedModulus + 0 + 0 = value id + 0
      rw [Nat.mod_eq_of_lt (values id)]
    · intro waiting
      exact absurd rfl waiting
  · rfl
  · exact ⟨_, start_initial, rfl, fun away => absurd rfl away⟩
  · intro page t known away
    rcases (start_thread known).2 with ⟨same, _⟩ | ⟨_, ⟨blocked, _⟩ | ⟨ready, _⟩⟩
    · exact absurd same away
    · simp [blocked]
    · simp [ready]
  · exact .nil

end Start

/-! ## Every run -/

section Runs

variable {state : KernelState Page Sema} {k : Kernel Page Sema}

theorem state_sound (reachable : (schedulerSystem Page Sema).Reachable state) :
    StateSound state := by
  apply reachable.invariant StateSound
  · rintro start ⟨initialThread, idleThread, idleBlocked, value, different, values, rfl⟩
    exact Or.inl (start_sound different values)
  · intro before move after _ sound stepped
    exact sound.step stepped

theorem kernel_sound (reachable : (schedulerSystem Page Sema).Reachable state) :
    ∃ k, state = .running k ∧ KernelSound k := by
  have sound := state_sound reachable
  cases state with
  | panicked => cases sound
  | running k => exact ⟨k, rfl, sound⟩

/-- A run with the first thread 0 and the idle thread 1. -/
theorem reached_of_run (value : Unit → ℕ) (moves : List (KernelMove ℕ Unit))
    (test : Kernel ℕ Unit → Bool)
    (passed : ((schedulerSystem ℕ Unit).run
      (.running (startKernel 0 1 true fun id => value id % unsignedModulus))
      moves).any (fun state =>
        match state with
        | .running k => test k
        | .panicked => false) = true) :
    ∃ k, (schedulerSystem ℕ Unit).Reachable (.running k) ∧ test k = true := by
  rcases (Option.any_eq_true _ _).mp passed with ⟨state, execution, tested⟩
  have start : (schedulerSystem ℕ Unit).Reachable
      (.running (startKernel 0 1 true fun id => value id % unsignedModulus)) := by
    apply TransitionSystem.Reachable.initial
    exact ⟨0, 1, true, _, by decide, fun id => Nat.mod_lt _ (by decide), rfl⟩
  cases state with
  | running k => exact ⟨k, start.of_run execution, tested⟩
  | panicked => cases tested

theorem KernelSound.lists (sound : KernelSound k) :
    ∃ next, ListsSound k next ∧ (k.switching = none → next = none) := by
  rcases sound with running | ⟨prev, switching⟩
  · exact ⟨none, running.lists, fun _ => rfl⟩
  · refine ⟨_, switching.lists, fun still => ?_⟩
    rw [switching.switching] at still
    cases still

theorem KernelSound.semas (sound : KernelSound k) (id : Sema) : SemaSound k id := by
  rcases sound with running | ⟨prev, switching⟩
  · exact running.semas id
  · exact switching.semas id

/-- What holds of the ready list and of the running thread. -/
structure RunQueueSound (k : Kernel Page Sema) : Prop where
  oneRunning : k.switching = none → ∀ page,
    (∃ t, k.thread page = some t ∧ t.status = .running) ↔ page = k.stack
  nodup : k.fifoReadyList.Nodup
  ready : k.switching = none → ∀ page, page ∈ k.fifoReadyList ↔
    page ≠ k.idleThread ∧ ∃ t, k.thread page = some t ∧ t.status = .ready
  idle : k.idleThread ∉ k.fifoReadyList
  idleLast : k.switching.isSome = true → k.stack = k.idleThread → k.fifoReadyList = []
  allNodup : k.allList.Nodup
  all : ∀ page, page ∈ k.allList ↔ ∃ t, k.thread page = some t ∧ t.status ≠ .dying
  order : k.enqueued = k.dispatched ++ k.fifoReadyList

omit [DecidableEq Sema] in
theorem ListsSound.ready_iff (sound : ListsSound k none) (page : Page) :
    page ∈ k.fifoReadyList ↔
      page ≠ k.idleThread ∧
        ∃ t, k.thread page = some t ∧ t.status = .ready := by
  have members := sound.queues.mem_iff .ready page
  change page ∈ k.fifoReadyList ↔ _ at members
  rw [members]
  constructor
  · intro place
    rcases Option.bind_eq_some_iff.mp place with ⟨t, known, place⟩
    have ready := elemPlace_ready place
    exact ⟨ready.2, t, known, ready.1⟩
  · rintro ⟨notIdle, t, known, ready⟩
    rw [Kernel.place, known, Option.bind_some, elemPlace, ready]
    simp [notIdle]

omit [DecidableEq Sema] in
theorem ListsSound.idle_unlisted {next : Option Page}
    (sound : ListsSound k next) : k.idleThread ∉ k.fifoReadyList := by
  intro listed
  have place : k.place next k.idleThread = some .ready :=
    (sound.queues.mem_iff .ready k.idleThread).mp listed
  rcases Option.bind_eq_some_iff.mp place with ⟨t, _, place⟩
  rw [elemPlace] at place
  cases status : t.status with
  | ready => simp [status] at place
  | blocked =>
      rw [status] at place
      cases point : t.point <;> simp [point] at place
  | running => simp [status] at place
  | dying => simp [status] at place

theorem KernelSound.runQueue (sound : KernelSound k) : RunQueueSound k := by
  rcases sound.lists with ⟨next, lists, settled⟩
  constructor
  · intro still page
    rcases sound with running | ⟨prev, switching⟩
    · constructor
      · rintro ⟨t, known, runs⟩
        by_contra away
        exact (running.others page t known away).1 runs
      · intro same
        rcases running.current with ⟨t, known, runs, _⟩
        rw [same]
        exact ⟨t, known, runs⟩
    · rw [switching.switching] at still
      cases still
  · exact lists.queues.nodup .ready
  · intro still page
    rw [settled still] at lists
    exact lists.ready_iff page
  · exact lists.idle_unlisted
  · intro switching isIdle
    rcases sound with running | ⟨prev, switched⟩
    · rw [running.still] at switching
      cases switching
    · exact switched.idleLast isIdle
  · exact lists.allNodup
  · exact lists.all
  · exact lists.history

/-- The ready list and the running thread, in every run; and no assertion
fails. -/
theorem run_queue_sound
    (reachable : (schedulerSystem Page Sema).Reachable state) :
    ∃ k, state = .running k ∧ RunQueueSound k := by
  rcases kernel_sound reachable with ⟨k, same, sound⟩
  exact ⟨k, same, sound.runQueue⟩

/-- After a yield the second thread runs and the first one is ready. -/
theorem run_queue_sound_yielded :
    ∃ k : Kernel ℕ Unit, k.stack = 2 ∧ k.fifoReadyList = [0] ∧
      RunQueueSound k := by
  rcases reached_of_run (fun _ => 0) [.create 2, .started, .yield,
      .switchTail, .resume] (fun k => k.stack = 2 && k.fifoReadyList = [0])
      (by decide +kernel) with ⟨k, reachable, yielded⟩
  rcases run_queue_sound reachable with ⟨same, equal, sound⟩
  cases equal
  rw [Bool.and_eq_true, decide_eq_true_eq, decide_eq_true_eq] at yielded
  exact ⟨k, yielded.1, yielded.2, sound⟩

/-- A semaphore with its waiters. -/
structure SemaAccounted (k : Kernel Page Sema) (id : Sema) : Prop where
  account :
    (k.counts id).initial + (k.counts id).ups < unsignedModulus →
    (k.sema id).value + (k.counts id).downs + (k.counts id).tryDowns =
      (k.counts id).initial + (k.counts id).ups
  blocked : ∀ page, page ∈ (k.sema id).waiters → ∃ t, k.thread page = some t ∧ t.status = .blocked
  nodup : (k.sema id).waiters.Nodup
  unready : ∀ page, page ∈ (k.sema id).waiters → page ∉ k.fifoReadyList
  noLostWakeup : (k.sema id).waiters ≠ [] → (k.sema id).value ≤ k.woken id
  positive : (k.sema id).waiters ≠ [] → 0 < (k.sema id).value →
    ∃ page t, page ∈ k.allList ∧ k.thread page = some t ∧ wokenBy id t = true

omit [DecidableEq Page] in
theorem woken_of_positive {id : Sema} (positive : 0 < k.woken id) :
    ∃ page t, page ∈ k.allList ∧ k.thread page = some t ∧
      wokenBy id t = true := by
  rcases List.countP_pos_iff.mp positive with ⟨page, listed, woken⟩
  rcases (Option.any_eq_true _ _).mp woken with ⟨t, known, woken⟩
  exact ⟨page, t, listed, known, woken⟩

/-- Semaphores in every run. -/
theorem semaphores_accounted
    (reachable : (schedulerSystem Page Sema).Reachable state) :
    ∃ k, state = .running k ∧ ∀ id, SemaAccounted k id := by
  rcases kernel_sound reachable with ⟨k, same, sound⟩
  refine ⟨k, same, fun id => ?_⟩
  rcases sound.lists with ⟨next, lists, _⟩
  constructor
  · exact (sound.semas id).account
  · intro page waiting
    rcases lists.waiter waiting with ⟨t, _, known, blocked, _⟩
    exact ⟨t, known, blocked⟩
  · exact lists.queues.nodup (.waiters id)
  · intro page waiting listed
    have waits := (lists.queues.mem_iff (.waiters id) page).mp waiting
    have ready := (lists.queues.mem_iff .ready page).mp listed
    rw [waits] at ready
    cases ready
  · exact (sound.semas id).noLostWakeup
  · intro waiting positive
    apply woken_of_positive
    exact Nat.lt_of_lt_of_le positive ((sound.semas id).noLostWakeup waiting)

/-- The first thread waits for the thread that it has created. -/
theorem semaphores_accounted_waiting :
    ∃ k : Kernel ℕ Unit, (k.sema ()).waiters = [0] ∧ k.stack = 2 ∧
      ∀ id, SemaAccounted k id := by
  rcases reached_of_run (fun _ => 0) [.create 2, .started, .down (), .switchTail, .resume]
      (fun k => (k.sema ()).waiters = [0] && k.stack = 2)
      (by decide +kernel) with ⟨k, reachable, waiting⟩
  rcases semaphores_accounted reachable with ⟨same, equal, accounted⟩
  cases equal
  rw [Bool.and_eq_true, decide_eq_true_eq, decide_eq_true_eq] at waiting
  exact ⟨k, waiting.1, waiting.2, accounted⟩

/-- An up at the largest value makes the value zero. -/
theorem sema_up_wraps :
    ∃ k : Kernel ℕ Unit, (schedulerSystem ℕ Unit).Reachable (.running k) ∧
      (k.counts ()).ups < unsignedModulus ∧
      (k.sema ()).value + (k.counts ()).downs + (k.counts ()).tryDowns ≠
        (k.counts ()).initial + (k.counts ()).ups := by
  rcases reached_of_run (fun _ => unsignedModulus - 1) [.up () false]
      (fun k => (k.counts ()).ups < unsignedModulus &&
        (k.sema ()).value + (k.counts ()).downs + (k.counts ()).tryDowns ≠
          (k.counts ()).initial + (k.counts ()).ups)
      (by decide +kernel) with ⟨k, reachable, wrapped⟩
  rw [Bool.and_eq_true, decide_eq_true_eq, decide_eq_true_eq] at wrapped
  exact ⟨k, reachable, wrapped.1, wrapped.2⟩

/-- When a page may be freed. -/
structure SafeToFree (k : Kernel Page Sema) (page : Page) : Prop where
  notInitial : page ≠ k.initialThread
  dying : ∃ t, k.thread page = some t ∧ t.status = .dying
  away : page ≠ k.stack
  unready : page ∉ k.fifoReadyList
  unlisted : page ∉ k.allList
  waitless : ∀ id, page ∉ (k.sema id).waiters

/-- The reclaiming of pages: what the log of a run says, and what the next
`thread_switch_tail` does. -/
structure PagesReclaimed (k : Kernel Page Sema) : Prop where
  log : ∃ phase, PageLog k.initialThread k.events phase ∧ (k.switching = none → phase = .quiet)
  once : k.switching = none → ∀ page, page ≠ k.initialThread →
    k.events.count (.freed page) = k.events.count (.exited page)
  initialKept : .freed k.initialThread ∉ k.events
  tail : ∀ prev, k.switching = some prev →
    ∃ after, k.step .switchTail = some (.running after) ∧
      (after.events = k.events ∨
        ∃ page, prev = some page ∧ SafeToFree k page ∧ after.events = k.events ++ [.freed page])

theorem SwitchSound.safe {prev : Option Page} (sound : SwitchSound k prev)
    {page : Page} (owed : Owed k prev page) : SafeToFree k page := by
  rcases owed with ⟨handed, notInitial, t, known, dying⟩
  have nowhere : ∀ list, page ∉ k.elemList list := by
    intro list listed
    rw [sound.lists.queues.mem_iff, Kernel.place, known, Option.bind_some,
      elemPlace, dying] at listed
    cases listed
  constructor
  · exact notInitial
  · exact ⟨t, known, dying⟩
  · exact (sound.handed page handed).1
  · exact nowhere .ready
  · intro listed
    rcases (sound.lists.all page).mp listed with ⟨u, record, alive⟩
    rw [known] at record
    cases record
    exact alive dying
  · exact fun id => nowhere (.waiters id)

theorem KernelSound.pageLog (sound : KernelSound k) :
    ∃ phase, PageLog k.initialThread k.events phase ∧
      (k.switching = none → phase = .quiet) := by
  rcases sound with running | ⟨prev, switching⟩
  · exact ⟨.quiet, running.log, fun _ => rfl⟩
  · have busy : ∀ phase : PagePhase Page, k.switching = none →
        phase = .quiet := by
      intro phase still
      rw [switching.switching] at still
      cases still
    by_cases owed : ∃ page, Owed k prev page
    · rcases owed with ⟨page, owed⟩
      exact ⟨_, switching.owed page owed, busy _⟩
    · exact ⟨_, switching.quiet (fun page due => owed ⟨page, due⟩), busy _⟩

/-- The pages of threads in every run. -/
theorem pages_reclaimed
    (reachable : (schedulerSystem Page Sema).Reachable state) :
    ∃ k, state = .running k ∧ PagesReclaimed k := by
  rcases kernel_sound reachable with ⟨k, same, sound⟩
  refine ⟨k, same, ?_⟩
  rcases sound.pageLog with ⟨phase, log, settled⟩
  constructor
  · exact ⟨phase, log, settled⟩
  · intro still page notInitial
    have count := log.count notInitial
    rw [settled still] at count
    exact count
  · exact log.initial_kept
  · intro prev switching
    rcases sound with running | ⟨other, switched⟩
    · rw [running.still] at switching
      cases switching
    · rw [switched.switching] at switching
      cases switching
      rcases switched.threadSwitchTail with ⟨after, result, _, freed⟩
      refine ⟨{ after with switching := none }, ?_, ?_⟩
      · rw [Kernel.step, switched.switching, Option.map_some, result]
        rfl
      · rcases freed with kept | ⟨page, owed, freed⟩
        · exact Or.inl kept
        · exact Or.inr ⟨page, owed.1, switched.safe owed, freed⟩

/-- The second thread has exited, and its page is freed next. -/
theorem pages_reclaimed_exited :
    ∃ k : Kernel ℕ Unit, k.switching = some (some 2) ∧ k.stack = 0 ∧
      PagesReclaimed k := by
  rcases reached_of_run (fun _ => 0) [.create 2, .started, .yield, .switchTail, .resume, .exit]
      (fun k => k.switching = some (some 2) && k.stack = 0)
      (by decide +kernel) with ⟨k, reachable, exited⟩
  rcases pages_reclaimed reachable with ⟨same, equal, reclaimed⟩
  cases equal
  rw [Bool.and_eq_true, decide_eq_true_eq, decide_eq_true_eq] at exited
  exact ⟨k, exited.1, exited.2, reclaimed⟩

end Runs

end CS162.Threads

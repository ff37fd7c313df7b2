import CS162.Threads.InterruptRuns

/-!
# Time slices

The timer counts every tick once and takes the processor from a thread after
`TIME_SLICE` ticks.  So a thread at place `i` of the ready list is switched to
within `(i + 1) * TIME_SLICE` ticks, whatever the threads before it do.  A thread
in `timer_sleep` is never blocked and comes back only when its ticks are over.
-/

namespace CS162.Threads

open CS162.Foundation

universe u v

variable {Page : Type u} {Sema : Type v} [DecidableEq Page] [DecidableEq Sema]

/-- How many ticks a thread in the ready list may still wait. -/
def InterruptMachine.patience (m : InterruptMachine Page Sema) (page : Page) :
    Nat :=
  timeSlice * m.interrupted.fifoReadyList.idxOf page +
    if m.interrupted.switching.isSome then timeSlice
    else timeSlice - m.threadTicks

section Waiting

variable {m after : InterruptMachine Page Sema} {page : Page}

omit [DecidableEq Sema] in
/-- The patience is at most what the place in the list allows. -/
theorem patience_le (m : InterruptMachine Page Sema) (page : Page) :
    m.patience page ≤ timeSlice * (m.interrupted.fifoReadyList.idxOf page + 1) := by
  rw [InterruptMachine.patience, Nat.mul_succ]
  apply Nat.add_le_add_left
  split
  · exact Nat.le_refl _
  · exact Nat.sub_le _ _

omit [DecidableEq Sema] in
/-- A waiting thread keeps its place until the head of the list is switched to,
and then gets nearer to it. -/
theorem QueueMove.place {k k' : Kernel Page Sema} (queue : QueueMove k k')
    (listed : page ∈ k.fifoReadyList) :
    page = k'.stack ∨
      page ∈ k'.fifoReadyList ∧
        (k'.switching.isSome = true ∧
            k'.fifoReadyList.idxOf page + 1 = k.fifoReadyList.idxOf page ∨
          k'.fifoReadyList.idxOf page = k.fifoReadyList.idxOf page ∧
            (k'.switching = k.switching ∨ k'.switching = none)) := by
  cases queue with
  | stays woken _ switching list =>
      rw [list, List.idxOf_append_of_mem listed]
      exact Or.inr ⟨List.mem_append_left _ listed, Or.inr ⟨rfl, Or.inl switching⟩⟩
  | settles _ switching list =>
      rw [list]
      exact Or.inr ⟨listed, Or.inr ⟨rfl, Or.inr switching⟩⟩
  | leaves queued switching list stack =>
      cases waiting : k.fifoReadyList with
      | nil =>
          rw [waiting] at listed
          cases listed
      | cons first rest =>
          rw [waiting] at list stack listed
          by_cases head : page = first
          · left
            rw [stack, head]
            rfl
          · right
            have later : page ∈ rest := by
              rcases List.mem_cons.mp listed with same | later
              · exact absurd same head
              · exact later
            have tail : k'.fifoReadyList = rest ++ queued := list
            rw [tail, List.idxOf_append_of_mem later, List.idxOf_cons_ne _ (Ne.symm head)]
            exact ⟨List.mem_append_left _ later, Or.inl ⟨switching, rfl⟩⟩

/-- A move that is not a tick does not use up patience, and a tick uses up one. -/
theorem Effect.waits (effect : Effect m after) (listed : page ∈ m.interrupted.fifoReadyList) :
    page = after.interrupted.stack ∧ after.ticks = m.ticks ∨
      page ∈ after.interrupted.fifoReadyList ∧
        after.ticks + after.patience page ≤ m.ticks + m.patience page := by
  cases effect with
  | unmoved same ticks slice =>
      right
      rw [InterruptMachine.patience, InterruptMachine.patience, same, ticks, slice]
      exact ⟨listed, Nat.le_refl _⟩
  | tick same still room ticks slice =>
      right
      rw [InterruptMachine.patience, InterruptMachine.patience, same, ticks, slice, still]
      refine ⟨listed, ?_⟩
      simp only [Option.isSome_none, Bool.false_eq_true, if_false]
      omega
  | call move stepped ticks slice =>
      rcases (moved_of_step stepped).queue.place listed with current | ⟨waits, place⟩
      · exact Or.inl ⟨current, ticks⟩
      · refine Or.inr ⟨waits, ?_⟩
        rw [ticks]
        apply Nat.add_le_add_left
        rcases place with ⟨_, nearer⟩ | ⟨same, switching⟩
        · calc after.patience page
              ≤ timeSlice *
                  (after.interrupted.fifoReadyList.idxOf page + 1) :=
                patience_le after page
            _ = timeSlice * m.interrupted.fifoReadyList.idxOf page := by
                rw [nearer]
            _ ≤ m.patience page := Nat.le_add_right _ _
        · rw [InterruptMachine.patience, InterruptMachine.patience, same]
          apply Nat.add_le_add_left
          by_cases busy : m.interrupted.switching.isSome = true
          · rw [if_pos busy]
            split
            · exact Nat.le_refl _
            · exact Nat.sub_le _ _
          · have still : m.interrupted.switching = none :=
              Option.not_isSome_iff_eq_none.mp busy
            have still' : ¬after.interrupted.switching.isSome = true := by
              rcases switching with same | none
              · rw [same]
                exact busy
              · rw [none]
                exact Bool.false_ne_true
            rw [if_neg busy, if_neg still']
            rcases slice with kept | tail
            · rw [kept]
            · rw [tail, Kernel.step, still] at stepped
              cases stepped

/-- A waiting thread is switched to before its patience is used up. -/
theorem InterruptSound.waits (sound : InterruptSound m)
    (listed : page ∈ m.interrupted.fifoReadyList) {bound : Nat}
    (enough : m.ticks + m.patience page ≤ bound)
    {moves : List (InterruptMove Page Sema)} {last : InterruptMachine Page Sema}
    (execution : (interruptSystem Page Sema).run (.running m) moves = some (.running last))
    (late : bound < last.ticks) :
    ∃ done rest middle, moves = done ++ rest ∧
      (interruptSystem Page Sema).run (.running m) done = some (.running middle) ∧
      middle.kernel.stack = page ∧ middle.ticks ≤ bound := by
  induction moves generalizing m with
  | nil =>
      cases execution
      have early : last.ticks ≤ bound := Nat.le_trans (Nat.le_add_right _ _) enough
      exact absurd late (Nat.not_lt.mpr early)
  | cons move rest inductionHypothesis =>
      rcases TransitionSystem.run_cons_eq_some.mp execution with ⟨state, stepped, remainder⟩
      rcases sound.step stepped with ⟨after, rfl, sound', effect⟩
      rcases effect.waits listed with ⟨current, ticks⟩ | ⟨listed', patience⟩
      · refine ⟨[move], rest, after, rfl, ?_, ?_, ?_⟩
        · exact TransitionSystem.run_cons_eq_some.mpr ⟨_, stepped, rfl⟩
        · rw [current, InterruptMachine.interrupted]
          split <;> rfl
        · rw [ticks]
          exact Nat.le_trans (Nat.le_add_right _ _) enough
      · rcases inductionHypothesis sound' listed'
          (Nat.le_trans patience enough) remainder with
          ⟨done, others, middle, same, reached, dispatched, early⟩
        refine ⟨move :: done, others, middle, ?_, ?_, dispatched, early⟩
        · rw [same]
          rfl
        · exact TransitionSystem.run_cons_eq_some.mpr ⟨_, stepped, reached⟩

omit [DecidableEq Page] [DecidableEq Sema] in
theorem interrupted_list (m : InterruptMachine Page Sema) :
    m.interrupted.fifoReadyList = m.kernel.fifoReadyList := by
  rw [InterruptMachine.interrupted]
  split <;> rfl

end Waiting

section Runs

variable {state : InterruptState Page Sema} {m last : InterruptMachine Page Sema}
variable {page : Page} {moves : List (InterruptMove Page Sema)}

/-- A ready thread waits for no more than a time slice for each thread before it
and one for the thread that runs, in every run. -/
theorem dispatched_in_time
    (reachable : (interruptSystem Page Sema).Reachable (.running m))
    (listed : page ∈ m.kernel.fifoReadyList)
    (execution : (interruptSystem Page Sema).run (.running m) moves = some (.running last))
    (late : m.ticks + timeSlice * (m.kernel.fifoReadyList.idxOf page + 1) < last.ticks) :
    ∃ done rest middle, moves = done ++ rest ∧
      (interruptSystem Page Sema).run (.running m) done = some (.running middle) ∧
      middle.kernel.stack = page ∧
      middle.ticks ≤ m.ticks + timeSlice * (m.kernel.fifoReadyList.idxOf page + 1) := by
  rcases interrupt_sound reachable with ⟨same, equal, sound⟩
  cases equal
  rw [← interrupted_list] at listed late ⊢
  exact sound.waits listed (Nat.add_le_add_left (patience_le m page) _) execution late

/-- Timer interrupts from the gate to the return of the handler. -/
def timerInterrupts : Nat → List (InterruptMove ℕ Unit)
  | 0 => []
  | n + 1 =>
      .interrupt 0x20 false :: .timerInterrupt :: .intrReturn :: timerInterrupts n

/-- Five ticks have gone by. -/
def fiveTicks : InterruptState ℕ Unit → Bool
  | .running last => last.ticks = 5
  | .panicked => false

/-- The first thread does nothing for four ticks, and the fifth one finds the
second thread, which it has created. -/
theorem dispatched_in_time_second :
    ∃ m : InterruptMachine ℕ Unit, m.ticks = 0 ∧
      ∃ done rest middle,
        timerInterrupts 4 ++ [.code .switchTail, .code .resume] ++
          timerInterrupts 1 = done ++ rest ∧
        (interruptSystem ℕ Unit).run (.running m) done = some (.running middle) ∧
        middle.kernel.stack = 2 ∧
        middle.ticks ≤ m.ticks + timeSlice * (m.kernel.fifoReadyList.idxOf 2 + 1) := by
  rcases interrupted_of_run [.code (.create 2), .code .started]
      (fun m => m.ticks = 0 && m.kernel.fifoReadyList = [2] &&
        ((interruptSystem ℕ Unit).run (.running m)
          (timerInterrupts 4 ++ [.code .switchTail, .code .resume] ++
            timerInterrupts 1)).any fiveTicks)
      (by decide +kernel) with ⟨m, reachable, passed⟩
  rw [Bool.and_eq_true, Bool.and_eq_true, decide_eq_true_eq, decide_eq_true_eq] at passed
  rcases passed with ⟨⟨zero, listed⟩, ran⟩
  rcases (Option.any_eq_true _ _).mp ran with ⟨state, execution, ticks⟩
  cases state with
  | panicked => cases ticks
  | running last =>
      have five : last.ticks = 5 := of_decide_eq_true ticks
      refine ⟨m, zero, dispatched_in_time reachable ?_ execution ?_⟩
      · rw [listed]
        exact List.mem_cons_self
      · rw [listed, zero, five]
        decide

/-- The statistics and the time slice. -/
structure TicksSound (m : InterruptMachine Page Sema) : Prop where
  counted : m.ticks = m.idleTicks + m.kernelTicks + m.userTicks
  slice : m.threadTicks ≤ timeSlice
  preempts : m.threadTicks = timeSlice →
    m.kernel.switching.isSome = true ∨ m.inExternalIntr = true ∧ m.yieldOnReturn = true

/-- The ticks in every run. -/
theorem ticks_sound (reachable : (interruptSystem Page Sema).Reachable state) :
    ∃ m, state = .running m ∧ TicksSound m := by
  rcases interrupt_sound reachable with ⟨m, rfl, sound⟩
  refine ⟨m, rfl, sound.ticks, sound.slice, ?_⟩
  intro full
  rcases sound.spent full with switching | ⟨frame, busy, _, yields⟩
  · exact Or.inl switching
  · exact Or.inr ⟨(sound.handler frame busy).context, yields⟩

/-- The slice of the first thread is over and it is being switched from. -/
theorem ticks_sound_over :
    ∃ m : InterruptMachine ℕ Unit, m.threadTicks = timeSlice ∧
      m.kernelTicks = 4 ∧ TicksSound m := by
  rcases interrupted_of_run (timerInterrupts 4)
      (fun m => m.threadTicks = timeSlice && m.kernelTicks = 4)
      (by decide +kernel) with ⟨m, reachable, passed⟩
  rcases ticks_sound reachable with ⟨same, equal, sound⟩
  cases equal
  rw [Bool.and_eq_true, decide_eq_true_eq, decide_eq_true_eq] at passed
  exact ⟨m, passed.1, passed.2, sound⟩

/-- Threads in `timer_sleep`, and those that have come back from it. -/
structure SleepersSound (m : InterruptMachine Page Sema) : Prop where
  ready : ∀ page sleep, m.sleeping page = some sleep →
    page ≠ m.kernel.idleThread ∧
      (page ∈ m.kernel.fifoReadyList ∨ page = m.kernel.stack) ∧
      ∀ t, m.kernel.thread page = some t → t.status = .ready ∨ t.status = .running
  late : ∀ sleep tick, (sleep, tick) ∈ m.woken → (sleep.start : Int) + sleep.ticks ≤ tick

/-- A thread that is ready or runs is not blocked. -/
theorem KernelSound.awake {k : Kernel Page Sema} (sound : KernelSound k)
    (awake : page ∈ k.fifoReadyList ∨ page = k.stack)
    (notIdle : page ≠ k.idleThread) {t : ThreadPage Page Sema} (known : k.thread page = some t) :
    t.status = .ready ∨ t.status = .running := by
  rcases awake with listed | current
  · rcases sound.lists with ⟨next, lists, _⟩
    have place : k.place next page = some .ready := (lists.queues.mem_iff .ready page).mp listed
    rw [Kernel.place, known, Option.bind_some, elemPlace] at place
    left
    cases status : t.status with
    | ready => rfl
    | blocked =>
        rw [status] at place
        cases point : t.point <;> simp [point] at place
    | running => simp [status] at place
    | dying => simp [status] at place
  · subst current
    rcases sound with running | ⟨prev, switching⟩
    · rcases running.current with ⟨u, record, runs, _⟩
      rw [known] at record
      cases record
      exact Or.inr runs
    · rcases switching.current with ⟨u, record, ready | idle⟩
      · rw [known] at record
        cases record
        exact Or.inl ready
      · exact absurd idle.2 notIdle

/-- `timer_sleep` in every run. -/
theorem timer_sleep_sound
    (reachable : (interruptSystem Page Sema).Reachable state) :
    ∃ m, state = .running m ∧ SleepersSound m := by
  rcases interrupt_sound reachable with ⟨m, rfl, sound⟩
  have views : m.interrupted.stack = m.kernel.stack ∧
      m.interrupted.idleThread = m.kernel.idleThread ∧
      m.interrupted.thread = m.kernel.thread := by
    rw [InterruptMachine.interrupted]
    split <;> exact ⟨rfl, rfl, rfl⟩
  refine ⟨m, rfl, ?_, sound.late⟩
  intro page sleep asleep
  have before := sound.asleep page sleep asleep
  rw [← views.1, ← views.2.1, ← views.2.2, ← interrupted_list]
  exact ⟨before.notIdle, before.awake, fun t known =>
    sound.kernel.awake before.awake before.notIdle known⟩

/-- A thread sleeps for two ticks while another one runs. -/
theorem timer_sleep_sound_yielded :
    ∃ m : InterruptMachine ℕ Unit, (m.sleeping 0).isSome = true ∧
      m.kernel.stack = 2 ∧ SleepersSound m := by
  rcases interrupted_of_run [.code (.create 2), .code .started, .sleep 2,
      .interrupt 0x20 false, .timerInterrupt, .intrReturn, .sleepTest]
      (fun m => (m.sleeping 0).isSome && m.kernel.stack = 2)
      (by decide +kernel) with ⟨m, reachable, passed⟩
  rcases timer_sleep_sound reachable with ⟨same, equal, sound⟩
  cases equal
  rw [Bool.and_eq_true, decide_eq_true_eq] at passed
  exact ⟨m, passed.1, passed.2, sound⟩

end Runs

end CS162.Threads

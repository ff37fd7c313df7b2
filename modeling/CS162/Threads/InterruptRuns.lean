import CS162.Threads.InterruptSafety

/-!
# Runs with interrupt handlers

The steps of handlers and of threads keep the invariant, and each is one move of
the scheduler or none.  From this follow, for every run: no assertion fails, every
interrupt is acknowledged once, the ticks are accounted for, a ready thread waits
for a bounded number of ticks, and `timer_sleep` does not return early.
-/

namespace CS162.Threads

open CS162.Foundation

universe u v

variable {Page : Type u} {Sema : Type v} [DecidableEq Page] [DecidableEq Sema]

section Views

variable {m : InterruptMachine Page Sema}

omit [DecidableEq Page] [DecidableEq Sema] in
theorem interrupted_of_none (idle : m.frame = none) : m.interrupted = m.kernel := by
  rw [InterruptMachine.interrupted, idle]
  rfl

omit [DecidableEq Page] [DecidableEq Sema] in
theorem interrupted_of_some {frame : ExternalFrame} (busy : m.frame = some frame) :
    m.interrupted = m.kernel.atLevel true := by
  rw [InterruptMachine.interrupted, busy]
  rfl

omit [DecidableEq Page] [DecidableEq Sema] in
theorem atLevel_eq {k : Kernel Page Sema} {level : Bool}
    (same : k.interrupts = level) : k.atLevel level = k := by
  subst same
  rfl

omit [DecidableEq Page] [DecidableEq Sema] in
/-- What a call of the scheduler changes in the other variables. -/
theorem afterCode_eq [DecidableEq Page] (move : KernelMove Page Sema) :
    ∃ threadTicks pcb, m.afterCode move =
      { m with threadTicks := threadTicks, pcb := pcb } ∧
        (move = .switchTail ∧ threadTicks = 0 ∨
          move ≠ .switchTail ∧ threadTicks = m.threadTicks) := by
  cases move with
  | switchTail => exact ⟨0, m.pcb, rfl, Or.inl ⟨rfl, rfl⟩⟩
  | create page => exact ⟨m.threadTicks, _, rfl, Or.inr ⟨nofun, rfl⟩⟩
  | _ => exact ⟨m.threadTicks, m.pcb, rfl, Or.inr ⟨nofun, rfl⟩⟩

end Views

/-! ## Steps of threads -/

section Steps

variable {m : InterruptMachine Page Sema} {target : InterruptState Page Sema}

/-- A step of the scheduler from a sound state does not panic. -/
theorem KernelSound.step {k : Kernel Page Sema} {move : KernelMove Page Sema}
    {reached : KernelState Page Sema} (sound : KernelSound k)
    (stepped : k.step move = some reached) :
    ∃ k', reached = .running k' ∧ KernelSound k' := by
  have before : StateSound (.running k) := sound
  have kept : StateSound reached := before.step stepped
  cases reached with
  | running k' => exact ⟨k', rfl, kept⟩
  | panicked => cases kept

/-- The scheduler follows every move. -/
theorem Effect.run {after : InterruptMachine Page Sema} (effect : Effect m after) :
    ∃ moves, (schedulerSystem Page Sema).run (.running m.interrupted) moves =
      some (.running after.interrupted) := by
  have stutter : after.interrupted = m.interrupted →
      ∃ moves, (schedulerSystem Page Sema).run (.running m.interrupted) moves =
        some (.running after.interrupted) := by
    intro same
    rw [same]
    exact ⟨[], rfl⟩
  cases effect with
  | call move stepped _ _ =>
      refine ⟨[move], ?_⟩
      rw [TransitionSystem.run_cons_eq_some]
      exact ⟨_, stepped, rfl⟩
  | unmoved same _ _ => exact stutter same
  | tick same _ _ _ _ => exact stutter same

/-- The invariant while no handler runs. -/
theorem interruptSound_of_thread {after : InterruptMachine Page Sema}
    (idle : after.frame = none) (thread : ThreadSound after) (kernel : KernelSound after.kernel)
    (ticks : after.ticks = after.idleTicks + after.kernelTicks + after.userTicks)
    (slice : after.threadTicks ≤ timeSlice)
    (spent : after.threadTicks = timeSlice → after.kernel.switching.isSome = true)
    (asleep : ∀ page sleep, after.sleeping page = some sleep → Asleep after.kernel page)
    (late : ∀ sleep tick, (sleep, tick) ∈ after.woken →
      (sleep.start : Int) + sleep.ticks ≤ tick) : InterruptSound after := by
  constructor
  · rw [interrupted_of_none idle]
    exact kernel
  · intro frame busy
    rw [idle] at busy
    cases busy
  · exact fun _ => thread
  · exact ticks
  · exact slice
  · exact fun full => Or.inl (spent full)
  · rw [interrupted_of_none idle]
    exact asleep
  · exact late

/-- The invariant while a handler runs. -/
theorem interruptSound_of_handler {after : InterruptMachine Page Sema}
    (frame : ExternalFrame) (busy : after.frame = some frame)
    (handler : HandlerSound after frame) (kernel : KernelSound (after.kernel.atLevel true))
    (ticks : after.ticks = after.idleTicks + after.kernelTicks + after.userTicks)
    (slice : after.threadTicks ≤ timeSlice)
    (spent : after.threadTicks = timeSlice → frame.tickDue = false ∧ after.yieldOnReturn = true)
    (asleep : ∀ page sleep, after.sleeping page = some sleep →
      Asleep (after.kernel.atLevel true) page)
    (late : ∀ sleep tick, (sleep, tick) ∈ after.woken →
      (sleep.start : Int) + sleep.ticks ≤ tick) : InterruptSound after := by
  constructor
  · rw [interrupted_of_some busy]
    exact kernel
  · intro other same
    rw [busy] at same
    cases same
    exact handler
  · intro idle
    rw [busy] at idle
    cases idle
  · exact ticks
  · exact slice
  · exact fun full => Or.inr ⟨frame, busy, spent full⟩
  · rw [interrupted_of_some busy]
    exact asleep
  · exact late

/-- A move of the scheduler while no handler runs. -/
theorem follows_of_thread {after : InterruptMachine Page Sema}
    (move : KernelMove Page Sema) (idle : m.frame = none)
    (idle' : after.frame = none) (sound : InterruptSound after)
    (stepped : m.kernel.step move = some (.running after.kernel)) (ticks : after.ticks = m.ticks)
    (slice : after.threadTicks = m.threadTicks ∨ move = .switchTail) :
    Follows m (.running after) := by
  refine ⟨after, rfl, sound, .call move ?_ ticks slice⟩
  rw [interrupted_of_none idle, interrupted_of_none idle']
  exact stepped

/-- Between two handlers the time slice is over only during a switch. -/
theorem InterruptSound.switching (sound : InterruptSound m)
    (idle : m.frame = none) (full : m.threadTicks = timeSlice) :
    m.kernel.switching.isSome = true := by
  rcases sound.spent full with switching | ⟨frame, busy, _⟩
  · exact switching
  · rw [idle] at busy
    cases busy

/-- A call of the scheduler by a thread. -/
theorem InterruptSound.code (sound : InterruptSound m) {move : KernelMove Page Sema}
    (stepped : m.step (.code move) = some target) : Follows m target := by
  rcases Option.ite_none_right_eq_some.mp stepped with ⟨guard, called⟩
  rcases Option.map_eq_some_iff.mp called with ⟨reached, kernelStep, same⟩
  rw [InterruptMachine.mayRun, Bool.and_eq_true, Bool.and_eq_true,
    Option.isNone_iff_eq_none] at guard
  rcases guard with ⟨⟨idle, ofThread⟩, unasleep⟩
  have kernel := sound.kernel
  rw [interrupted_of_none idle] at kernel
  rcases kernel.step kernelStep with ⟨k', rfl, kernel'⟩
  have thread := sound.thread idle
  rw [thread.context, Bool.false_and] at same
  rcases afterCode_eq (m := m) move with ⟨threadTicks, pcb, after, ticked⟩
  rw [after] at same
  have whileAsleep : ∀ page sleep, m.sleeping page = some sleep →
      page = m.kernel.stack → move.whileAsleep = true := by
    intro page sleep asleep current
    subst current
    rw [asleep] at unasleep
    cases move <;> first | rfl | cases unasleep
  rw [← same]
  refine follows_of_thread move idle idle ?_ kernelStep rfl (ticked.symm.imp (·.2) (·.1))
  refine interruptSound_of_thread idle
    ⟨thread.context, thread.pic, thread.record⟩ kernel' sound.ticks ?_ ?_ ?_
    sound.late
  · change threadTicks ≤ timeSlice
    rcases ticked with ⟨_, zero⟩ | ⟨_, kept⟩
    · rw [zero]
      exact Nat.zero_le _
    · rw [kept]
      exact sound.slice
  · change threadTicks = timeSlice → _
    intro full
    rcases ticked with ⟨_, zero⟩ | ⟨other, kept⟩
    · rw [zero] at full
      cases full
    · rw [kept] at full
      exact absurd (step_switching (sound.switching idle full) kernelStep) other
  · intro page sleep asleep
    have before := sound.asleep page sleep asleep
    rw [interrupted_of_none idle] at before
    exact before.step kernel kernelStep (whileAsleep page sleep asleep)

/-- What only kernel code does to the other variables. -/
theorem InterruptSound.unmoved (sound : InterruptSound m) (idle : m.frame = none)
    {after : InterruptMachine Page Sema} (idle' : after.frame = none)
    (kernel : after.kernel = m.kernel) (thread : ThreadSound after) (clock : after.ticks = m.ticks)
    (ticks : after.ticks = after.idleTicks + after.kernelTicks + after.userTicks)
    (slice : after.threadTicks = m.threadTicks)
    (asleep : ∀ page sleep, after.sleeping page = some sleep → Asleep m.kernel page)
    (late : ∀ sleep tick, (sleep, tick) ∈ after.woken → (sleep.start : Int) + sleep.ticks ≤ tick) :
    Follows m (.running after) := by
  have sameKernel : after.interrupted = m.interrupted := by
    rw [interrupted_of_none idle, interrupted_of_none idle', kernel]
  refine ⟨after, rfl, ?_, .unmoved sameKernel clock slice⟩
  refine interruptSound_of_thread idle' thread ?_ ticks ?_ ?_ ?_ late
  · rw [kernel, ← interrupted_of_none idle]
    exact sound.kernel
  · rw [slice]
    exact sound.slice
  · rw [slice, kernel]
    exact sound.switching idle
  · rw [kernel]
    exact asleep

/-- The threads in `timer_sleep`, while no handler runs. -/
theorem InterruptSound.asleepThread (sound : InterruptSound m)
    (idle : m.frame = none) {page : Page} {sleep : Sleep}
    (asleep : m.sleeping page = some sleep) : Asleep m.kernel page := by
  have before := sound.asleep page sleep asleep
  rw [interrupted_of_none idle] at before
  exact before

omit [DecidableEq Page] [DecidableEq Sema] in
/-- No handler interrupts the moves that only kernel code makes. -/
theorem mayRun_idle {move : KernelMove Page Sema} (guard : m.mayRun move = true) :
    m.frame = none := by
  rw [InterruptMachine.mayRun, Bool.and_eq_true, Bool.and_eq_true,
    Option.isNone_iff_eq_none] at guard
  exact guard.1.1

/-- The process of the running thread is created or ends. -/
theorem InterruptSound.setPcb (sound : InterruptSound m) {present : Bool}
    (stepped : m.step (.setPcb present) = some target) : Follows m target := by
  rcases Option.ite_none_right_eq_some.mp stepped with ⟨guard, same⟩
  cases same
  rw [Bool.and_eq_true] at guard
  have idle := mayRun_idle guard.1
  have thread := sound.thread idle
  exact sound.unmoved idle idle rfl ⟨thread.context, thread.pic, thread.record⟩
    rfl sound.ticks rfl (fun _ _ => sound.asleepThread idle) sound.late

/-- A thread calls `timer_sleep`. -/
theorem InterruptSound.sleep (sound : InterruptSound m) {ticks : Int}
    (stepped : m.step (.sleep ticks) = some target) : Follows m target := by
  rcases Option.ite_none_right_eq_some.mp stepped with ⟨guard, same⟩
  cases same
  rw [Bool.and_eq_true, Bool.and_eq_true] at guard
  have idle := mayRun_idle guard.1.1
  have thread := sound.thread idle
  have kernel := sound.kernel
  rw [interrupted_of_none idle] at kernel
  have own : m.kernel.inOwnCode = true := by
    have code := guard.1.2
    rw [Kernel.kernelCode, Bool.and_eq_true] at code
    exact code.1
  rcases (kernel.running own).kernelCode guard.1.2 with ⟨⟨t, code⟩, notIdle⟩
  refine sound.unmoved idle idle rfl
    ⟨thread.context, thread.pic, thread.record⟩ rfl sound.ticks rfl ?_
    sound.late
  intro page sleep asleep
  by_cases current : page = m.kernel.stack
  · subst current
    exact ⟨notIdle, Or.inr rfl, t, code.record, Or.inl code.own⟩
  · have before : m.sleeping page = some sleep :=
      (Function.update_of_ne current _ _).symm.trans asleep
    exact sound.asleepThread idle before

/-- The running thread yields, and no handler runs. -/
theorem InterruptSound.yields (sound : InterruptSound m) (idle : m.frame = none)
    {k' : Kernel Page Sema} (own : m.kernel.inOwnCode = true)
    (notIdle : m.kernel.stack ≠ m.kernel.idleThread) (yielded : m.kernel.threadYield = some k') :
    Follows m (.running { m with kernel := k' }) := by
  have kernel := sound.kernel
  rw [interrupted_of_none idle] at kernel
  have code : m.kernel.kernelCode = true := by
    rw [Kernel.kernelCode, own, Bool.true_and, decide_eq_true_eq]
    exact notIdle
  have stepped : m.kernel.step .yield = some (.running k') := by
    rw [Kernel.step, if_pos code, yielded]
    rfl
  rcases kernel.step stepped with ⟨_, same, kernel'⟩
  cases same
  have thread := sound.thread idle
  refine follows_of_thread .yield idle idle ?_ stepped rfl (Or.inl rfl)
  refine interruptSound_of_thread idle
    ⟨thread.context, thread.pic, thread.record⟩ kernel' sound.ticks sound.slice
    (fun _ => (left_of_threadYield yielded).switching) ?_ sound.late
  intro page sleep asleep
  have before := sound.asleep page sleep asleep
  rw [interrupted_of_none idle] at before
  exact before.step kernel stepped fun _ => rfl

/-- The test in the loop of `timer_sleep`. -/
theorem InterruptSound.sleepTest (sound : InterruptSound m)
    (stepped : m.step .sleepTest = some target) : Follows m target := by
  rcases Option.ite_none_right_eq_some.mp stepped with ⟨guard, tested⟩
  rcases Option.map_eq_some_iff.mp tested with ⟨sleep, asleep, same⟩
  rw [Bool.and_eq_true, Option.isNone_iff_eq_none] at guard
  rcases guard with ⟨idle, own⟩
  have thread := sound.thread idle
  have kernel := sound.kernel
  have before := sound.asleepThread idle asleep
  rw [interrupted_of_none idle] at kernel
  rw [InterruptMachine.timerSleepTest] at same
  by_cases early : m.timerElapsed sleep.start < sleep.ticks
  · have outside : ¬m.inExternalIntr = true := by
      rw [thread.context]
      exact Bool.false_ne_true
    rcases (kernel.running own).ownCode own with ⟨t, code⟩
    rcases (kernel.running own).threadYield code with ⟨k', prev, yielded, _⟩
    rw [if_pos early, if_neg outside, yielded] at same
    rw [← same]
    exact sound.yields idle own before.notIdle yielded
  · rw [if_neg early] at same
    rw [← same]
    refine sound.unmoved idle idle rfl
      ⟨thread.context, thread.pic, thread.record⟩ rfl sound.ticks rfl ?_ ?_
    · intro page other sleeps
      by_cases current : page = m.kernel.stack
      · rw [current]
        exact before
      · have unchanged : m.sleeping page = some other :=
          (Function.update_of_ne current _ _).symm.trans sleeps
        exact sound.asleepThread idle unchanged
    · intro other tick woken
      rcases List.mem_append.mp woken with past | now
      · exact sound.late other tick past
      · cases List.mem_singleton.mp now
        rw [InterruptMachine.timerElapsed] at early
        omega

end Steps

/-! ## Steps of handlers -/

section Handlers

variable {m : InterruptMachine Page Sema} {target : InterruptState Page Sema}
variable {frame : ExternalFrame}

/-- An interrupt that comes while no line is in service is ended by one end of
interrupt. -/
theorem accepted_ends {irq : Nat} (low : 0x20 ≤ irq) (high : irq < 0x30) (spurious : Bool) :
    (Pic.accept { master := [], slave := [] } irq spurious).endOfInterrupt irq =
      some { master := [], slave := [] } := by
  rw [Pic.endOfInterrupt, if_pos ⟨low, high⟩, Pic.accept]
  by_cases first : irq < 0x28
  · rw [if_pos first, if_neg (Nat.not_le.mpr first)]
    cases spurious
    · simp [Pic.ended]
    · rfl
  · rw [if_neg first, if_pos (Nat.not_lt.mp first)]
    cases spurious
    · simp [Pic.ended]
    · rfl

/-- The processor takes an interrupt. -/
theorem InterruptSound.interrupt (sound : InterruptSound m) {irq : Nat} {spurious : Bool}
    (stepped : m.step (.interrupt irq spurious) = some target) :
    Follows m target := by
  rcases Option.ite_none_right_eq_some.mp stepped with ⟨guard, same⟩
  cases same
  rw [Bool.and_eq_true, Bool.and_eq_true, Bool.and_eq_true, Option.isNone_iff_eq_none] at guard
  rcases guard with ⟨⟨⟨idle, own⟩, level⟩, line⟩
  rw [Bool.and_eq_true, Bool.and_eq_true, Bool.and_eq_true, decide_eq_true_eq,
    decide_eq_true_eq] at line
  rcases line with ⟨⟨⟨low, high⟩, _⟩, _⟩
  have thread := sound.thread idle
  have kernel := sound.kernel
  rw [interrupted_of_none idle] at kernel
  have entered : (m.throughGate irq spurious).intrHandlerEntry =
      some { m.throughGate irq spurious with
        inExternalIntr := true, yieldOnReturn := false } := by
    apply if_pos
    change (!false && !m.inExternalIntr) = true
    rw [thread.context]
    rfl
  have restored : (m.throughGate irq spurious).kernel.atLevel true = m.kernel := atLevel_eq level
  have notFull : m.threadTicks ≠ timeSlice := by
    intro full
    have switching := sound.switching idle full
    rw [Kernel.inOwnCode, Bool.and_eq_true, Option.isNone_iff_eq_none] at own
    rw [own.1] at switching
    cases switching
  rw [entered]
  refine ⟨_, rfl, ?_, .unmoved ?_ rfl rfl⟩
  · refine interruptSound_of_handler
      { vecNo := irq, tickDue := irq = 0x20 } rfl ?_ ?_ sound.ticks
      sound.slice ?_ ?_ sound.late
    · constructor
      · rfl
      · exact own
      · rfl
      · exact of_decide_eq_true
      · change (m.pic.accept irq spurious).endOfInterrupt irq = _
        rw [thread.pic]
        exact accepted_ends low high spurious
      · change m.taken ++ [irq] = m.acknowledged ++ [irq]
        rw [thread.record]
    · change KernelSound ((m.throughGate irq spurious).kernel.atLevel true)
      rw [restored]
      exact kernel
    · exact fun full => absurd full notFull
    · intro page sleep asleep
      change Asleep ((m.throughGate irq spurious).kernel.atLevel true) page
      rw [restored]
      exact sound.asleepThread idle asleep
  · rw [interrupted_of_none idle]
    exact restored

omit [DecidableEq Sema] in
/-- The statistics change one counter. -/
theorem countTick_eq (m : InterruptMachine Page Sema) :
    ∃ idle kernel user, m.countTick =
      { m with idleTicks := idle, kernelTicks := kernel, userTicks := user } ∧
        idle + kernel + user = m.idleTicks + m.kernelTicks + m.userTicks + 1 := by
  rw [InterruptMachine.countTick]
  split
  · exact ⟨_, _, _, rfl, by omega⟩
  · split
    · exact ⟨_, _, _, rfl, by omega⟩
    · exact ⟨_, _, _, rfl, by omega⟩

/-- The kernel in which a handler runs. -/
theorem InterruptSound.underHandler (sound : InterruptSound m) (busy : m.frame = some frame) :
    RunningSound (m.kernel.atLevel true) := by
  have kernel := sound.kernel
  rw [interrupted_of_some busy] at kernel
  exact kernel.running (sound.handler frame busy).own

/-- The threads in `timer_sleep`, while a handler runs. -/
theorem InterruptSound.asleepHandler (sound : InterruptSound m)
    (busy : m.frame = some frame) {page : Page} {sleep : Sleep}
    (asleep : m.sleeping page = some sleep) :
    Asleep (m.kernel.atLevel true) page := by
  have before := sound.asleep page sleep asleep
  rw [interrupted_of_some busy] at before
  exact before

/-- Before `timer_interrupt` the time slice is not over. -/
theorem InterruptSound.tick_room (sound : InterruptSound m)
    (busy : m.frame = some frame) (due : frame.tickDue = true) :
    m.threadTicks < timeSlice := by
  apply Nat.lt_of_le_of_ne sound.slice
  intro full
  have own := (sound.handler frame busy).own
  rcases sound.spent full with switching | ⟨other, same, late, _⟩
  · rw [Kernel.inOwnCode, Bool.and_eq_true, Option.isNone_iff_eq_none] at own
    rw [own.1] at switching
    cases switching
  · rw [busy] at same
    cases same
    rw [due] at late
    cases late

/-- `timer_interrupt` does not fail. -/
theorem InterruptSound.timer_eq (sound : InterruptSound m) (busy : m.frame = some frame) :
    ∃ idle kernel user,
      InterruptMachine.timerInterrupt
          { m with frame := some { frame with tickDue := false } } =
        some
          { m with
            frame := some { frame with tickDue := false }
            ticks := m.ticks + 1
            threadTicks := m.threadTicks + 1
            idleTicks := idle
            kernelTicks := kernel
            userTicks := user
            yieldOnReturn := decide (timeSlice ≤ m.threadTicks + 1) || m.yieldOnReturn } ∧
        idle + kernel + user = m.idleTicks + m.kernelTicks + m.userTicks + 1 := by
  have handler := sound.handler frame busy
  rcases (sound.underHandler busy).ownCode handler.own with ⟨t, code⟩
  have current : m.kernel.threadCurrent = some t := threadCurrent_eq code.record code.running
  rcases countTick_eq
      { m with
        frame := some { frame with tickDue := false }
        ticks := m.ticks + 1 } with ⟨idle, kernel, user, counted, sum⟩
  refine ⟨idle, kernel, user, ?_, sum⟩
  rw [InterruptMachine.timerInterrupt, InterruptMachine.threadTick]
  change m.kernel.threadCurrent.bind _ = _
  rw [current, Option.bind_some, counted]
  change (if timeSlice ≤ m.threadTicks + 1 then
    InterruptMachine.intrYieldOnReturn _ else some _) = _
  by_cases full : timeSlice ≤ m.threadTicks + 1
  · rw [if_pos full, decide_eq_true full, Bool.true_or]
    exact if_pos handler.context
  · rw [if_neg full, decide_eq_false full, Bool.false_or]

/-- `timer_interrupt`. -/
theorem InterruptSound.timerInterrupt (sound : InterruptSound m)
    (stepped : m.step .timerInterrupt = some target) : Follows m target := by
  rcases Option.bind_eq_some_iff.mp stepped with ⟨frame, busy, called⟩
  rcases Option.ite_none_right_eq_some.mp called with ⟨due, same⟩
  cases same
  have handler := sound.handler frame busy
  have room := sound.tick_room busy due
  have kernel := sound.kernel
  rw [interrupted_of_some busy] at kernel
  rcases sound.timer_eq busy with ⟨idle, kernelTicks, user, ticked, sum⟩
  rw [ticked]
  refine ⟨_, rfl, ?_, .tick ?_ ?_ room rfl rfl⟩
  · refine interruptSound_of_handler _ rfl ?_ kernel ?_ room ?_
      (fun _ _ => sound.asleepHandler busy) sound.late
    · exact ⟨handler.off, handler.own, handler.context, nofun, handler.ending, handler.record⟩
    · change m.ticks + 1 = idle + kernelTicks + user
      rw [sum, sound.ticks]
    · intro full
      refine ⟨rfl, ?_⟩
      rw [Bool.or_eq_true, decide_eq_true_eq]
      exact Or.inl (Nat.le_of_eq full.symm)
  · rw [interrupted_of_some busy]
    rfl
  · rw [interrupted_of_some busy]
    exact (sound.underHandler busy).still

/-- A handler of another device makes a call of the scheduler. -/
theorem InterruptSound.deviceCall (sound : InterruptSound m)
    (busy : m.frame = some frame) (move : KernelMove Page Sema)
    {k' : Kernel Page Sema} (whileAsleep : move.whileAsleep = true)
    (own : k'.inOwnCode = m.kernel.inOwnCode) (off : k'.interrupts = false)
    (stepped : (m.kernel.atLevel true).step move = some (.running (k'.atLevel true))) :
    Follows m (.running { m with kernel := k' }) := by
  have handler := sound.handler frame busy
  have kernel := sound.kernel
  rw [interrupted_of_some busy] at kernel
  rcases kernel.step stepped with ⟨_, same, kernel'⟩
  cases same
  refine ⟨_, rfl, ?_, .call move ?_ rfl (Or.inl rfl)⟩
  · refine interruptSound_of_handler frame busy ?_ kernel' sound.ticks sound.slice ?_ ?_ sound.late
    · refine ⟨off, ?_, handler.context, handler.timer, handler.ending, handler.record⟩
      rw [own]
      exact handler.own
    · intro full
      rcases sound.spent full with switching | ⟨other, same, spent⟩
      · have own := handler.own
        rw [Kernel.inOwnCode, Bool.and_eq_true, Option.isNone_iff_eq_none] at own
        rw [own.1] at switching
        cases switching
      · rw [busy] at same
        cases same
        exact spent
    · intro page sleep asleep
      exact (sound.asleepHandler busy asleep).step kernel stepped fun _ => whileAsleep
  · have seen : InterruptMachine.interrupted { m with kernel := k' } = k'.atLevel true :=
      interrupted_of_some busy
    rw [interrupted_of_some busy, seen]
    exact stepped

omit [DecidableEq Page] [DecidableEq Sema] in
/-- The handler of a device has a frame. -/
theorem inDeviceHandler_frame (device : m.inDeviceHandler = true) :
    ∃ frame, m.frame = some frame := by
  rw [InterruptMachine.inDeviceHandler] at device
  cases busy : m.frame with
  | none =>
      rw [busy] at device
      cases device
  | some frame => exact ⟨frame, rfl⟩

omit [DecidableEq Page] [DecidableEq Sema] in
/-- A call that does not look at the level leaves it off. -/
theorem call_level {k after : Kernel Page Sema}
    (call : Kernel Page Sema → Option (Kernel Page Sema))
    (commutes : ∀ level, call (k.atLevel level) = (call k).map (·.atLevel level))
    (off : k.interrupts = false) (called : call (k.atLevel true) = some after) :
    ∃ k', call k = some k' ∧ k'.interrupts = false ∧ after = k'.atLevel true := by
  rw [commutes true] at called
  rcases Option.map_eq_some_iff.mp called with ⟨k', result, same⟩
  refine ⟨k', result, ?_, same.symm⟩
  have again := commutes false
  rw [atLevel_eq off, result] at again
  rw [Option.some.inj again]
  rfl

/-- `thread_unblock` in a handler. -/
theorem InterruptSound.unblock (sound : InterruptSound m) {page : Page}
    (stepped : m.step (.unblock page) = some target) : Follows m target := by
  rcases Option.ite_none_right_eq_some.mp stepped with ⟨guard, same⟩
  cases same
  rw [Bool.and_eq_true] at guard
  rcases inDeviceHandler_frame guard.1 with ⟨frame, busy⟩
  have handler := sound.handler frame busy
  have running := sound.underHandler busy
  rcases running.unblockMove guard.2 with ⟨after, called, _⟩
  rcases call_level (fun k => k.threadUnblock page)
    (fun level => threadUnblock_atLevel level) handler.off called with
    ⟨k', result, off, rfl⟩
  have allowed : ((m.kernel.atLevel true).mayCall true &&
      (m.kernel.atLevel true).directlyBlocked page) = true := by
    rw [Bool.and_eq_true, Kernel.mayCall]
    exact ⟨Bool.and_eq_true_iff.mpr ⟨handler.own, rfl⟩, guard.2⟩
  have kernelStep : (m.kernel.atLevel true).step (.unblock page true) =
      some (.running (k'.atLevel true)) := by
    rw [Kernel.step, if_pos allowed, called]
    rfl
  rw [result]
  exact sound.deviceCall busy (.unblock page true) rfl (threadUnblock_own result) off kernelStep

/-- `sema_up` in a handler. -/
theorem InterruptSound.up (sound : InterruptSound m) {id : Sema}
    (stepped : m.step (.up id) = some target) : Follows m target := by
  rcases Option.ite_none_right_eq_some.mp stepped with ⟨guard, same⟩
  cases same
  rcases inDeviceHandler_frame guard with ⟨frame, busy⟩
  have handler := sound.handler frame busy
  have running := sound.underHandler busy
  rcases running.semaUp id with ⟨after, called, _⟩
  rcases call_level (fun k => k.semaUp id)
    (fun level => semaUp_atLevel id level) handler.off called with
    ⟨k', result, off, rfl⟩
  have allowed : (m.kernel.atLevel true).mayCall true = true := by
    rw [Kernel.mayCall]
    exact Bool.and_eq_true_iff.mpr ⟨handler.own, rfl⟩
  have kernelStep : (m.kernel.atLevel true).step (.up id true) =
      some (.running (k'.atLevel true)) := by
    rw [Kernel.step, if_pos allowed, called]
    rfl
  rw [result]
  exact sound.deviceCall busy (.up id true) rfl (semaUp_own result) off kernelStep

/-- `sema_try_down` in a handler. -/
theorem InterruptSound.tryDown (sound : InterruptSound m) {id : Sema}
    (stepped : m.step (.tryDown id) = some target) : Follows m target := by
  rcases Option.ite_none_right_eq_some.mp stepped with ⟨guard, same⟩
  cases same
  rcases inDeviceHandler_frame guard with ⟨frame, busy⟩
  have handler := sound.handler frame busy
  have allowed : (m.kernel.atLevel true).mayCall true = true := by
    rw [Kernel.mayCall]
    exact Bool.and_eq_true_iff.mpr ⟨handler.own, rfl⟩
  have kernelStep : (m.kernel.atLevel true).step (.tryDown id true) =
      some (.running ((m.kernel.semaTryDown id).atLevel true)) := by
    rw [Kernel.step, if_pos allowed, semaTryDown_atLevel]
  have kept : (m.kernel.semaTryDown id).inOwnCode = m.kernel.inOwnCode ∧
      (m.kernel.semaTryDown id).interrupts = m.kernel.interrupts := by
    rw [Kernel.semaTryDown]
    split <;> exact ⟨rfl, rfl⟩
  exact sound.deviceCall busy (.tryDown id true) rfl kept.1 (kept.2.trans handler.off) kernelStep

/-- The end of a handler. -/
theorem InterruptSound.intrReturn (sound : InterruptSound m)
    (stepped : m.step .intrReturn = some target) : Follows m target := by
  rcases Option.bind_eq_some_iff.mp stepped with ⟨frame, busy, returned⟩
  rcases Option.ite_none_left_eq_some.mp returned with ⟨done, same⟩
  cases same
  have handler := sound.handler frame busy
  have running := sound.underHandler busy
  have asserted : (!m.kernel.interrupts && m.inExternalIntr) = true := by
    rw [handler.off, handler.context]
    rfl
  rw [InterruptMachine.intrHandlerExit, if_pos asserted, handler.ending, Option.bind_some]
  have thread : ∀ kernel : Kernel Page Sema, ThreadSound
      { m with
        kernel := kernel
        pic := { master := [], slave := [] }
        frame := none
        inExternalIntr := false
        acknowledged := m.acknowledged ++ [frame.vecNo] } :=
    fun _ => ⟨rfl, rfl, handler.record⟩
  by_cases yields : m.yieldOnReturn = true
  · rcases running.ownCode handler.own with ⟨t, code⟩
    rcases running.threadYield code with ⟨k', prev, yielded, switched⟩
    have kernelStep : (m.kernel.atLevel true).step .timer = some (.running k') := by
      have allowed : ((m.kernel.atLevel true).inOwnCode &&
          (m.kernel.atLevel true).interrupts) = true :=
        Bool.and_eq_true_iff.mpr ⟨handler.own, rfl⟩
      rw [Kernel.step, if_pos allowed, yielded]
      rfl
    dsimp only
    rw [if_pos yields]
    change Follows m (InterruptMachine.result (((m.kernel.atLevel true).threadYield).map _))
    rw [yielded]
    refine ⟨_, rfl, ?_, .call .timer ?_ rfl (Or.inl rfl)⟩
    · refine interruptSound_of_thread rfl (thread k') (Or.inr ⟨prev, switched⟩)
        sound.ticks sound.slice
        (fun _ => (left_of_threadYield yielded).switching) ?_ sound.late
      intro page sleep asleep
      exact (sound.asleepHandler busy asleep).step (Or.inl running) kernelStep fun _ => rfl
    · rw [interrupted_of_some busy]
      exact kernelStep
  · dsimp only
    rw [if_neg yields]
    refine ⟨_, rfl, ?_, .unmoved ?_ rfl rfl⟩
    · refine interruptSound_of_thread rfl (thread (m.kernel.atLevel true))
        (Or.inl running) sound.ticks sound.slice ?_
        (fun _ _ => sound.asleepHandler busy) sound.late
      intro full
      rcases sound.spent full with switching | ⟨other, same, _, yield⟩
      · exact switching
      · exact absurd yield yields
    · rw [interrupted_of_some busy]
      rfl

end Handlers

/-! ## Every run -/

section Runs

variable {m : InterruptMachine Page Sema} {state target : InterruptState Page Sema}
variable {move : InterruptMove Page Sema}

/-- Every move keeps the invariant and is followed by the scheduler. -/
theorem InterruptSound.step (sound : InterruptSound m)
    (stepped : m.step move = some target) : Follows m target := by
  cases move with
  | code move => exact sound.code stepped
  | setPcb present => exact sound.setPcb stepped
  | sleep ticks => exact sound.sleep stepped
  | sleepTest => exact sound.sleepTest stepped
  | interrupt irq spurious => exact sound.interrupt stepped
  | timerInterrupt => exact sound.timerInterrupt stepped
  | unblock page => exact sound.unblock stepped
  | tryDown id => exact sound.tryDown stepped
  | up id => exact sound.up stepped
  | intrReturn => exact sound.intrReturn stepped

theorem start_interruptSound {kernel : Kernel Page Sema} {start : StartTicks}
    (initial : (schedulerSystem Page Sema).initial (.running kernel))
    (slice : start.threadTicks < timeSlice) :
    InterruptSound (startMachine kernel start) := by
  have sound : StateSound (.running kernel) :=
    state_sound (TransitionSystem.Reachable.initial initial)
  refine interruptSound_of_thread rfl ⟨rfl, rfl, rfl⟩ sound rfl (Nat.le_of_lt slice) ?_ nofun nofun
  intro full
  exact absurd full (Nat.ne_of_lt slice)

theorem interrupt_sound
    (reachable : (interruptSystem Page Sema).Reachable state) :
    ∃ m, state = .running m ∧ InterruptSound m := by
  induction reachable with
  | initial start =>
      rcases start with ⟨kernel, start, initial, slice, rfl⟩
      exact ⟨_, rfl, start_interruptSound initial slice⟩
  | step _ stepped inductionHypothesis =>
      rcases inductionHypothesis with ⟨m, rfl, sound⟩
      rcases sound.step stepped with ⟨after, rfl, sound', _⟩
      exact ⟨after, rfl, sound'⟩

/-- The level with handlers as runs of their own refines the level at which they
are single steps. -/
def interruptSimulation :
    TransitionSystem.Simulation (interruptSystem Page Sema)
      (schedulerSystem Page Sema) where
  image := InterruptState.scheduler
  initial := by
    rintro state ⟨kernel, start, initial, _, rfl⟩
    exact initial
  step := by
    intro state move target reachable _ stepped
    rcases interrupt_sound reachable with ⟨m, rfl, sound⟩
    rcases sound.step stepped with ⟨after, rfl, _, effect⟩
    exact effect.run

/-- What holds of the handling of external interrupts. -/
structure HandlersSound (m : InterruptMachine Page Sema) : Prop where
  context : m.inExternalIntr = m.frame.isSome
  atomic : m.frame.isSome = true → m.kernel.interrupts = false ∧ m.kernel.inOwnCode = true
  acknowledged : m.taken = m.acknowledged ++ (m.frame.map (·.vecNo)).toList
  served : m.frame = none → m.pic = { master := [], slave := [] }
  deliverable : m.frame = none → m.kernel.inOwnCode = true →
    m.kernel.interrupts = true → ∀ irq, 0x20 ≤ irq → irq < 0x30 →
      ∃ after, m.step (.interrupt irq false) = some (.running after)
  refines : (schedulerSystem Page Sema).Reachable (.running m.interrupted)

/-- While no line is in service every line gets through. -/
theorem InterruptSound.deliverable (sound : InterruptSound m)
    (idle : m.frame = none) (own : m.kernel.inOwnCode = true)
    (level : m.kernel.interrupts = true) {irq : Nat} (low : 0x20 ≤ irq) (high : irq < 0x30) :
    ∃ after, m.step (.interrupt irq false) = some (.running after) := by
  have clear : m.pic.accepts irq = true := by
    rw [(sound.thread idle).pic, Pic.accepts]
    split <;> rfl
  have guard : (m.frame.isNone && m.kernel.inOwnCode && m.kernel.interrupts &&
      (0x20 ≤ irq && irq < 0x30 && m.pic.accepts irq &&
        (!false || irq = 0x27 || irq = 0x2f))) = true := by
    rw [idle, own, level, clear, decide_eq_true low, decide_eq_true high]
    rfl
  have taken : m.step (.interrupt irq false) =
      some (InterruptMachine.result
        (m.throughGate irq false).intrHandlerEntry) :=
    if_pos guard
  rcases sound.interrupt taken with ⟨after, same, _⟩
  exact ⟨after, by rw [taken, same]⟩

/-- Interrupt handlers in every run; and no assertion fails. -/
theorem interrupt_handlers_sound
    (reachable : (interruptSystem Page Sema).Reachable state) :
    ∃ m, state = .running m ∧ HandlersSound m := by
  rcases interrupt_sound reachable with ⟨m, rfl, sound⟩
  refine ⟨m, rfl, ?_⟩
  have refines := interruptSimulation.reachable reachable
  cases busy : m.frame with
  | none =>
      have thread := sound.thread busy
      refine ⟨?_, ?_, ?_, fun _ => thread.pic, ?_, refines⟩
      · rw [thread.context, busy]
        rfl
      · intro frame
        rw [busy] at frame
        cases frame
      · rw [thread.record, busy]
        exact (List.append_nil _).symm
      · intro idle own level irq low high
        exact sound.deliverable idle own level low high
  | some frame =>
      have handler := sound.handler frame busy
      refine ⟨?_, fun _ => ⟨handler.off, handler.own⟩, ?_, ?_, ?_, refines⟩
      · rw [handler.context, busy]
        rfl
      · rw [handler.record, busy]
        rfl
      · intro idle
        rw [busy] at idle
        cases idle
      · intro idle
        rw [busy] at idle
        cases idle

/-- A run with the first thread 0 and the idle thread 1. -/
theorem interrupted_of_run (moves : List (InterruptMove ℕ Unit))
    (test : InterruptMachine ℕ Unit → Bool)
    (passed : ((interruptSystem ℕ Unit).run
      (.running (startMachine (startKernel 0 1 true fun _ => 0) ⟨0, 0, 0, 0⟩))
      moves).any (fun state =>
        match state with
        | .running m => test m
        | .panicked => false) = true) :
    ∃ m, (interruptSystem ℕ Unit).Reachable (.running m) ∧ test m = true := by
  rcases (Option.any_eq_true _ _).mp passed with ⟨state, execution, tested⟩
  have start : (interruptSystem ℕ Unit).Reachable
      (.running
        (startMachine (startKernel 0 1 true fun _ => 0) ⟨0, 0, 0, 0⟩)) := by
    apply TransitionSystem.Reachable.initial
    exact ⟨_, ⟨0, 0, 0, 0⟩, ⟨0, 1, true, _, by decide, fun _ => by decide, rfl⟩,
      by decide, rfl⟩
  cases state with
  | running m => exact ⟨m, start.of_run execution, tested⟩
  | panicked => cases tested

/-- A device of the slave wakes a thread, and its handler has not returned. -/
theorem interrupt_handlers_sound_slave :
    ∃ m : InterruptMachine ℕ Unit, m.frame.isSome = true ∧
      m.pic = { master := [2], slave := [6] } ∧ HandlersSound m := by
  rcases interrupted_of_run [.interrupt 0x20 false, .timerInterrupt, .intrReturn,
      .interrupt 0x2e false, .up ()]
      (fun m => m.frame.isSome && m.pic = { master := [2], slave := [6] })
      (by decide +kernel) with ⟨m, reachable, passed⟩
  rcases interrupt_handlers_sound reachable with ⟨same, equal, sound⟩
  cases equal
  rw [Bool.and_eq_true, decide_eq_true_eq] at passed
  exact ⟨m, passed.1, passed.2, sound⟩

end Runs

end CS162.Threads

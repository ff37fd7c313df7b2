import CS162.Threads.RwLockSafety

/-!
# The readers-writers lock strands nobody

`rw_lock_release` decides whom to wake from counters that also include
waiters already signalled.  Two invariants show that this loses nobody: while
the lock is free and a writer is counted as waiting, some writer has been
signalled or the thread inside the guard lock is about to see to it; and while
a reader is parked, a writer is counted, or the thread inside is a writer that
is about to be counted or about to wake the readers.
-/

namespace CS162.Threads

open CS162.Foundation

/-- The thread inside will signal a writer, or it is a writer that the free
lock lets through. -/
def seesToWriters : Place RwCondition RwPoint → Bool
  | .inside point =>
      match point.pc with
      | .acquireWaited false => true
      | .acquireTest false => true
      | .acquireInc false => true
      | .releaseWake _ => true
      | _ => false
  | .signalling _ _ => true
  | _ => false

/-- The thread inside is a writer that will be counted or will wake the
readers. -/
def seesToReaders : Place RwCondition RwPoint → Bool
  | .inside point =>
      match point.pc with
      | .acquireTest false => true
      | .acquireWaiting false => true
      | .acquireInc false => true
      | .releaseWake false => true
      | _ => false
  | .broadcasting _ _ => true
  | _ => false

theorem inGuard_of_seesToWriters {place : Place RwCondition RwPoint}
    (sees : seesToWriters place = true) : place.inGuard = true := by
  cases place <;> simp_all [seesToWriters, Place.inGuard]

theorem inGuard_of_seesToReaders {place : Place RwCondition RwPoint}
    (sees : seesToReaders place = true) : place.inGuard = true := by
  cases place <;> simp_all [seesToReaders, Place.inGuard]

section Steps

variable {Thread : Type} [DecidableEq Thread] [Fintype Thread]
variable {state target : RwMesa Thread} {current : Thread}

/-- The lists hold threads that wait on them, each once. -/
structure RwListed (state : RwMesa Thread) : Prop where
  waits :
    ∀ condition thread, thread ∈ state.waiters condition →
      (state.place thread).waitsOn condition = true
  nodup : ∀ condition, (state.waiters condition).Nodup

omit [DecidableEq Thread] [Fintype Thread] in
theorem RwListed.unlisted (listed : RwListed state) {place : Place RwCondition RwPoint}
    (here : state.place current = place) (elsewhere : ∀ condition, place.waitsOn condition = false)
    (condition : RwCondition) : current ∉ state.waiters condition := by
  intro member
  have waits := listed.waits condition current member
  rw [here, elsewhere] at waits
  cases waits

omit [DecidableEq Thread] [Fintype Thread] in
theorem RwListed.setShared (listed : RwListed state) (lock : RwLock) :
    RwListed (state.setShared lock) :=
  ⟨listed.waits, listed.nodup⟩

omit [Fintype Thread] in
/-- A thread that is on no list may go anywhere. -/
theorem RwListed.move (listed : RwListed state) {place : Place RwCondition RwPoint}
    (unlisted : ∀ condition, current ∉ state.waiters condition) :
    RwListed (state.move current place) := by
  refine ⟨?_, listed.nodup⟩
  intro condition thread member
  have different : thread ≠ current := by
    rintro rfl
    exact unlisted condition member
  simpa [different] using listed.waits condition thread member

omit [DecidableEq Thread] [Fintype Thread] in
theorem RwListed.pop (listed : RwListed state) (condition : RwCondition) :
    RwListed
      (state.setWaiters condition (state.waiters condition).tail) := by
  constructor
  · intro other thread member
    by_cases same : other = condition
    · subst same
      simp only [Mesa.setWaiters_waiters, Function.update_self] at member
      exact listed.waits other thread (List.mem_of_mem_tail member)
    · simp only [Mesa.setWaiters_waiters, Function.update_of_ne same] at member
      exact listed.waits other thread member
  · intro other
    by_cases same : other = condition
    · subst same
      simpa using (listed.nodup other).tail
    · simpa [same] using listed.nodup other

omit [Fintype Thread] in
theorem RwListed.push (listed : RwListed state) {condition : RwCondition} {next : RwPoint}
    (unlisted : ∀ condition, current ∉ state.waiters condition) :
    RwListed
      ((state.setWaiters condition
        (state.waiters condition ++ [current])).move current
          (.waiting condition next)) := by
  constructor
  · intro other thread member
    by_cases mover : thread = current
    · subst mover
      by_cases same : other = condition
      · subst same
        simp [Place.waitsOn]
      · simp only [Mesa.move_waiters, Mesa.setWaiters_waiters, Function.update_of_ne same] at member
        exact absurd member (unlisted other)
    · have before : thread ∈ state.waiters other := by
        by_cases same : other = condition
        · subst same
          simpa [mover] using member
        · simpa [same] using member
      simpa [mover] using listed.waits other thread before
  · intro other
    by_cases same : other = condition
    · subst same
      simpa using List.Nodup.concat (unlisted other) (listed.nodup other)
    · simpa [same] using listed.nodup other

omit [Fintype Thread] in
theorem RwStep.listed (listed : RwListed state)
    (moved : RwStep state current target) : RwListed target := by
  cases moved with
  | callNothing => exact listed
  | join here => exact listed.push (listed.unlisted here fun _ => rfl)
  | @wake holds reader here released =>
      refine listed.move fun condition member => ?_
      have waits := listed.waits condition current member
      rw [here] at waits
      obtain rfl : rwCondition reader = condition := by
        simpa [Place.waitsOn] using waits
      exact released member
  | signal here =>
      exact (listed.pop .write).move ((listed.pop .write).unlisted here fun _ => rfl)
  | broadcastPop => exact listed.pop .read
  | incWaiting here | decWaiting here | incActive here | decActive here =>
      exact (listed.setShared _).move (listed.unlisted here fun _ => rfl)
  | callAcquire _ here | callRelease here | enter here | testWait here
  | testPass here | condWait here | acquireReturn here | wakeWriter here
  | wakeReaders here | wakeNobody here | broadcastDone here
  | releaseReturn here =>
      exact listed.move (listed.unlisted here fun _ => rfl)

theorem rwListed_of_reachable
    (reachable : (rwMesaSystem Thread).Reachable state) :
    RwListed state := by
  refine reachable.invariant RwListed ?_ ?_
  · rintro state ⟨rfl, -⟩
    constructor <;> simp
  · intro state turn target reached listed moved
    obtain ⟨current, moved⟩ := RwStep.of_reachable reached moved
    exact moved.listed listed

/-- The writer has been signalled and has not come back yet. -/
def WriterSignalled (state : RwMesa Thread) (thread : Thread) : Prop :=
  (state.place thread).waitsOn .write = true ∧ thread ∉ state.waiters .write

/-- The thread keeps the waiting writers from being forgotten. -/
def CoversWriters (state : RwMesa Thread) (thread : Thread) : Prop :=
  WriterSignalled state thread ∨ seesToWriters (state.place thread) = true

/-- While the lock is free no waiting writer is forgotten. -/
def WritersCovered (state : RwMesa Thread) : Prop :=
  state.shared.AR = 0 → state.shared.AW = 0 → 0 < state.shared.WW →
    ∃ thread, CoversWriters state thread

/-- While no writer is counted no parked reader is forgotten. -/
def ReadersCovered (state : RwMesa Thread) : Prop :=
  state.waiters .read ≠ [] →
    0 < state.shared.AW + state.shared.WW ∨ ∃ thread, seesToReaders (state.place thread) = true

omit [DecidableEq Thread] [Fintype Thread] in
/-- A thread that does not move keeps covering the writers. -/
theorem CoversWriters.keep (current : Thread) (covers : ∃ thread, CoversWriters state thread)
    (idle : ¬ CoversWriters state current)
    (lists :
      ∀ thread, thread ≠ current → thread ∉ state.waiters .write → thread ∉ target.waiters .write)
    (others : ∀ thread, thread ≠ current → target.place thread = state.place thread) :
    ∃ thread, CoversWriters target thread := by
  obtain ⟨thread, covering⟩ := covers
  have different : thread ≠ current := by
    rintro rfl
    exact idle covering
  refine ⟨thread, ?_⟩
  unfold CoversWriters WriterSignalled at *
  rw [others thread different]
  rcases covering with ⟨waits, released⟩ | sees
  · exact .inl ⟨waits, lists thread different released⟩
  · exact .inr sees

omit [DecidableEq Thread] in
/-- A signal on `write` leaves a signalled writer behind: the first one on the
list, or one that is counted although the list is empty. -/
theorem exists_signalled
    (shape : ∀ thread, RwPlace (state.place thread))
    (alone : state.Alone) (listed : RwListed state) (counted : RwCounted state)
    {reader : Bool} {holds : Holds}
    (here : state.place current = .signalling .write ⟨.releaseUnlock reader, holds⟩)
    (waiting : 0 < state.shared.WW) :
    ∃ thread, thread ≠ current ∧
      (state.place thread).waitsOn .write = true ∧
      thread ∉ (state.waiters .write).tail := by
  have elsewhere :
      ∀ {thread}, (state.place thread).waitsOn .write = true →
        thread ≠ current := by
    rintro thread waits rfl
    rw [here] at waits
    cases waits
  cases queue : state.waiters .write with
  | cons first rest =>
      have waits := listed.waits .write first (by simp [queue])
      have nodup := listed.nodup .write
      rw [queue, List.nodup_cons] at nodup
      exact ⟨first, elsewhere waits, waits, nodup.1⟩
  | nil =>
      have sum : state.shared.WW = _ := counted.waiting false
      obtain ⟨thread, share⟩ : ∃ thread, waitingShare false (state.place thread) ≠ 0 := by
        by_contra none
        rw [total_eq_zero_iff.mpr (by simpa using none)] at sum
        omega
      have out : (state.place thread).inGuard = false := by
        by_contra inside
        rw [Bool.not_eq_false] at inside
        obtain rfl := alone thread current inside (by rw [here]; rfl)
        simp [here, waitingShare, continuation] at share
      rw [waitingShare_of_vacant (shape thread) out] at share
      have waits : (state.place thread).waitsOn .write = true := by
        simpa [rwCondition] using share
      exact ⟨thread, elsewhere waits, waits, by simp⟩

theorem RwStep.writersCovered
    (shape : ∀ thread, RwPlace (state.place thread)) (alone : state.Alone) (listed : RwListed state)
    (counted : RwCounted state) (exclusive : RwExclusive state) (covered : WritersCovered state)
    (moved : RwStep state current target) : WritersCovered target := by
  have nonneg := counted.nonneg
  have others :
      ∀ {place thread}, thread ≠ current →
        (state.move current place).place thread = state.place thread := by
    intro place thread different
    simp [different]
  have acts :
      ∀ {place}, seesToWriters place = true →
        ∃ thread, CoversWriters (state.move current place) thread :=
    fun sees => ⟨current, .inr (by simpa using sees)⟩
  have stays :
      ∀ {before place}, state.place current = before →
        seesToWriters before = false → before.waitsOn .write = false →
        (∃ thread, CoversWriters state thread) →
        ∃ thread, CoversWriters (state.move current place) thread := by
    intro before place here idle elsewhere covers
    refine CoversWriters.keep current covers ?_ (fun _ _ out => out)
      (fun _ different => others different)
    simp [CoversWriters, WriterSignalled, here, idle, elsewhere]
  intro noReader noWriter waiting
  cases moved with
  | callNothing => exact covered noReader noWriter waiting
  | callAcquire _ here | callRelease here | enter here
  | condWait here | acquireReturn here | broadcastDone here
  | releaseReturn here =>
      exact stays here rfl rfl (covered noReader noWriter waiting)
  | @testWait holds reader here waits =>
      cases reader with
      | true => exact stays here rfl rfl (covered noReader noWriter waiting)
      | false =>
          simp only [RwLock.blocks, Mesa.move_shared] at *
          simp [noReader, noWriter] at waits
  | @testPass holds reader here passes =>
      cases reader with
      | true =>
          simp only [Mesa.move_shared] at noWriter waiting
          simp [RwLock.blocks, noWriter] at passes
          omega
      | false => exact acts rfl
  | @incWaiting holds reader here =>
      cases reader with
      | true => exact stays here rfl rfl (covered noReader noWriter waiting)
      | false =>
          have waits := exclusive.pausing current false (by simp [here, pausesAs])
          simp [RwLock.countWaiting] at noReader noWriter
          simp [RwLock.blocks, noReader, noWriter] at waits
  | @join holds reader here =>
      have idle : ¬ CoversWriters state current := by
        simp [CoversWriters, WriterSignalled, here, Place.waitsOn, seesToWriters]
      refine CoversWriters.keep current (covered noReader noWriter waiting)
        idle ?_ (fun _ different => by simp [different])
      intro thread different out
      cases reader with
      | true => simpa [rwCondition] using out
      | false => simpa [rwCondition, different] using out
  | @wake holds reader here released =>
      cases reader with
      | true => exact stays here rfl rfl (covered noReader noWriter waiting)
      | false => exact acts rfl
  | @decWaiting holds reader here =>
      cases reader with
      | true => exact stays here rfl rfl (covered noReader noWriter waiting)
      | false => exact acts rfl
  | @incActive holds reader here =>
      cases reader <;> simp [RwLock.countActive] at noReader noWriter <;> omega
  | decActive here => exact acts rfl
  | wakeWriter here => exact acts rfl
  | wakeReaders here none =>
      exact absurd waiting none
  | @wakeNobody holds reader here last other =>
      cases reader with
      | true => exact absurd ⟨noReader, waiting⟩ (last rfl)
      | false => exact absurd waiting (other rfl).1
  | @signal holds reader here =>
      obtain ⟨thread, different, released⟩ :=
        exists_signalled shape alone listed counted here waiting
      refine ⟨thread, .inl ?_⟩
      simpa [WriterSignalled, different] using released
  | broadcastPop here =>
      obtain ⟨thread, covering⟩ := covered noReader noWriter waiting
      exact ⟨thread, by simpa [CoversWriters, WriterSignalled] using covering⟩

theorem writersCovered_of_reachable
    (reachable : (rwMesaSystem Thread).Reachable state) :
    WritersCovered state := by
  refine reachable.invariant WritersCovered ?_ ?_
  · rintro state ⟨rfl, -⟩ noReader noWriter waiting
    cases waiting
  · intro state turn target reached covered moved
    have shape := rwPlace_of_reachable reached
    obtain ⟨current, moved⟩ := RwStep.of_reachable reached moved
    exact
      moved.writersCovered shape (Mesa.alone_of_reachable reached.of_keep)
        (rwListed_of_reachable reached) (rwCounted_of_reachable reached)
        (rwExclusive_of_reachable reached) covered

omit [DecidableEq Thread] in
/-- A parked thread is counted. -/
theorem waiting_of_parked (listed : RwListed state) (counted : RwCounted state)
    (shape : ∀ thread, RwPlace (state.place thread)) (reader : Bool)
    (parked : state.waiters (rwCondition reader) ≠ []) :
    0 < state.shared.waiting reader := by
  obtain ⟨thread, member⟩ := List.exists_mem_of_ne_nil _ parked
  have waits := listed.waits _ thread member
  have out : (state.place thread).inGuard = false := by
    cases place : state.place thread <;> simp_all [Place.waitsOn, Place.inGuard]
  have share := le_total (waitingShare reader) state.place thread
  rw [waitingShare_of_vacant (shape thread) out, waits, Bool.toNat_true] at share
  have sum := counted.waiting reader
  omega

theorem RwStep.readersCovered
    (shape : ∀ thread, RwPlace (state.place thread)) (listed : RwListed state)
    (counted : RwCounted state) (exclusive : RwExclusive state) (covered : ReadersCovered state)
    (moved : RwStep state current target) : ReadersCovered target := by
  have nonneg := counted.nonneg
  have stays :
      ∀ {before place}, state.place current = before →
        seesToReaders before = false →
        (∃ thread, seesToReaders (state.place thread) = true) →
        ∃ thread, seesToReaders ((state.move current place).place thread) = true := by
    rintro before place here idle ⟨thread, sees⟩
    have different : thread ≠ current := by
      rintro rfl
      simp [here, idle] at sees
    exact ⟨thread, by simpa [different] using sees⟩
  have acts :
      ∀ {place}, seesToReaders place = true →
        ∃ thread, seesToReaders ((state.move current place).place thread) = true :=
    fun sees => ⟨current, by simpa using sees⟩
  intro parked
  cases moved with
  | callNothing => exact covered parked
  | callAcquire _ here | callRelease here | enter here | wake here
  | condWait here | acquireReturn here | releaseReturn here =>
      exact (covered parked).imp id (stays here rfl)
  | @testWait holds reader here waits =>
      cases reader with
      | true => exact (covered parked).imp id (stays here rfl)
      | false => exact .inr (acts rfl)
  | @testPass holds reader here passes =>
      cases reader with
      | true => exact (covered parked).imp id (stays here rfl)
      | false => exact .inr (acts rfl)
  | @incWaiting holds reader here =>
      cases reader with
      | true => exact (covered parked).imp id (stays here rfl)
      | false =>
          left
          simp [RwLock.countWaiting]
          omega
  | @decWaiting holds reader here =>
      cases reader with
      | true => exact (covered parked).imp id (stays here rfl)
      | false => exact .inr (acts rfl)
  | @incActive holds reader here =>
      cases reader with
      | true => exact (covered parked).imp id (stays here rfl)
      | false =>
          left
          simp [RwLock.countActive]
          omega
  | @decActive holds reader here =>
      cases reader with
      | true => exact (covered parked).imp id (stays here rfl)
      | false => exact .inr (acts rfl)
  | @join holds reader here =>
      cases reader with
      | true =>
          have waits := exclusive.pausing current true (by simp [here, pausesAs])
          left
          simpa [RwLock.blocks] using waits
      | false =>
          have before : state.waiters .read ≠ [] := by
            simpa [rwCondition] using parked
          exact (covered before).imp id (stays here rfl)
  | wakeWriter here last waiting =>
      left
      simp only [Mesa.move_shared]
      omega
  | wakeReaders here => exact .inr (acts rfl)
  | @wakeNobody holds reader here last other =>
      cases reader with
      | true => exact (covered parked).imp id (stays here rfl)
      | false =>
          exact
            absurd (waiting_of_parked listed counted shape true parked)
              (other rfl).2
  | signal here =>
      have before : state.waiters .read ≠ [] := by
        simpa using parked
      exact (covered before).imp id (stays here rfl)
  | broadcastPop here queue =>
      exact .inr ⟨current, by simp [here, seesToReaders]⟩
  | broadcastDone here empty => exact absurd empty parked

theorem readersCovered_of_reachable
    (reachable : (rwMesaSystem Thread).Reachable state) :
    ReadersCovered state := by
  refine reachable.invariant ReadersCovered ?_ ?_
  · rintro state ⟨rfl, -⟩ parked
    exact absurd rfl parked
  · intro state turn target reached covered moved
    have shape := rwPlace_of_reachable reached
    obtain ⟨current, moved⟩ := RwStep.of_reachable reached moved
    exact
      moved.readersCovered shape (rwListed_of_reachable reached)
        (rwCounted_of_reachable reached) (rwExclusive_of_reachable reached)
        covered

end Steps

section Guarantee

variable {Thread : Type} [DecidableEq Thread] [Fintype Thread]

omit [DecidableEq Thread] [Fintype Thread] in
theorem waitsOn_unique {place : Place RwCondition RwPoint}
    {left right : RwCondition} (first : place.waitsOn left = true)
    (second : place.waitsOn right = true) : left = right := by
  cases place with
  | waiting condition next =>
      simp only [Place.waitsOn, decide_eq_true_eq] at first second
      exact first.symm.trans second
  | _ => simp [Place.waitsOn] at first

/-- The thread is on the list of the condition: parked and not signalled. -/
def parked (machine : RwMachine Thread) (condition : RwCondition) (thread : Thread) : Prop :=
  thread ∈ machine.data.waiters condition

/-- The thread has been signalled and has not returned from its wait, or it is
inside the guard lock. -/
def underWay (machine : RwMachine Thread) (thread : Thread) : Prop :=
  (∃ condition, inCondWait condition (machine.control thread) ∧
      ¬ parked machine condition thread) ∨
    holdsLock (machine.control thread)

/-- The thread is inside the guard lock as a writer that is about to be
counted in `AW` or `WW`, or about to wake the readers. -/
def writerUnderWay (machine : RwMachine Thread) (thread : Thread) : Prop :=
  holdsLock (machine.control thread) ∧ seesToReaders (placeOf (machine.control thread)) = true

/-- Nobody is stranded. -/
structure RwProgress (machine : RwMachine Thread) : Prop where
  awake :
    machine.data.shared.AR = 0 →
    machine.data.shared.AW = 0 →
    ∀ condition thread, parked machine condition thread →
      ∃ other, other ≠ thread ∧ underWay machine other
  parkedReader :
    ∀ thread, parked machine .read thread →
      0 < machine.data.shared.AW + machine.data.shared.WW ∨ ∃ other, writerUnderWay machine other
  parkedReaderOutside :
    (∀ thread, ¬ holdsLock (machine.control thread)) →
    ∀ thread, parked machine .read thread → 0 < machine.data.shared.AW + machine.data.shared.WW

/-- As long as its counters do not overflow, the readers-writers lock strands nobody,
in every state that any interleaving of its users reaches. -/
theorem rw_lock_progress {machine : RwMachine Thread}
    (reachable : (rwSystem Thread).Reachable machine) :
    RwProgress machine := by
  have seen : (rwMesaSystem Thread).Reachable (mesaImage machine) := mesaImage_reachable reachable
  have shaped := WellShaped.of_reachable reachable.of_keep
  have shape := rwPlace_of_reachable seen
  have listed := rwListed_of_reachable seen
  have counted := rwCounted_of_reachable seen
  have nonneg := counted.nonneg
  have holds :
      ∀ {other}, (placeOf (machine.control other)).inGuard = true →
        holdsLock (machine.control other) :=
    fun inside => (shaped _).lockPhase_of_inGuard inside
  have outOfGuard :
      ∀ {condition thread}, parked machine condition thread →
        (placeOf (machine.control thread)).inGuard = false := by
    intro condition thread member
    have waits := listed.waits condition thread member
    change (placeOf (machine.control thread)).waitsOn condition = true
      at waits
    cases place : placeOf (machine.control thread) <;> simp_all [Place.waitsOn, Place.inGuard]
  have reader :
      ∀ thread, parked machine .read thread →
        0 < machine.data.shared.AW + machine.data.shared.WW ∨
          ∃ other, writerUnderWay machine other := by
    intro thread member
    refine (readersCovered_of_reachable seen (List.ne_nil_of_mem member)).imp id ?_
    rintro ⟨other, sees⟩
    exact ⟨other, holds (inGuard_of_seesToReaders sees), sees⟩
  have writer :
      machine.data.shared.AR = 0 →
      machine.data.shared.AW = 0 →
      0 < machine.data.shared.WW →
      ∀ condition thread, parked machine condition thread →
        ∃ other, other ≠ thread ∧ underWay machine other := by
    intro noReader noWriter waiting condition thread member
    have out := outOfGuard member
    obtain ⟨other, ⟨waits, released⟩ | sees⟩ :=
      writersCovered_of_reachable seen noReader noWriter waiting
    · refine ⟨other, ?_, .inl ⟨.write, ?_, released⟩⟩
      · rintro rfl
        have here := listed.waits condition other member
        obtain rfl : condition = .write := waitsOn_unique here waits
        exact released member
      · exact (inCondWait_iff (shaped other) .write).mpr waits
    · have inside := inGuard_of_seesToWriters sees
      refine ⟨other, ?_, .inr (holds inside)⟩
      rintro rfl
      exact Bool.false_ne_true (out.symm.trans inside)
  constructor
  case awake =>
    intro noReader noWriter condition thread member
    cases condition with
    | write =>
        exact
          writer noReader noWriter
            (waiting_of_parked listed counted shape false
              (List.ne_nil_of_mem member)) .write thread member
    | read =>
        rcases reader thread member with counted | ⟨other, inside, sees⟩
        · exact writer noReader noWriter (by omega) .read thread member
        · refine ⟨other, ?_, .inr inside⟩
          rintro rfl
          exact Bool.false_ne_true ((outOfGuard member).symm.trans (inGuard_of_seesToReaders sees))
  case parkedReader => exact reader
  case parkedReaderOutside =>
    intro outside thread member
    rcases reader thread member with counted | ⟨other, inside, -⟩
    · exact counted
    · exact absurd inside (outside other)

end Guarantee

/-- One thread holds the lock as a writer, another parks as a reader, and the
first has decremented `AW` in its release. -/
def writerLeaves {Thread : Type} (writer reader : Thread) : List (Turn LockSema Thread RwCall) :=
  List.replicate 9 (.thread writer (.acquire false)) ++
    List.replicate 11 (.thread reader (.acquire true)) ++
      List.replicate 5 (.thread writer (.release false))

theorem rw_lock_progress_writer_leaves : ∃ machine,
      (rwSystem (Fin 2)).run
          (monitorInitial (rwClient (Fin 2)) rwLockInit)
          (writerLeaves 0 1) = some machine ∧
      RwProgress machine := by
  obtain ⟨machine, execution⟩ : ∃ machine,
        (rwSystem (Fin 2)).run
            (monitorInitial (rwClient (Fin 2)) rwLockInit)
            (writerLeaves 0 1) = some machine :=
    ⟨_, rfl⟩
  exact ⟨machine, execution, rw_lock_progress (.of_run (.initial ⟨rfl, rfl⟩) execution)⟩

/-- A reader is parked and no writer is counted while the writer that leaves
is still inside the guard lock. -/
theorem rw_lock_reader_parked_uncounted : ∃ machine,
      (rwSystem (Fin 2)).Reachable machine ∧
      parked machine .read 1 ∧
      machine.data.shared.AW + machine.data.shared.WW = 0 := by
  obtain ⟨machine, execution, waiters, counters⟩ : ∃ machine,
        (rwSystem (Fin 2)).run
            (monitorInitial (rwClient (Fin 2)) rwLockInit)
            (writerLeaves 0 1) = some machine ∧
          machine.data.waiters .read = [1] ∧
          machine.data.shared.AW + machine.data.shared.WW = 0 :=
    ⟨_, rfl, rfl, rfl⟩
  refine ⟨machine, .of_run (.initial ⟨rfl, rfl⟩) execution, ?_, counters⟩
  rw [parked, waiters]
  exact List.mem_singleton_self 1

end CS162.Threads

import CS162.Threads.RwLock

/-!
# Safety of the readers-writers lock

The four counters are sums over the threads in every state, not only while
nobody is inside the guard lock: a thread that is between an increment and
the call that the increment stands for contributes by its program point.
Writers exclude everybody because the thread that has passed its test is alone
inside until it has incremented its counter.

A counter is an `int`, and one thread can acquire as a reader any number of
times.  The runs are those in which fewer than 2^31 acquires, called and not yet
released, are outstanding at any time; then no counter overflows.
-/

namespace CS162.Threads

open CS162.Foundation

/-- The point at which the thread goes on in its client. -/
def continuation : Place RwCondition RwPoint → RwPoint
  | .outside point => point
  | .entering next => next
  | .trying _ failure => failure
  | .inside point => point
  | .joining _ next => next
  | .waiting _ next => next
  | .signalling _ next => next
  | .broadcasting _ next => next
  | .stopped => ⟨.idle, ⟨0, 0⟩⟩

/-- What a thread contributes to `AR` or `AW`. -/
def activeShare (reader : Bool) (place : Place RwCondition RwPoint) : Nat :=
  (continuation place).holds.count reader +
    if (continuation place).pc = .acquireUnlock reader then 1 else 0

/-- What a thread contributes to `WR` or `WW`. -/
def waitingShare (reader : Bool) (place : Place RwCondition RwPoint) : Nat :=
  if (continuation place).pc = .acquireCondWait reader ∨
    (continuation place).pc = .acquireWaited reader then 1 else 0

/-- The thread is in `rw_lock_acquire`. -/
def RwPc.acquires : RwPc → Bool
  | .acquireTest _ | .acquireWaiting _ | .acquireCondWait _
  | .acquireWaited _ | .acquireInc _ | .acquireUnlock _ => true
  | _ => false

/-- How many acquires a thread has called and not yet released. -/
def outstanding (place : Place RwCondition RwPoint) : Nat :=
  (continuation place).holds.readers + (continuation place).holds.writers +
    if (continuation place).pc.acquires then 1 else 0

/-- The counters of a thread are no more than its acquires. -/
theorem shares_le (place : Place RwCondition RwPoint) :
    activeShare true place + waitingShare true place +
        activeShare false place + waitingShare false place ≤
      outstanding place := by
  unfold activeShare waitingShare outstanding
  generalize continuation place = point
  obtain ⟨pc, holds⟩ := point
  cases pc with
  | idle | releaseDec | releaseWake | releaseUnlock =>
      simp [RwPc.acquires, Holds.count]
  | acquireTest reader | acquireWaiting reader | acquireCondWait reader
  | acquireWaited reader | acquireInc reader | acquireUnlock reader =>
      cases reader <;> simp [RwPc.acquires, Holds.count] <;> omega

namespace RwLock

@[simp]
theorem active_countActive (lock : RwLock) (reader kind : Bool) (change : Int) :
    (lock.countActive reader change).active kind =
      lock.active kind + if reader = kind then change else 0 := by
  cases reader <;> cases kind <;> simp [countActive, active]

@[simp]
theorem waiting_countActive (lock : RwLock) (reader kind : Bool) (change : Int) :
    (lock.countActive reader change).waiting kind = lock.waiting kind := by
  cases reader <;> cases kind <;> simp [countActive, waiting]

@[simp]
theorem active_countWaiting (lock : RwLock) (reader kind : Bool) (change : Int) :
    (lock.countWaiting reader change).active kind = lock.active kind := by
  cases reader <;> cases kind <;> simp [countWaiting, active]

@[simp]
theorem waiting_countWaiting (lock : RwLock) (reader kind : Bool) (change : Int) :
    (lock.countWaiting reader change).waiting kind =
      lock.waiting kind + if reader = kind then change else 0 := by
  cases reader <;> cases kind <;> simp [countWaiting, waiting]

end RwLock

@[simp]
theorem Holds.count_add (holds : Holds) (reader kind : Bool) :
    (holds.add reader).count kind = holds.count kind + if reader = kind then 1 else 0 := by
  cases reader <;> cases kind <;> simp [add, count]

theorem Holds.count_drop (holds : Holds) (reader kind : Bool) (held : 0 < holds.count reader) :
    (holds.drop reader).count kind + (if reader = kind then 1 else 0) = holds.count kind := by
  cases reader <;> cases kind <;> simp_all [drop, count] <;> omega

section Steps

variable {Thread : Type} [DecidableEq Thread] [Fintype Thread]
variable {state target : RwMesa Thread} {current : Thread}

/-- The counters are the sums of the shares. -/
structure RwCounted (state : RwMesa Thread) : Prop where
  active : ∀ reader, state.shared.active reader = (total (activeShare reader) state.place : Int)
  waiting : ∀ reader, state.shared.waiting reader = (total (waitingShare reader) state.place : Int)

omit [DecidableEq Thread] in
theorem RwCounted.setWaiters (counted : RwCounted state)
    (condition : RwCondition) (waiters : List Thread) :
    RwCounted (state.setWaiters condition waiters) :=
  ⟨counted.active, counted.waiting⟩

/-- A step that changes no share and no counter. -/
theorem RwCounted.move (counted : RwCounted state) {before after : Place RwCondition RwPoint}
    (here : state.place current = before)
    (active : ∀ reader, activeShare reader after = activeShare reader before)
    (waiting : ∀ reader, waitingShare reader after = waitingShare reader before) :
    RwCounted (state.move current after) := by
  subst here
  constructor
  · intro reader
    rw [Mesa.move_place, total_update_of_eq (active reader)]
    exact counted.active reader
  · intro reader
    rw [Mesa.move_place, total_update_of_eq (waiting reader)]
    exact counted.waiting reader

/-- A step that changes a share and the counter with it. -/
theorem RwCounted.update (counted : RwCounted state)
    {before after : Place RwCondition RwPoint} {lock : RwLock} (here : state.place current = before)
    (active : ∀ reader,
        lock.active reader + activeShare reader before =
          state.shared.active reader + activeShare reader after)
    (waiting : ∀ reader,
        lock.waiting reader + waitingShare reader before =
          state.shared.waiting reader + waitingShare reader after) :
    RwCounted ((state.setShared lock).move current after) := by
  subst here
  constructor
  · intro reader
    have moved := total_update (activeShare reader) state.place current after
    have change := active reader
    have before := counted.active reader
    simp only [Mesa.move_place, Mesa.move_shared, Mesa.setShared_place, Mesa.setShared_shared]
    omega
  · intro reader
    have moved := total_update (waitingShare reader) state.place current after
    have change := waiting reader
    have before := counted.waiting reader
    simp only [Mesa.move_place, Mesa.move_shared, Mesa.setShared_place, Mesa.setShared_shared]
    omega

theorem RwStep.counted (shape : ∀ thread, RwPlace (state.place thread))
    (counted : RwCounted state) (moved : RwStep state current target) : RwCounted target := by
  cases moved with
  | callAcquire reader here =>
      exact counted.move here (fun _ => rfl) (fun _ => rfl)
  | callRelease here =>
      exact counted.move here (fun _ => rfl) (fun _ => rfl)
  | callNothing => exact counted
  | enter here => exact counted.move here (fun _ => rfl) (fun _ => rfl)
  | testWait here => exact counted.move here (fun _ => rfl) (fun _ => rfl)
  | testPass here => exact counted.move here (fun _ => rfl) (fun _ => rfl)
  | incWaiting here =>
      refine counted.update here ?_ ?_
      · simp [activeShare, continuation]
      · simp [waitingShare, continuation]
  | condWait here =>
      refine counted.move here (fun _ => rfl) ?_
      simp [waitingShare, continuation]
  | join here =>
      exact (counted.setWaiters _ _).move here (fun _ => rfl) (fun _ => rfl)
  | wake here => exact counted.move here (fun _ => rfl) (fun _ => rfl)
  | decWaiting here =>
      refine counted.update here ?_ ?_
      · simp [activeShare, continuation]
      · intro reader
        simp [waitingShare, continuation]
        split <;> omega
  | incActive here =>
      refine counted.update here ?_ ?_
      · intro reader
        simp [activeShare, continuation]
        split <;> omega
      · simp [waitingShare, continuation]
  | acquireReturn here =>
      refine counted.move here ?_ ?_
      · simp [activeShare, continuation]
      · simp [waitingShare, continuation]
  | @decActive holds dropped here =>
      have held : 0 < holds.count dropped := by
        have place := shape current
        rw [here] at place
        exact place.2 dropped rfl
      refine counted.update here ?_ ?_
      · intro reader
        have drop := holds.count_drop dropped reader held
        simp only [activeShare, continuation, RwLock.active_countActive]
        split <;> simp_all
        omega
      · simp [waitingShare, continuation]
  | wakeWriter here => exact counted.move here (fun _ => rfl) (fun _ => rfl)
  | wakeReaders here => exact counted.move here (fun _ => rfl) (fun _ => rfl)
  | wakeNobody here => exact counted.move here (fun _ => rfl) (fun _ => rfl)
  | signal here =>
      exact (counted.setWaiters _ _).move here (fun _ => rfl) (fun _ => rfl)
  | broadcastPop => exact counted.setWaiters _ _
  | broadcastDone here =>
      exact counted.move here (fun _ => rfl) (fun _ => rfl)
  | releaseReturn here =>
      exact counted.move here (fun _ => rfl) (fun _ => rfl)

omit [DecidableEq Thread] in
/-- The four counters are the sums of the shares. -/
theorem RwCounted.sums (counted : RwCounted state) :
    state.shared.AR = total (activeShare true) state.place ∧
      state.shared.AW = total (activeShare false) state.place ∧
      state.shared.WR = total (waitingShare true) state.place ∧
      state.shared.WW = total (waitingShare false) state.place :=
  ⟨counted.active true, counted.active false, counted.waiting true, counted.waiting false⟩

omit [DecidableEq Thread] in
theorem RwCounted.nonneg (counted : RwCounted state) :
    0 ≤ state.shared.AR ∧ 0 ≤ state.shared.WR ∧
      0 ≤ state.shared.AW ∧ 0 ≤ state.shared.WW := by
  have sums := counted.sums
  omega

/-- Fewer than 2^31 acquires are outstanding. -/
def fewOutstanding (state : RwMesa Thread) : Bool := total outstanding state.place < 2 ^ 31

omit [DecidableEq Thread] in
/-- Then the counters fit. -/
theorem RwCounted.fits (counted : RwCounted state)
    (few : total outstanding state.place < 2 ^ 31) : state.shared.Fits := by
  refine ⟨counted.nonneg, ?_⟩
  have shares := total_le_total shares_le state.place
  rw [total_add, total_add, total_add] at shares
  have sums := counted.sums
  omega

/-- The lock fresh from `rw_lock_init`, in the runs with few acquires. -/
def rwMesaSystem (Thread : Type) [DecidableEq Thread] [Fintype Thread] :
    TransitionSystem (RwMesa Thread) (MesaTurn Thread RwCall) :=
  (mesaSystem (rwClient Thread) rwLockInit).keep fewOutstanding

/-- Where the counters are the sums, every step is one of the rules. -/
theorem RwStep.of_kept {turn : MesaTurn Thread RwCall}
    (shape : ∀ thread, RwPlace (state.place thread))
    (counted : RwCounted state) (few : fewOutstanding state = true)
    (moved : (rwMesaSystem Thread).step state turn = some target) :
    ∃ current, RwStep state current target := by
  obtain ⟨moved, fewAfter⟩ := TransitionSystem.keep_step_iff.mp moved
  refine RwStep.of_step shape (counted.fits (of_decide_eq_true few)) ?_ moved
  intro current ideal step same
  refine (step.counted shape counted).fits ?_
  rw [same]
  exact of_decide_eq_true fewAfter

theorem rwCounted_and_place_of_reachable
    (reachable : (rwMesaSystem Thread).Reachable state) :
    (∀ thread, RwPlace (state.place thread)) ∧ RwCounted state := by
  refine reachable.invariant
    (fun state => (∀ thread, RwPlace (state.place thread)) ∧ RwCounted state)
    ?_ ?_
  · rintro state ⟨rfl, -⟩
    refine ⟨fun thread => rfl, ?_⟩
    constructor <;> intro reader <;> cases reader <;>
      simp [rwLockInit, RwLock.active, RwLock.waiting, rwClient, total,
        activeShare, waitingShare, continuation, Holds.count]
  · rintro state turn target reached ⟨shape, counted⟩ moved
    obtain ⟨current, moved⟩ := RwStep.of_kept shape counted reached.kept moved
    exact ⟨moved.rwPlace shape, moved.counted shape counted⟩

theorem rwPlace_of_reachable
    (reachable : (rwMesaSystem Thread).Reachable state) (thread : Thread) :
    RwPlace (state.place thread) :=
  (rwCounted_and_place_of_reachable reachable).1 thread

theorem rwCounted_of_reachable
    (reachable : (rwMesaSystem Thread).Reachable state) : RwCounted state :=
  (rwCounted_and_place_of_reachable reachable).2

/-- Every step of a run is one of the rules. -/
theorem RwStep.of_reachable {turn : MesaTurn Thread RwCall}
    (reached : (rwMesaSystem Thread).Reachable state)
    (moved : (rwMesaSystem Thread).step state turn = some target) :
    ∃ current, RwStep state current target :=
  RwStep.of_kept (rwPlace_of_reachable reached) (rwCounted_of_reachable reached) reached.kept moved

/-- The thread has passed the test of its loop and will increment. -/
def entersAs (reader : Bool) : Place RwCondition RwPoint → Bool
  | .inside point => point.pc = .acquireInc reader
  | _ => false

/-- The thread has failed the test of its loop and will wait. -/
def pausesAs (reader : Bool) : Place RwCondition RwPoint → Bool
  | .inside point =>
      point.pc = .acquireWaiting reader ∨ point.pc = .acquireCondWait reader
  | .joining _ next => next.pc = .acquireWaited reader
  | _ => false

omit [DecidableEq Thread] [Fintype Thread] in
theorem inGuard_of_entersAs {reader : Bool} {place : Place RwCondition RwPoint}
    (enters : entersAs reader place = true) : place.inGuard = true := by
  cases place <;> simp_all [entersAs, Place.inGuard]

omit [DecidableEq Thread] [Fintype Thread] in
theorem inGuard_of_pausesAs {reader : Bool} {place : Place RwCondition RwPoint}
    (pauses : pausesAs reader place = true) : place.inGuard = true := by
  cases place <;> simp_all [pausesAs, Place.inGuard]

/-- Writers exclude everybody, and the outcome of a test stays true until its
thread has acted on it. -/
structure RwExclusive (state : RwMesa Thread) : Prop where
  oneWriter : state.shared.AW ≤ 1
  noReader : state.shared.AW = 1 → state.shared.AR = 0
  entering :
    ∀ thread reader, entersAs reader (state.place thread) = true →
      state.shared.blocks reader = false
  pausing :
    ∀ thread reader, pausesAs reader (state.place thread) = true → state.shared.blocks reader = true

omit [DecidableEq Thread] [Fintype Thread] in
theorem RwExclusive.setWaiters (exclusive : RwExclusive state)
    (condition : RwCondition) (waiters : List Thread) :
    RwExclusive (state.setWaiters condition waiters) :=
  ⟨exclusive.oneWriter, exclusive.noReader, exclusive.entering, exclusive.pausing⟩

omit [Fintype Thread] in
/-- A step that leaves the counters alone. -/
theorem RwExclusive.move (exclusive : RwExclusive state) {place : Place RwCondition RwPoint}
    (enters : ∀ reader, entersAs reader place = true → state.shared.blocks reader = false)
    (pauses : ∀ reader, pausesAs reader place = true → state.shared.blocks reader = true) :
    RwExclusive (state.move current place) := by
  refine ⟨exclusive.oneWriter, exclusive.noReader, ?_, ?_⟩
  · intro thread reader
    by_cases same : thread = current
    · subst same
      simpa using enters reader
    · simpa [same] using exclusive.entering thread reader
  · intro thread reader
    by_cases same : thread = current
    · subst same
      simpa using pauses reader
    · simpa [same] using exclusive.pausing thread reader

omit [Fintype Thread] in
/-- A step of the thread that is alone inside and changes the counters. -/
theorem RwExclusive.update (alone : state.Alone) {place : Place RwCondition RwPoint} {lock : RwLock}
    (inside : (state.place current).inGuard = true) (oneWriter : lock.AW ≤ 1)
    (noReader : lock.AW = 1 → lock.AR = 0)
    (enters : ∀ reader, entersAs reader place = true → lock.blocks reader = false)
    (pauses : ∀ reader, pausesAs reader place = true → lock.blocks reader = true) :
    RwExclusive ((state.setShared lock).move current place) := by
  refine ⟨oneWriter, noReader, ?_, ?_⟩
  · intro thread reader
    by_cases same : thread = current
    · subst same
      simpa using enters reader
    · intro other
      refine absurd (alone thread current ?_ inside) same
      exact inGuard_of_entersAs (by simpa [same] using other)
  · intro thread reader
    by_cases same : thread = current
    · subst same
      simpa using pauses reader
    · intro other
      refine absurd (alone thread current ?_ inside) same
      exact inGuard_of_pausesAs (by simpa [same] using other)

theorem RwStep.exclusive (shape : ∀ thread, RwPlace (state.place thread)) (alone : state.Alone)
    (counted : RwCounted state) (after : RwCounted target) (exclusive : RwExclusive state)
    (moved : RwStep state current target) : RwExclusive target := by
  have nonneg := counted.nonneg
  have nonnegAfter := after.nonneg
  have oneWriter := exclusive.oneWriter
  have noReader := exclusive.noReader
  cases moved with
  | callNothing => exact exclusive
  | broadcastPop => exact exclusive.setWaiters _ _
  | @enter next here =>
      have place := shape current
      rw [here] at place
      refine exclusive.move ?_ ?_
      · intro reader
        obtain ⟨kind, test | ⟨dec, -⟩⟩ := place <;> simp [entersAs, *]
      · intro reader
        obtain ⟨kind, test | ⟨dec, -⟩⟩ := place <;> simp [pausesAs, *]
  | testWait here waits =>
      refine exclusive.move (by simp [entersAs]) ?_
      simpa [pausesAs] using waits
  | testPass here passes =>
      refine exclusive.move ?_ (by simp [pausesAs])
      simpa [entersAs] using passes
  | @incWaiting holds reader here =>
      have waits := exclusive.pausing current reader (by simp [here, pausesAs])
      refine .update alone (by rw [here]; rfl) ?_ ?_ ?_ ?_
      · cases reader <;> simpa [RwLock.countWaiting] using oneWriter
      · cases reader <;> simpa [RwLock.countWaiting] using noReader
      · simp [entersAs]
      · cases reader <;>
          simpa [pausesAs, RwLock.countWaiting, RwLock.blocks] using waits
  | @condWait holds reader here =>
      have waits := exclusive.pausing current reader (by simp [here, pausesAs])
      refine exclusive.move (by simp [entersAs]) ?_
      simpa [pausesAs] using waits
  | @decWaiting holds reader here =>
      refine .update alone (by rw [here]; rfl) ?_ ?_ ?_ ?_
      · cases reader <;> simpa [RwLock.countWaiting] using oneWriter
      · cases reader <;> simpa [RwLock.countWaiting] using noReader
      · simp [entersAs]
      · simp [pausesAs]
  | @incActive holds reader here =>
      have passes := exclusive.entering current reader (by simp [here, entersAs])
      refine .update alone (by rw [here]; rfl) ?_ ?_ ?_ ?_
      · cases reader <;> simp_all [RwLock.countActive, RwLock.blocks]
        omega
      · cases reader <;> simp_all [RwLock.countActive, RwLock.blocks] <;> omega
      · simp [entersAs]
      · simp [pausesAs]
  | @decActive holds reader here =>
      refine .update alone (by rw [here]; rfl) ?_ ?_ ?_ ?_
      · cases reader <;> simp_all [RwLock.countActive]
        omega
      · cases reader <;> simp_all [RwLock.countActive] <;> omega
      · simp [entersAs]
      · simp [pausesAs]
  | join here =>
      refine (exclusive.setWaiters _ _).move ?_ ?_
      · simp [entersAs]
      · simp [pausesAs]
  | signal here =>
      refine (exclusive.setWaiters _ _).move ?_ ?_
      · simp [entersAs]
      · simp [pausesAs]
  | _ =>
      refine exclusive.move ?_ ?_
      · simp [entersAs]
      · simp [pausesAs]

theorem rwExclusive_of_reachable
    (reachable : (rwMesaSystem Thread).Reachable state) :
    RwExclusive state := by
  refine reachable.invariant RwExclusive ?_ ?_
  · rintro state ⟨rfl, -⟩
    constructor <;> simp [rwLockInit, entersAs, pausesAs]
  · intro state turn target reached exclusive moved
    have after := rwCounted_of_reachable (reached.step moved)
    have shape := rwPlace_of_reachable reached
    obtain ⟨current, moved⟩ := RwStep.of_reachable reached moved
    exact
      moved.exclusive shape (Mesa.alone_of_reachable reached.of_keep)
        (rwCounted_of_reachable reached) after exclusive

end Steps

section Guarantee

variable {Thread : Type} [DecidableEq Thread] [Fintype Thread]

/-- A machine that runs the code of the readers-writers lock. -/
abbrev RwMachine (Thread : Type) := MonitorMachine Thread RwCondition RwPoint RwLock

/-- The runs of threads that share a lock fresh from `rw_lock_init`, with fewer
than 2^31 acquires outstanding in every state. -/
def rwSystem (Thread : Type) [DecidableEq Thread] [Fintype Thread] :
    TransitionSystem (RwMachine Thread) (Turn LockSema Thread RwCall) :=
  (monitorSystem (rwClient Thread) rwLockInit).keep fun machine =>
    fewOutstanding (mesaImage machine)

/-- How often a thread holds the lock. -/
def rwHolds (control : MonitorControl Thread RwCondition RwPoint) : Holds :=
  (continuation (placeOf control)).holds

/-- What the lock promises in the states in which no thread is inside the
guard lock. -/
structure RwGuarantee (machine : RwMachine Thread) : Prop where
  readers :
    machine.data.shared.AR = total (fun control => (rwHolds control).readers) machine.control
  /-- `AR` counts threads as long as no thread reads twice. -/
  readerThreads :
    (∀ thread, (rwHolds (machine.control thread)).readers ≤ 1) →
      machine.data.shared.AR = tally (fun control => 0 < (rwHolds control).readers) machine.control
  writerThreads :
    machine.data.shared.AW = tally (fun control => 0 < (rwHolds control).writers) machine.control
  oneWriter : machine.data.shared.AW ≤ 1
  noReader : machine.data.shared.AW = 1 → machine.data.shared.AR = 0
  waitingReaders :
    machine.data.shared.WR = tally (fun control => inCondWait .read control) machine.control
  waitingWriters :
    machine.data.shared.WW = tally (fun control => inCondWait .write control) machine.control
  nonneg :
    0 ≤ machine.data.shared.AR ∧ 0 ≤ machine.data.shared.WR ∧
      0 ≤ machine.data.shared.AW ∧ 0 ≤ machine.data.shared.WW

omit [DecidableEq Thread] [Fintype Thread] in
/-- While nobody is inside, the waiting share of a thread says whether it is
in `cond_wait`. -/
theorem waitingShare_of_vacant {place : Place RwCondition RwPoint}
    (shape : RwPlace place) (vacant : place.inGuard = false) (reader : Bool) :
    waitingShare reader place = (place.waitsOn (rwCondition reader)).toNat := by
  cases place with
  | outside point =>
      obtain ⟨pc, holds⟩ := point
      obtain rfl : pc = .idle := shape
      rfl
  | entering next =>
      obtain ⟨kind, test | ⟨dec, -⟩⟩ := shape <;>
        simp [waitingShare, continuation, Place.waitsOn, *]
  | waiting condition next =>
      obtain ⟨kind, rfl, waited⟩ := shape
      cases kind <;> cases reader <;>
        simp [waitingShare, continuation, Place.waitsOn, rwCondition, waited]
  | trying | stopped => exact shape.elim
  | inside | joining | signalling | broadcasting => cases vacant

omit [DecidableEq Thread] [Fintype Thread] in
/-- While nobody is inside, the active share of a thread is what it holds. -/
theorem activeShare_of_vacant {place : Place RwCondition RwPoint}
    (shape : RwPlace place) (vacant : place.inGuard = false) (reader : Bool) :
    activeShare reader place = (continuation place).holds.count reader := by
  cases place with
  | outside point =>
      obtain ⟨pc, holds⟩ := point
      obtain rfl : pc = .idle := shape
      rfl
  | entering next =>
      obtain ⟨kind, test | ⟨dec, -⟩⟩ := shape <;>
        simp [activeShare, continuation, *]
  | waiting condition next =>
      obtain ⟨kind, rfl, waited⟩ := shape
      simp [activeShare, continuation, waited]
  | trying | stopped => exact shape.elim
  | inside | joining | signalling | broadcasting => cases vacant

/-- As long as its counters do not overflow, the readers-writers lock keeps its
promises in every state that any interleaving of its users reaches and in which no
thread is inside the guard lock. -/
theorem rw_lock_guarantee {machine : RwMachine Thread}
    (reachable : (rwSystem Thread).Reachable machine)
    (outside : ∀ thread, ¬ holdsLock (machine.control thread)) :
    RwGuarantee machine := by
  have seen : (rwMesaSystem Thread).Reachable (mesaImage machine) := mesaImage_reachable reachable
  have vacant := vacant_of_not_holdsLock reachable.of_keep outside
  have shape := rwPlace_of_reachable seen
  have counted := rwCounted_of_reachable seen
  have exclusive := rwExclusive_of_reachable seen
  have active : ∀ reader,
        machine.data.shared.active reader =
          total (fun control => (rwHolds control).count reader)
            machine.control := by
    intro reader
    refine (counted.active reader).trans (congrArg _ (total_congr ?_))
    exact fun thread =>
      activeShare_of_vacant (shape thread) (vacant thread) reader
  have waiting : ∀ reader,
        machine.data.shared.waiting reader =
          tally (fun control => inCondWait (rwCondition reader) control)
            machine.control := by
    intro reader
    refine (counted.waiting reader).trans (congrArg _ ?_)
    rw [tally_eq_total]
    refine total_congr fun thread => ?_
    rw [waitingShare_of_vacant (shape thread) (vacant thread) reader]
    have waits :=
      inCondWait_iff (WellShaped.of_reachable reachable.of_keep thread) (rwCondition reader)
    refine congrArg Bool.toNat (Bool.eq_iff_iff.mpr ?_)
    exact waits.symm.trans (decide_eq_true_iff).symm
  constructor
  case readers => exact active true
  case readerThreads =>
    intro once
    exact (active true).trans (congrArg _ (total_eq_tally once))
  case writerThreads =>
    refine (active false).trans (congrArg _ (total_eq_tally fun thread => ?_))
    have share :=
      le_total (fun control => (rwHolds control).count false)
        machine.control thread
    have sum : machine.data.shared.AW = _ := active false
    have one : machine.data.shared.AW ≤ 1 := exclusive.oneWriter
    omega
  case oneWriter => exact exclusive.oneWriter
  case noReader => exact exclusive.noReader
  case waitingReaders => exact waiting true
  case waitingWriters => exact waiting false
  case nonneg => exact counted.nonneg

end Guarantee

/-- One thread holds the lock as a reader and another waits as a writer. -/
def readerThenWriter {Thread : Type} (reader writer : Thread) :
    List (Turn LockSema Thread RwCall) :=
  List.replicate 9 (.thread reader (.acquire true)) ++
    List.replicate 11 (.thread writer (.acquire false))

theorem rw_lock_guarantee_waiting_writer : ∃ machine,
      (rwSystem (Fin 2)).run
          (monitorInitial (rwClient (Fin 2)) rwLockInit)
          (readerThenWriter 0 1) = some machine ∧
      machine.data.shared = ⟨1, 0, 0, 1⟩ ∧
      RwGuarantee machine := by
  obtain ⟨machine, execution, counters, outside⟩ : ∃ machine,
        (rwSystem (Fin 2)).run
            (monitorInitial (rwClient (Fin 2)) rwLockInit)
            (readerThenWriter 0 1) = some machine ∧
          machine.data.shared = ⟨1, 0, 0, 1⟩ ∧
          ∀ thread, lockPhase (machine.control thread) ≠ .holding :=
    ⟨_, rfl, rfl, by decide⟩
  exact ⟨machine, execution, counters,
      rw_lock_guarantee (.of_run (.initial ⟨rfl, rfl⟩) execution) outside⟩

/-- A thread that reads twice is counted twice. -/
theorem rw_lock_reads_twice : ∃ machine,
      (rwSystem (Fin 2)).Reachable machine ∧
      (∀ thread, ¬ holdsLock (machine.control thread)) ∧
      machine.data.shared.AR = 2 ∧
      tally (fun control => 0 < (rwHolds control).readers)
        machine.control = 1 := by
  obtain ⟨machine, execution, outside, counter, threads⟩ : ∃ machine,
        (rwSystem (Fin 2)).run
            (monitorInitial (rwClient (Fin 2)) rwLockInit)
            (List.replicate 18 (.thread 0 (.acquire true))) = some machine ∧
          (∀ thread, lockPhase (machine.control thread) ≠ .holding) ∧
          machine.data.shared.AR = 2 ∧
          tally (fun control => 0 < (rwHolds control).readers)
            machine.control = 1 :=
    ⟨_, rfl, by decide, rfl, by decide⟩
  exact ⟨machine, .of_run (.initial ⟨rfl, rfl⟩) execution, outside, counter, threads⟩

end CS162.Threads

import CS162.Threads.MonitorSignals

/-!
# The monitor that the clients see

What lock and conditions are for: at most one thread at a time is inside, a
wait gives up the inside and comes back after a release, a signal releases
the first waiter and a broadcast all of them.  Semaphores, the holder field
and the windows of `lock_acquire` and `lock_release` are gone; newcomers may
still enter before a released waiter does.

The monitor code refines this monitor for every client, so what a client keeps
invariant here it keeps invariant in the code.
-/

namespace CS162.Threads

open CS162.Foundation

variable {Thread Condition Point Shared Choice : Type}

/-- Where a thread is, as its client sees it. -/
inductive Place (Condition Point : Type) where
  | outside (point : Point)
  | entering (next : Point)
  | trying (success failure : Point)
  | inside (point : Point)
  /-- In a wait, before it joins the list. -/
  | joining (condition : Condition) (next : Point)
  /-- In a wait, on the list or released. -/
  | waiting (condition : Condition) (next : Point)
  | signalling (condition : Condition) (next : Point)
  | broadcasting (condition : Condition) (next : Point)
  | stopped
  deriving DecidableEq, Repr

/-- The thread is inside the monitor. -/
def Place.inGuard : Place Condition Point → Bool
  | .inside _ => true
  | .joining _ _ => true
  | .signalling _ _ => true
  | .broadcasting _ _ => true
  | _ => false

/-- The thread is in a wait on the condition. -/
def Place.waitsOn [DecidableEq Condition] (condition : Condition) : Place Condition Point → Bool
  | .waiting here _ => here = condition
  | _ => false

/-- The places of the threads, the wait lists and the client's data. -/
@[ext]
structure Mesa (Thread Condition Point Shared : Type) where
  place : Thread → Place Condition Point
  waiters : Condition → List Thread
  shared : Shared

/-- A thread takes a step of its client or of the operation that it is in, or
its attempt to enter is refused. -/
inductive MesaTurn (Thread Choice : Type) where
  | call (thread : Thread) (choice : Choice)
  | act (thread : Thread)
  | refuse (thread : Thread)
  deriving DecidableEq, Repr

namespace Mesa

variable [DecidableEq Thread]

def move (state : Mesa Thread Condition Point Shared) (thread : Thread)
    (place : Place Condition Point) : Mesa Thread Condition Point Shared :=
  { state with place := Function.update state.place thread place }

def setShared (state : Mesa Thread Condition Point Shared)
    (shared : Shared) : Mesa Thread Condition Point Shared :=
  { state with shared := shared }

def setWaiters [DecidableEq Condition] (state : Mesa Thread Condition Point Shared)
    (condition : Condition) (waiters : List Thread) :
    Mesa Thread Condition Point Shared :=
  { state with waiters := Function.update state.waiters condition waiters }

section Projections

variable (state : Mesa Thread Condition Point Shared)

@[simp]
theorem move_place (thread : Thread) (place : Place Condition Point) :
    (state.move thread place).place = Function.update state.place thread place := rfl

@[simp]
theorem move_waiters (thread : Thread) (place : Place Condition Point) :
    (state.move thread place).waiters = state.waiters := rfl

@[simp]
theorem move_shared (thread : Thread) (place : Place Condition Point) :
    (state.move thread place).shared = state.shared := rfl

omit [DecidableEq Thread] in
@[simp]
theorem setShared_place (shared : Shared) : (state.setShared shared).place = state.place := rfl

omit [DecidableEq Thread] in
@[simp]
theorem setShared_waiters (shared : Shared) :
    (state.setShared shared).waiters = state.waiters := rfl

omit [DecidableEq Thread] in
@[simp]
theorem setShared_shared (shared : Shared) : (state.setShared shared).shared = shared := rfl

variable [DecidableEq Condition]

omit [DecidableEq Thread] in
@[simp]
theorem setWaiters_place (condition : Condition) (waiters : List Thread) :
    (state.setWaiters condition waiters).place = state.place := rfl

omit [DecidableEq Thread] in
@[simp]
theorem setWaiters_waiters (condition : Condition) (waiters : List Thread) :
    (state.setWaiters condition waiters).waiters =
      Function.update state.waiters condition waiters := rfl

omit [DecidableEq Thread] in
@[simp]
theorem setWaiters_shared (condition : Condition) (waiters : List Thread) :
    (state.setWaiters condition waiters).shared = state.shared := rfl

end Projections

/-- Nobody is inside. -/
def Vacant (state : Mesa Thread Condition Point Shared) : Prop :=
  ∀ thread, (state.place thread).inGuard = false

instance [Fintype Thread] (state : Mesa Thread Condition Point Shared) : Decidable state.Vacant :=
  inferInstanceAs (Decidable (∀ _, _))

/-- A client step outside the monitor. -/
def outerStep (state : Mesa Thread Condition Point Shared) (thread : Thread) :
    OuterCall Point Shared → Mesa Thread Condition Point Shared
  | .compute next shared => (state.setShared shared).move thread (.outside next)
  | .lockAcquire next => state.move thread (.entering next)
  | .lockTryAcquire success failure =>
      state.move thread (.trying success failure)

/-- A client step inside the monitor. -/
def innerStep (state : Mesa Thread Condition Point Shared) (thread : Thread) :
    InnerCall Condition Point Shared → Mesa Thread Condition Point Shared
  | .compute next shared => (state.setShared shared).move thread (.inside next)
  | .lockRelease next => state.move thread (.outside next)
  | .condWait condition next => state.move thread (.joining condition next)
  | .condSignal condition next =>
      state.move thread (.signalling condition next)
  | .condBroadcast condition next =>
      state.move thread (.broadcasting condition next)

variable [Fintype Thread] [DecidableEq Condition]

/-- One step of the monitor. -/
def step (client : Client Thread Condition Point Shared Choice)
    (state : Mesa Thread Condition Point Shared) :
    MesaTurn Thread Choice → Option (Mesa Thread Condition Point Shared)
  | .call thread choice =>
      match state.place thread with
      | .outside point =>
          some <| state.outerStep thread
            (client.outer thread point state.shared choice)
      | .inside point =>
          some <| state.innerStep thread
            (client.inner thread point state.shared choice)
      | _ => none
  | .act thread =>
      match state.place thread with
      | .entering next =>
          if state.Vacant then some (state.move thread (.inside next))
          else none
      | .trying success _ => some (state.move thread (.entering success))
      | .joining condition next =>
          some <|
            (state.setWaiters condition
              (state.waiters condition ++ [thread])).move
                thread (.waiting condition next)
      | .waiting condition next =>
          if thread ∉ state.waiters condition ∧ state.Vacant then
            some (state.move thread (.inside next))
          else none
      | .signalling condition next =>
          some <|
            (state.setWaiters condition (state.waiters condition).tail).move
              thread (.inside next)
      | .broadcasting condition next =>
          if state.waiters condition = [] then
            some (state.move thread (.inside next))
          else
            some <| state.setWaiters condition (state.waiters condition).tail
      | _ => none
  | .refuse thread =>
      match state.place thread with
      | .trying _ failure => some (state.move thread (.outside failure))
      | _ => none

end Mesa

section Refinement

variable [Fintype Thread] [DecidableEq Thread] [DecidableEq Condition]

/-- All runs of a client of the monitor from the given data. -/
def mesaSystem (client : Client Thread Condition Point Shared Choice) (shared : Shared) :
    TransitionSystem (Mesa Thread Condition Point Shared)
      (MesaTurn Thread Choice) where
  initial state :=
    state =
      { place := fun thread => .outside (client.start thread)
        waiters := fun _ => []
        shared := shared }
  step := Mesa.step client

section Alone

variable {client : Client Thread Condition Point Shared Choice}
variable {state target : Mesa Thread Condition Point Shared}
variable {current : Thread}

/-- At most one thread is inside. -/
def Mesa.Alone (state : Mesa Thread Condition Point Shared) : Prop :=
  ∀ left right,
    (state.place left).inGuard = true →
    (state.place right).inGuard = true →
    left = right

omit [Fintype Thread] [DecidableEq Condition] in
/-- A thread gets inside only from the inside or while nobody is there. -/
theorem Mesa.Alone.move (alone : state.Alone) {place : Place Condition Point}
    (allowed : (state.place current).inGuard = true ∨ state.Vacant ∨ place.inGuard = false) :
    (state.move current place).Alone := by
  have before :
      ∀ thread, ((state.move current place).place thread).inGuard = true →
        (thread = current ∧ place.inGuard = true) ∨
          (state.place thread).inGuard = true := by
    intro thread inside
    by_cases same : thread = current
    · subst same
      exact .inl ⟨rfl, by simpa using inside⟩
    · exact .inr (by simpa [same] using inside)
  intro left right leftInside rightInside
  unfold Mesa.Vacant at allowed
  rcases before left leftInside with ⟨rfl, entered⟩ | leftWas
  · rcases before right rightInside with ⟨rfl, -⟩ | rightWas
    · rfl
    · rcases allowed with inside | vacant | out
      · exact alone left right inside rightWas
      · simp [vacant right] at rightWas
      · simp [out] at entered
  · rcases before right rightInside with ⟨rfl, entered⟩ | rightWas
    · rcases allowed with inside | vacant | out
      · exact alone left right leftWas inside
      · simp [vacant left] at leftWas
      · simp [out] at entered
    · exact alone left right leftWas rightWas

theorem Mesa.Alone.step (alone : state.Alone) {turn : MesaTurn Thread Choice}
    (moved : state.step client turn = some target) : target.Alone := by
  cases turn with
  | call current choice =>
      cases here : state.place current with
      | outside point =>
          simp only [Mesa.step, here, Option.some.injEq] at moved
          subst moved
          cases client.outer current point state.shared choice with
          | compute next shared =>
              exact Mesa.Alone.move alone (.inr (.inr rfl))
          | lockAcquire next => exact alone.move (.inr (.inr rfl))
          | lockTryAcquire success failure =>
              exact alone.move (.inr (.inr rfl))
      | inside point =>
          simp only [Mesa.step, here, Option.some.injEq] at moved
          subst moved
          have inside : (state.place current).inGuard = true := by
            rw [here]
            rfl
          cases client.inner current point state.shared choice with
          | compute next shared => exact Mesa.Alone.move alone (.inl inside)
          | _ => exact alone.move (.inl inside)
      | _ =>
          simp [Mesa.step, here] at moved
  | act current =>
      cases here : state.place current with
      | entering next =>
          simp only [Mesa.step, here, Option.ite_none_right_eq_some, Option.some.injEq] at moved
          obtain ⟨vacant, rfl⟩ := moved
          exact alone.move (.inr (.inl vacant))
      | trying success failure =>
          simp only [Mesa.step, here, Option.some.injEq] at moved
          subst moved
          exact alone.move (.inr (.inr rfl))
      | joining condition next =>
          simp only [Mesa.step, here, Option.some.injEq] at moved
          subst moved
          exact Mesa.Alone.move alone (.inr (.inr rfl))
      | waiting condition next =>
          simp only [Mesa.step, here, Option.ite_none_right_eq_some, Option.some.injEq] at moved
          obtain ⟨⟨-, vacant⟩, rfl⟩ := moved
          exact alone.move (.inr (.inl vacant))
      | signalling condition next =>
          simp only [Mesa.step, here, Option.some.injEq] at moved
          subst moved
          exact Mesa.Alone.move alone (.inl (by simp [here, Place.inGuard]))
      | broadcasting condition next =>
          simp only [Mesa.step, here] at moved
          split at moved
          · obtain rfl := Option.some.inj moved
            exact alone.move (.inl (by simp [here, Place.inGuard]))
          · obtain rfl := Option.some.inj moved
            exact alone
      | _ =>
          simp [Mesa.step, here] at moved
  | refuse current =>
      cases here : state.place current with
      | trying success failure =>
          simp only [Mesa.step, here, Option.some.injEq] at moved
          subst moved
          exact alone.move (.inr (.inr rfl))
      | _ =>
          simp [Mesa.step, here] at moved

theorem Mesa.alone_of_reachable {shared : Shared}
    (reachable : (mesaSystem client shared).Reachable state) :
    state.Alone := by
  refine reachable.invariant Mesa.Alone ?_ ?_
  · rintro state rfl left right inside
    cases inside
  · intro state turn target _ alone moved
    exact alone.step moved

end Alone

/-- What a client sees of a point of the monitor code. -/
def MonitorPoint.place : MonitorPoint Thread Condition Point → Place Condition Point
  | .outside point => .outside point
  | .inside point => .inside point
  | .lockAcquire (.client next) => .entering next
  | .lockAcquire (.condWait condition next) => .waiting condition next
  | .lockAcquired (.client next) => .entering next
  | .lockAcquired (.condWait condition next) => .waiting condition next
  | .lockTryAcquire success failure => .trying success failure
  | .lockTryAcquired success => .entering success
  | .lockRelease (.client next) => .outside next
  | .lockRelease (.condWait condition next) => .waiting condition next
  | .lockReleased (.client next) => .outside next
  | .lockReleased (.condWait condition next) => .waiting condition next
  | .condWait condition next => .joining condition next
  | .condWaitPush condition next => .joining condition next
  | .condWaitDown condition next => .waiting condition next
  | .condSignal condition (.client next) => .signalling condition next
  | .condSignal _ (.condBroadcast condition next) =>
      .broadcasting condition next
  | .condSignalUp _ (.client next) => .inside next
  | .condSignalUp _ (.condBroadcast condition next) =>
      .broadcasting condition next
  | .condBroadcast condition next => .broadcasting condition next

/-- What a client sees of a thread of the monitor code. -/
def placeOf : MonitorControl Thread Condition Point → Place Condition Point
  | .running point => point.place
  | .semaDown _ next => next.place
  | .asleep _ next => next.place
  | .failed => .stopped

omit [Fintype Thread] [DecidableEq Thread] [DecidableEq Condition] in
@[simp]
theorem placeOf_wake (control : MonitorControl Thread Condition Point) :
    placeOf control.wake = placeOf control := by
  cases control <;> rfl

/-- What the clients see of a machine that runs the monitor code. -/
def mesaImage (machine : MonitorMachine Thread Condition Point Shared) :
    Mesa Thread Condition Point Shared where
  place thread := placeOf (machine.control thread)
  waiters := machine.data.waiters
  shared := machine.data.shared

omit [Fintype Thread] [DecidableEq Thread] [DecidableEq Condition] in
/-- A thread in the loop of `sema_down` is not inside the monitor. -/
theorem DownShape.not_inGuard {owner : Thread}
    {id : SemaId LockSema Thread} {next : MonitorPoint Thread Condition Point}
    (shape : DownShape owner id next) : next.place.inGuard = false := by
  cases id with
  | shared sema =>
      obtain ⟨caller, rfl⟩ := shape
      cases caller <;> rfl
  | frame frame =>
      obtain ⟨-, condition, here, rfl⟩ := shape
      rfl

omit [Fintype Thread] [DecidableEq Thread] [DecidableEq Condition] in
/-- Who is inside the monitor holds the lock. -/
theorem ControlShape.lockPhase_of_inGuard {owner : Thread}
    {control : MonitorControl Thread Condition Point} (shape : ControlShape owner control)
    (inside : (placeOf control).inGuard = true) :
    lockPhase control = .holding := by
  cases control with
  | running point =>
      cases point with
      | outside | lockTryAcquire | lockTryAcquired | condWaitDown =>
          simp [placeOf, MonitorPoint.place, Place.inGuard] at inside
      | lockAcquire caller | lockAcquired caller | lockReleased caller =>
          cases caller <;>
            simp [placeOf, MonitorPoint.place, Place.inGuard] at inside
      | _ => rfl
  | semaDown id next =>
      rw [placeOf, DownShape.not_inGuard shape] at inside
      cases inside
  | asleep id next =>
      rw [placeOf, DownShape.not_inGuard shape] at inside
      cases inside
  | failed =>
      cases inside

/-- The inner loop of `cond_broadcast` signals the condition of the
broadcast. -/
def LoopShape (control : MonitorControl Thread Condition Point) : Prop :=
  ∀ condition broadcast next,
    control = .running (.condSignal condition (.condBroadcast broadcast next)) →
      condition = broadcast

omit [Fintype Thread] [DecidableEq Thread] in
/-- The threads in `cond_wait` are those that their client sees waiting. -/
theorem inCondWait_iff
    {owner : Thread} {control : MonitorControl Thread Condition Point}
    (shape : ControlShape owner control) (condition : Condition) :
    inCondWait condition control ↔ (placeOf control).waitsOn condition = true := by
  have down :
      ∀ {id next}, DownShape owner id next →
        ((waitStage (.semaDown id next :
            MonitorControl Thread Condition Point)).on condition ↔
          next.place.waitsOn condition = true) := by
    intro id next shape
    cases id with
    | shared sema =>
        obtain ⟨caller, rfl⟩ := shape
        cases caller <;>
          simp [waitStage, MonitorPoint.waitStage, WaitStage.on, MonitorPoint.place, Place.waitsOn]
    | frame frame =>
        obtain ⟨-, here, point, rfl⟩ := shape
        simp [waitStage, MonitorPoint.waitStage, WaitStage.on, beforeDown,
          MonitorPoint.place, Place.waitsOn]
  cases control with
  | running point =>
      cases point with
      | lockAcquire caller | lockAcquired caller | lockRelease caller
      | lockReleased caller =>
          cases caller <;>
            simp [inCondWait, waitStage, MonitorPoint.waitStage,
              WaitStage.on, placeOf, MonitorPoint.place, Place.waitsOn]
      | condSignal condition caller | condSignalUp waiter caller =>
          cases caller <;>
            simp [inCondWait, waitStage, MonitorPoint.waitStage,
              WaitStage.on, placeOf, MonitorPoint.place, Place.waitsOn]
      | _ =>
          simp [inCondWait, waitStage, MonitorPoint.waitStage, WaitStage.on,
            placeOf, MonitorPoint.place, Place.waitsOn]
  | semaDown id next => exact down shape
  | asleep id next =>
      have shape : DownShape owner id next := shape
      cases id <;> exact down shape
  | failed => simp [inCondWait, waitStage, WaitStage.on, placeOf, Place.waitsOn]

variable {client : Client Thread Condition Point Shared Choice}
variable {machine target : MonitorMachine Thread Condition Point Shared}
variable {current : Thread} {shared : Shared}

omit [Fintype Thread] in
theorem loopShape_of_reachable
    (reachable : (monitorSystem client shared).Reachable machine)
    (thread : Thread) : LoopShape (machine.control thread) := by
  revert thread
  let sound : Thread → MonitorControl Thread Condition Point → Prop :=
    fun _ control => LoopShape control
  refine reachable.invariant (fun machine => ∀ thread, sound thread (machine.control thread)) ?_ ?_
  · rintro machine rfl thread
    simp [sound, LoopShape, monitorInitial]
  · intro machine turn target reached all moved
    have awake :
        ∀ thread control, sound thread control →
          sound thread control.wake := by
      intro _ control
      cases control <;> simp [sound, LoopShape, Control.wake]
    obtain ⟨current, moved⟩ := MonitorStep.of_step moved
    cases moved with
    | acquireStore =>
        rename_i caller _
        refine forall_update_control sound all ?_
        cases caller <;> simp [sound, LoopShape, LockCaller.acquired]
    | releaseUp =>
        rename_i caller _
        refine forall_update_control sound (forall_semaUp_control sound awake all _) ?_
        cases caller <;> simp [sound, LoopShape, LockCaller.released]
    | signalUp =>
        rename_i caller _
        refine forall_update_control sound (forall_semaUp_control sound awake all _) ?_
        cases caller <;> simp [sound, LoopShape, SignalCaller.signalled]
    | signalNone =>
        rename_i caller _ _ _
        refine forall_update_control sound all ?_
        cases caller <;> simp [sound, LoopShape, SignalCaller.signalled]
    | broadcastNext =>
        refine forall_update_control sound all ?_
        simp +contextual [sound, LoopShape]
    | @downTake id next here =>
        have shape := WellShaped.of_reachable reached current
        rw [here] at shape
        refine forall_update_control sound all ?_
        cases id with
        | shared sema =>
            obtain ⟨caller, rfl⟩ := shape
            simp [sound, LoopShape]
        | frame owner =>
            obtain ⟨-, condition, next, rfl⟩ := shape
            simp [sound, LoopShape]
    | _ =>
        refine forall_update_control sound all ?_
        simp [sound, LoopShape]

omit [Fintype Thread] [DecidableEq Condition] in
@[simp]
theorem mesaImage_setControl
    (control : MonitorControl Thread Condition Point) :
    mesaImage (machine.setControl current control) =
      (mesaImage machine).move current (placeOf control) := by
  refine Mesa.ext ?_ rfl rfl
  funext thread
  by_cases same : thread = current
  · subst same
    simp [mesaImage, Mesa.move]
  · simp [mesaImage, Mesa.move, same]

omit [Fintype Thread] [DecidableEq Condition] in
@[simp]
theorem mesaImage_semaUp (id : SemaId LockSema Thread) :
    mesaImage (machine.semaUp id) = mesaImage machine := by
  refine Mesa.ext ?_ ?_ ?_
  · funext thread
    simp only [mesaImage, Machine.semaUp_control]
    split
    · exact placeOf_wake _
    · rfl
  · simp [mesaImage]
  · simp [mesaImage]

omit [Fintype Thread] [DecidableEq Condition] in
@[simp]
theorem mesaImage_setSema (id : SemaId LockSema Thread) (sema : Semaphore Thread) :
    mesaImage (machine.setSema id sema) = mesaImage machine := rfl

omit [Fintype Thread] [DecidableEq Thread] [DecidableEq Condition] in
theorem mesaImage_place {control : MonitorControl Thread Condition Point}
    (here : machine.control current = control) :
    (mesaImage machine).place current = placeOf control := by
  rw [← here]
  rfl

omit [Fintype Thread] [DecidableEq Condition] in
theorem Mesa.move_self {state : Mesa Thread Condition Point Shared}
    {place : Place Condition Point} (same : state.place current = place) :
    state.move current place = state := by
  subst same
  simp [Mesa.move]

omit [Fintype Thread] [DecidableEq Thread] in
theorem Mesa.setWaiters_self {state : Mesa Thread Condition Point Shared}
    {condition : Condition} {waiters : List Thread} (same : state.waiters condition = waiters) :
    state.setWaiters condition waiters = state := by
  subst same
  simp [Mesa.setWaiters]

theorem mesaFollows_of_same
    (same : mesaImage target = mesaImage machine) :
    (mesaSystem client shared).Follows (mesaImage machine) (mesaImage target) :=
  Or.inl same

/-- A step of the code that its client does not see. -/
theorem mesaFollows_of_control
    {before after : MonitorControl Thread Condition Point}
    (here : machine.control current = before) (same : placeOf after = placeOf before) :
    (mesaSystem client shared).Follows (mesaImage machine)
      (mesaImage (machine.setControl current after)) := by
  left
  rw [mesaImage_setControl, same, Mesa.move_self (mesaImage_place here)]

theorem mesaFollows_of_turn (turn : MesaTurn Thread Choice)
    (moved : (mesaImage machine).step client turn = some (mesaImage target)) :
    (mesaSystem client shared).Follows (mesaImage machine) (mesaImage target) :=
  Or.inr ⟨turn, moved⟩

/-- A step that its client takes outside. -/
theorem mesaFollows_of_outer {point : Point} {choice : Choice} {call : OuterCall Point Shared}
    (here : machine.control current = .running (.outside point))
    (called : client.outer current point machine.data.shared choice = call)
    (image : mesaImage target = (mesaImage machine).outerStep current call) :
    (mesaSystem client shared).Follows (mesaImage machine) (mesaImage target) := by
  refine mesaFollows_of_turn (.call current choice) ?_
  have place := mesaImage_place here
  simp only [Mesa.step, place, placeOf, MonitorPoint.place]
  rw [image, ← called]
  rfl

/-- A step that its client takes inside. -/
theorem mesaFollows_of_inner {point : Point} {choice : Choice}
    {call : InnerCall Condition Point Shared}
    (here : machine.control current = .running (.inside point))
    (called : client.inner current point machine.data.shared choice = call)
    (image : mesaImage target = (mesaImage machine).innerStep current call) :
    (mesaSystem client shared).Follows (mesaImage machine) (mesaImage target) := by
  refine mesaFollows_of_turn (.call current choice) ?_
  have place := mesaImage_place here
  simp only [Mesa.step, place, placeOf, MonitorPoint.place]
  rw [image, ← called]
  rfl

omit [Fintype Thread] [DecidableEq Thread] [DecidableEq Condition] in
/-- Nobody is inside while a thread stands between its successful
`sema_down` and its store to `holder`. -/
theorem vacant_of_taken [Fintype Thread] (shaped : WellShaped machine)
    (safe : LockSafe (lockImage machine)) (taken : lockPhase (machine.control current) = .taken) :
    (mesaImage machine).Vacant := by
  intro thread
  by_contra inside
  rw [Bool.not_eq_false] at inside
  have holding := (shaped thread).lockPhase_of_inGuard inside
  have same : thread = current := by
    apply safe.owner_unique
    · show (lockPhase (machine.control thread)).owns = true
      rw [holding]
      rfl
    · show (lockPhase (machine.control current)).owns = true
      rw [taken]
      rfl
  subst same
  rw [holding] at taken
  cases taken

/-- Every step of the monitor code is a step of the monitor or none. -/
theorem MonitorStep.mesaFollows
    (shaped : WellShaped machine) (loops : ∀ thread, LoopShape (machine.control thread))
    (lockSafe : LockSafe (lockImage machine)) (safe : WaitSafe (waitImage machine))
    (moved : MonitorStep client machine current target) :
    (mesaSystem client shared).Follows (mesaImage machine) (mesaImage target) := by
  cases moved with
  | outerCompute here call =>
      exact mesaFollows_of_outer here call (mesaImage_setControl _)
  | outerAcquire here call =>
      exact mesaFollows_of_outer here call (mesaImage_setControl _)
  | outerTryAcquire here call =>
      exact mesaFollows_of_outer here call (mesaImage_setControl _)
  | innerCompute here call =>
      exact mesaFollows_of_inner here call (mesaImage_setControl _)
  | innerRelease here call =>
      exact mesaFollows_of_inner here call (mesaImage_setControl _)
  | innerWait here call =>
      exact mesaFollows_of_inner here call (mesaImage_setControl _)
  | innerSignal here call =>
      exact mesaFollows_of_inner here call (mesaImage_setControl _)
  | innerBroadcast here call =>
      exact mesaFollows_of_inner here call (mesaImage_setControl _)
  | @acquireEnter caller here =>
      exact mesaFollows_of_control here (by cases caller <;> rfl)
  | @acquireStore caller here =>
      have vacant : (mesaImage machine).Vacant :=
        vacant_of_taken shaped lockSafe (by rw [here]; rfl)
      have place := mesaImage_place here
      cases caller with
      | client next =>
          refine mesaFollows_of_turn (.act current) ?_
          simp only [Mesa.step, place, placeOf, MonitorPoint.place]
          rw [if_pos vacant]
          exact congrArg some (Eq.symm (mesaImage_setControl _))
      | condWait condition next =>
          refine mesaFollows_of_turn (.act current) ?_
          have woken : (waitImage machine).stage current = .woken condition :=
            waitStage_of_here here
          have absent : current ∉ (mesaImage machine).waiters condition :=
            (safe.not_listed_of_idle (by simp [woken])).1 condition
          simp only [Mesa.step, place, placeOf, MonitorPoint.place]
          rw [if_pos ⟨absent, vacant⟩]
          exact congrArg some (Eq.symm (mesaImage_setControl _))
  | tryAcquireTake here =>
      refine mesaFollows_of_turn (.act current) ?_
      have place := mesaImage_place here
      simp only [Mesa.step, place, placeOf, MonitorPoint.place]
      exact congrArg some (Eq.symm (mesaImage_setControl _))
  | tryAcquireFail here =>
      refine mesaFollows_of_turn (.refuse current) ?_
      have place := mesaImage_place here
      simp only [Mesa.step, place, placeOf, MonitorPoint.place]
      exact congrArg some (Eq.symm (mesaImage_setControl _))
  | tryAcquireStore here =>
      have vacant : (mesaImage machine).Vacant :=
        vacant_of_taken shaped lockSafe (by rw [here]; rfl)
      refine mesaFollows_of_turn (.act current) ?_
      have place := mesaImage_place here
      simp only [Mesa.step, place, placeOf, MonitorPoint.place]
      rw [if_pos vacant]
      exact congrArg some (Eq.symm (mesaImage_setControl _))
  | @releaseClear caller here =>
      exact mesaFollows_of_control here (by cases caller <;> rfl)
  | @releaseUp caller here =>
      refine mesaFollows_of_same ?_
      rw [mesaImage_setControl, mesaImage_semaUp]
      refine Mesa.move_self ((mesaImage_place here).trans ?_)
      cases caller <;> rfl
  | waitInit here => exact mesaFollows_of_control here rfl
  | waitPush here =>
      refine mesaFollows_of_turn (.act current) ?_
      have place := mesaImage_place here
      simp only [Mesa.step, place, placeOf, MonitorPoint.place]
      exact congrArg some (Eq.symm (mesaImage_setControl _))
  | waitEnter here => exact mesaFollows_of_control here rfl
  | @signalNone condition caller here holder queue =>
      have place := mesaImage_place here
      cases caller with
      | client next =>
          refine mesaFollows_of_turn (.act current) ?_
          simp only [Mesa.step, place, placeOf, MonitorPoint.place]
          rw [show (mesaImage machine).waiters condition = [] from queue,
            List.tail_nil, Mesa.setWaiters_self queue]
          exact congrArg some (Eq.symm (mesaImage_setControl _))
      | condBroadcast broadcast next =>
          exact mesaFollows_of_control here rfl
  | @signalPop waiter condition caller rest here holder queue =>
      have place := mesaImage_place here
      cases caller with
      | client next =>
          refine mesaFollows_of_turn (.act current) ?_
          simp only [Mesa.step, place, placeOf, MonitorPoint.place]
          rw [show (mesaImage machine).waiters condition = waiter :: rest from queue]
          exact congrArg some (Eq.symm (mesaImage_setControl _))
      | condBroadcast broadcast next =>
          obtain rfl := loops current condition broadcast next here
          refine mesaFollows_of_turn (.act current) ?_
          simp only [Mesa.step, place, placeOf, MonitorPoint.place]
          rw [show (mesaImage machine).waiters condition = waiter :: rest
            from queue, if_neg (List.cons_ne_nil _ _)]
          refine congrArg some (Eq.trans ?_ (Eq.symm (mesaImage_setControl _)))
          exact Eq.symm (Mesa.move_self place)
  | @signalUp waiter caller here =>
      refine mesaFollows_of_same ?_
      rw [mesaImage_setControl, mesaImage_semaUp]
      refine Mesa.move_self ((mesaImage_place here).trans ?_)
      cases caller <;> rfl
  | broadcastDone here queue =>
      refine mesaFollows_of_turn (.act current) ?_
      have place := mesaImage_place here
      simp only [Mesa.step, place, placeOf, MonitorPoint.place]
      rw [if_pos (show (mesaImage machine).waiters _ = [] from queue)]
      exact congrArg some (Eq.symm (mesaImage_setControl _))
  | broadcastNext here => exact mesaFollows_of_control here rfl
  | downSleep here => exact mesaFollows_of_control here rfl
  | downTake here => exact mesaFollows_of_control here rfl
  | assertFail here asserted =>
      exact absurd asserted (monitorAction_ne_assertFail lockSafe here _)

/-- The monitor code refines the monitor, on the runs that pass a test. -/
theorem mesaImage_reachable {shared : Shared} {test : Mesa Thread Condition Point Shared → Bool}
    {machine : MonitorMachine Thread Condition Point Shared}
    (reachable : ((monitorSystem client shared).keep fun machine =>
        test (mesaImage machine)).Reachable machine) :
    ((mesaSystem client shared).keep test).Reachable (mesaImage machine) := by
  refine reachable.image_keep mesaImage ?_ ?_
  · rintro machine rfl
    rfl
  · intro machine turn target reached moved
    obtain ⟨current, moved⟩ := MonitorStep.of_step moved
    exact
      MonitorStep.mesaFollows (.of_reachable reached)
        (loopShape_of_reachable reached) (lockSafe_of_reachable reached)
        (waitSafe_of_reachable reached) moved

omit [Fintype Thread] in
/-- Nobody is inside in a state of the code in which nobody holds the lock. -/
theorem vacant_of_not_holdsLock
    (reachable : (monitorSystem client shared).Reachable machine)
    (unheld : ∀ thread, ¬ holdsLock (machine.control thread)) :
    (mesaImage machine).Vacant := by
  intro thread
  by_contra inside
  rw [Bool.not_eq_false] at inside
  exact unheld thread ((WellShaped.of_reachable reachable thread).lockPhase_of_inGuard inside)

end Refinement

end CS162.Threads

import CS162.Foundation.Tally
import CS162.Foundation.Unsigned
import CS162.Threads.MesaMonitor

/-!
# The readers-writers lock

`rw_lock_acquire` and `rw_lock_release` of `threads/synch.c` as a client of
the guard lock and its two conditions.  A thread may acquire again while it
already holds the lock, as often as it likes; it releases only what it has
acquired.

The counters are C ints and wrap around.  A rule of a step counts without a wrap:
it describes the code where the counters fit.
-/

namespace CS162.Threads

open CS162.Foundation

/-- The counters of `struct rw_lock`. -/
@[ext]
structure RwLock where
  AR : Int
  WR : Int
  AW : Int
  WW : Int
  deriving DecidableEq, Repr

/-- The conditions of `struct rw_lock`. -/
inductive RwCondition where
  | read
  | write
  deriving DecidableEq, Repr

/-- `rw_lock_init`. -/
def rwLockInit : RwLock where
  AR := 0
  WR := 0
  AW := 0
  WW := 0

namespace RwLock

/-- `AR` for readers, `AW` for writers. -/
def active (lock : RwLock) (reader : Bool) : Int :=
  if reader then lock.AR else lock.AW

/-- `WR` for readers, `WW` for writers. -/
def waiting (lock : RwLock) (reader : Bool) : Int :=
  if reader then lock.WR else lock.WW

/-- `AR` or `AW` is changed. -/
def addActive (lock : RwLock) (reader : Bool) (change : Int) : RwLock :=
  if reader then { lock with AR := wrapSigned (lock.AR + change) }
  else { lock with AW := wrapSigned (lock.AW + change) }

/-- `WR` or `WW` is changed. -/
def addWaiting (lock : RwLock) (reader : Bool) (change : Int) : RwLock :=
  if reader then { lock with WR := wrapSigned (lock.WR + change) }
  else { lock with WW := wrapSigned (lock.WW + change) }

/-- The test of the loop in `rw_lock_acquire`. -/
def mustWait (lock : RwLock) (reader : Bool) : Bool :=
  if reader then 0 < wrapSigned (lock.AW + lock.WW)
  else 0 < wrapSigned (lock.AR + lock.AW)

/-- `addActive` without a wrap. -/
def countActive (lock : RwLock) (reader : Bool) (change : Int) : RwLock :=
  if reader then { lock with AR := lock.AR + change }
  else { lock with AW := lock.AW + change }

/-- `addWaiting` without a wrap. -/
def countWaiting (lock : RwLock) (reader : Bool) (change : Int) : RwLock :=
  if reader then { lock with WR := lock.WR + change }
  else { lock with WW := lock.WW + change }

/-- `mustWait` without a wrap. -/
def blocks (lock : RwLock) (reader : Bool) : Bool :=
  if reader then 0 < lock.AW + lock.WW else 0 < lock.AR + lock.AW

/-- The counters and their sums are ints that are not negative. -/
structure Fits (lock : RwLock) : Prop where
  nonneg : 0 ≤ lock.AR ∧ 0 ≤ lock.WR ∧ 0 ≤ lock.AW ∧ 0 ≤ lock.WW
  small : lock.AR + lock.WR + lock.AW + lock.WW < 2 ^ 31

section Wraps

variable {lock : RwLock} {reader : Bool} {change : Int}

theorem addActive_eq (fits : (lock.countActive reader change).Fits) :
    lock.addActive reader change = lock.countActive reader change := by
  obtain ⟨nonneg, small⟩ := fits
  cases reader <;> simp [countActive] at nonneg small <;>
    simp only [addActive, countActive, if_true, Bool.false_eq_true, if_false] <;>
    rw [wrapSigned_of_lt (by omega) (by omega)]

theorem addWaiting_eq (fits : (lock.countWaiting reader change).Fits) :
    lock.addWaiting reader change = lock.countWaiting reader change := by
  obtain ⟨nonneg, small⟩ := fits
  cases reader <;> simp [countWaiting] at nonneg small <;>
    simp only [addWaiting, countWaiting, if_true, Bool.false_eq_true, if_false] <;>
    rw [wrapSigned_of_lt (by omega) (by omega)]

theorem mustWait_eq (fits : lock.Fits) : lock.mustWait reader = lock.blocks reader := by
  obtain ⟨nonneg, small⟩ := fits
  rw [mustWait, blocks, wrapSigned_of_lt (by omega) (by omega),
    wrapSigned_of_lt (by omega) (by omega)]

end Wraps

end RwLock

/-- The condition that a reader or a writer waits on. -/
def rwCondition (reader : Bool) : RwCondition :=
  if reader then .read else .write

/-- The program points of the two functions. -/
inductive RwPc where
  | idle
  /-- `rw_lock_acquire`, before the test of its loop. -/
  | acquireTest (reader : Bool)
  /-- Before `WR++` or `WW++`. -/
  | acquireWaiting (reader : Bool)
  /-- Before `cond_wait`. -/
  | acquireCondWait (reader : Bool)
  /-- Before `WR--` or `WW--`. -/
  | acquireWaited (reader : Bool)
  /-- Before `AR++` or `AW++`. -/
  | acquireInc (reader : Bool)
  /-- Before `lock_release` in `rw_lock_acquire`. -/
  | acquireUnlock (reader : Bool)
  /-- `rw_lock_release`, before `AR--` or `AW--`. -/
  | releaseDec (reader : Bool)
  /-- Before it decides whom to wake. -/
  | releaseWake (reader : Bool)
  /-- Before `lock_release` in `rw_lock_release`. -/
  | releaseUnlock (reader : Bool)
  deriving DecidableEq, Repr

/-- How often a thread has acquired the lock and not yet released it, as a
reader and as a writer. -/
@[ext]
structure Holds where
  readers : Nat
  writers : Nat
  deriving DecidableEq, Repr

namespace Holds

def count (holds : Holds) (reader : Bool) : Nat :=
  if reader then holds.readers else holds.writers

def add (holds : Holds) (reader : Bool) : Holds :=
  if reader then { holds with readers := holds.readers + 1 }
  else { holds with writers := holds.writers + 1 }

def drop (holds : Holds) (reader : Bool) : Holds :=
  if reader then { holds with readers := holds.readers - 1 }
  else { holds with writers := holds.writers - 1 }

end Holds

/-- A program point together with what its thread holds. -/
@[ext]
structure RwPoint where
  pc : RwPc
  holds : Holds
  deriving DecidableEq, Repr

/-- The calls that a thread can choose between. -/
inductive RwCall where
  | acquire (reader : Bool)
  | release (reader : Bool)
  deriving DecidableEq, Repr

/-- A thread outside calls one of the two functions; a release must match an
earlier acquire of the same kind. -/
def rwOuter (point : RwPoint) (lock : RwLock) : RwCall → OuterCall RwPoint RwLock
  | .acquire reader => .lockAcquire ⟨.acquireTest reader, point.holds⟩
  | .release reader =>
      if 0 < point.holds.count reader then
        .lockAcquire ⟨.releaseDec reader, point.holds⟩
      else .compute point lock

/-- The two functions inside the guard lock. -/
def rwInner (point : RwPoint) (lock : RwLock) : InnerCall RwCondition RwPoint RwLock :=
  match point.pc with
  | .idle => .lockRelease point
  | .acquireTest reader =>
      if lock.mustWait reader then
        .compute ⟨.acquireWaiting reader, point.holds⟩ lock
      else .compute ⟨.acquireInc reader, point.holds⟩ lock
  | .acquireWaiting reader =>
      .compute ⟨.acquireCondWait reader, point.holds⟩
        (lock.addWaiting reader 1)
  | .acquireCondWait reader =>
      .condWait (rwCondition reader) ⟨.acquireWaited reader, point.holds⟩
  | .acquireWaited reader =>
      .compute ⟨.acquireTest reader, point.holds⟩
        (lock.addWaiting reader (-1))
  | .acquireInc reader =>
      .compute ⟨.acquireUnlock reader, point.holds⟩
        (lock.addActive reader 1)
  | .acquireUnlock reader =>
      .lockRelease ⟨.idle, point.holds.add reader⟩
  | .releaseDec reader =>
      .compute ⟨.releaseWake reader, point.holds.drop reader⟩
        (lock.addActive reader (-1))
  | .releaseWake true =>
      if lock.AR = 0 ∧ 0 < lock.WW then
        .condSignal .write ⟨.releaseUnlock true, point.holds⟩
      else .compute ⟨.releaseUnlock true, point.holds⟩ lock
  | .releaseWake false =>
      if 0 < lock.WW then
        .condSignal .write ⟨.releaseUnlock false, point.holds⟩
      else if 0 < lock.WR then
        .condBroadcast .read ⟨.releaseUnlock false, point.holds⟩
      else .compute ⟨.releaseUnlock false, point.holds⟩ lock
  | .releaseUnlock _ => .lockRelease ⟨.idle, point.holds⟩

/-- Threads that acquire and release one readers-writers lock. -/
def rwClient (Thread : Type) : Client Thread RwCondition RwPoint RwLock RwCall where
  start _ := ⟨.idle, ⟨0, 0⟩⟩
  outer _ point lock call := rwOuter point lock call
  inner _ point lock _ := rwInner point lock

section Steps

variable {Thread : Type} [DecidableEq Thread]

/-- What the clients of the lock see of it. -/
abbrev RwMesa (Thread : Type) := Mesa Thread RwCondition RwPoint RwLock

/-- The places of a thread of the readers-writers lock. -/
def RwPlace : Place RwCondition RwPoint → Prop
  | .outside point => point.pc = .idle
  | .entering next =>
      ∃ reader, next.pc = .acquireTest reader ∨
        next.pc = .releaseDec reader ∧ 0 < next.holds.count reader
  | .trying _ _ => False
  | .inside point =>
      point.pc ≠ .idle ∧
        ∀ reader, point.pc = .releaseDec reader →
          0 < point.holds.count reader
  | .joining condition next =>
      ∃ reader, condition = rwCondition reader ∧
        next.pc = .acquireWaited reader
  | .waiting condition next =>
      ∃ reader, condition = rwCondition reader ∧
        next.pc = .acquireWaited reader
  | .signalling condition next =>
      condition = .write ∧ ∃ reader, next.pc = .releaseUnlock reader
  | .broadcasting condition next =>
      condition = .read ∧ next.pc = .releaseUnlock false
  | .stopped => False

/-- One rule for each branch of the two functions. -/
inductive RwStep (state : RwMesa Thread) (current : Thread) : RwMesa Thread → Prop
  | callAcquire {holds : Holds} (reader : Bool) :
      state.place current = .outside ⟨.idle, holds⟩ →
      RwStep state current
        (state.move current (.entering ⟨.acquireTest reader, holds⟩))
  | callRelease {holds : Holds} {reader : Bool} :
      state.place current = .outside ⟨.idle, holds⟩ →
      0 < holds.count reader →
      RwStep state current
        (state.move current (.entering ⟨.releaseDec reader, holds⟩))
  | callNothing : RwStep state current state
  | enter {next : RwPoint} :
      state.place current = .entering next →
      state.Vacant →
      RwStep state current (state.move current (.inside next))
  | testWait {holds : Holds} {reader : Bool} :
      state.place current = .inside ⟨.acquireTest reader, holds⟩ →
      state.shared.blocks reader = true →
      RwStep state current
        (state.move current (.inside ⟨.acquireWaiting reader, holds⟩))
  | testPass {holds : Holds} {reader : Bool} :
      state.place current = .inside ⟨.acquireTest reader, holds⟩ →
      state.shared.blocks reader = false →
      RwStep state current
        (state.move current (.inside ⟨.acquireInc reader, holds⟩))
  | incWaiting {holds : Holds} {reader : Bool} :
      state.place current = .inside ⟨.acquireWaiting reader, holds⟩ →
      RwStep state current
        ((state.setShared (state.shared.countWaiting reader 1)).move current
          (.inside ⟨.acquireCondWait reader, holds⟩))
  | condWait {holds : Holds} {reader : Bool} :
      state.place current = .inside ⟨.acquireCondWait reader, holds⟩ →
      RwStep state current
        (state.move current
          (.joining (rwCondition reader) ⟨.acquireWaited reader, holds⟩))
  | join {holds : Holds} {reader : Bool} :
      state.place current = .joining (rwCondition reader) ⟨.acquireWaited reader, holds⟩ →
      RwStep state current
        ((state.setWaiters (rwCondition reader)
          (state.waiters (rwCondition reader) ++ [current])).move current
            (.waiting (rwCondition reader) ⟨.acquireWaited reader, holds⟩))
  | wake {holds : Holds} {reader : Bool} :
      state.place current = .waiting (rwCondition reader) ⟨.acquireWaited reader, holds⟩ →
      current ∉ state.waiters (rwCondition reader) →
      state.Vacant →
      RwStep state current
        (state.move current (.inside ⟨.acquireWaited reader, holds⟩))
  | decWaiting {holds : Holds} {reader : Bool} :
      state.place current = .inside ⟨.acquireWaited reader, holds⟩ →
      RwStep state current
        ((state.setShared (state.shared.countWaiting reader (-1))).move current
          (.inside ⟨.acquireTest reader, holds⟩))
  | incActive {holds : Holds} {reader : Bool} :
      state.place current = .inside ⟨.acquireInc reader, holds⟩ →
      RwStep state current
        ((state.setShared (state.shared.countActive reader 1)).move current
          (.inside ⟨.acquireUnlock reader, holds⟩))
  | acquireReturn {holds : Holds} {reader : Bool} :
      state.place current = .inside ⟨.acquireUnlock reader, holds⟩ →
      RwStep state current
        (state.move current (.outside ⟨.idle, holds.add reader⟩))
  | decActive {holds : Holds} {reader : Bool} :
      state.place current = .inside ⟨.releaseDec reader, holds⟩ →
      RwStep state current
        ((state.setShared (state.shared.countActive reader (-1))).move current
          (.inside ⟨.releaseWake reader, holds.drop reader⟩))
  | wakeWriter {holds : Holds} {reader : Bool} :
      state.place current = .inside ⟨.releaseWake reader, holds⟩ →
      (reader = true → state.shared.AR = 0) →
      0 < state.shared.WW →
      RwStep state current
        (state.move current (.signalling .write ⟨.releaseUnlock reader, holds⟩))
  | wakeReaders {holds : Holds} :
      state.place current = .inside ⟨.releaseWake false, holds⟩ →
      ¬ 0 < state.shared.WW →
      0 < state.shared.WR →
      RwStep state current
        (state.move current
          (.broadcasting .read ⟨.releaseUnlock false, holds⟩))
  | wakeNobody {holds : Holds} {reader : Bool} :
      state.place current = .inside ⟨.releaseWake reader, holds⟩ →
      (reader = true → ¬ (state.shared.AR = 0 ∧ 0 < state.shared.WW)) →
      (reader = false → ¬ 0 < state.shared.WW ∧ ¬ 0 < state.shared.WR) →
      RwStep state current
        (state.move current (.inside ⟨.releaseUnlock reader, holds⟩))
  | signal {holds : Holds} {reader : Bool} :
      state.place current = .signalling .write ⟨.releaseUnlock reader, holds⟩ →
      RwStep state current
        ((state.setWaiters .write (state.waiters .write).tail).move current
          (.inside ⟨.releaseUnlock reader, holds⟩))
  | broadcastPop {holds : Holds} :
      state.place current = .broadcasting .read ⟨.releaseUnlock false, holds⟩ →
      state.waiters .read ≠ [] →
      RwStep state current
        (state.setWaiters .read (state.waiters .read).tail)
  | broadcastDone {holds : Holds} :
      state.place current = .broadcasting .read ⟨.releaseUnlock false, holds⟩ →
      state.waiters .read = [] →
      RwStep state current
        (state.move current (.inside ⟨.releaseUnlock false, holds⟩))
  | releaseReturn {holds : Holds} {reader : Bool} :
      state.place current = .inside ⟨.releaseUnlock reader, holds⟩ →
      RwStep state current (state.move current (.outside ⟨.idle, holds⟩))

variable [Fintype Thread]

omit [Fintype Thread] in
/-- A step inside the guard lock is one of the rules, if the counters fit before
and would fit after it without a wrap. -/
theorem RwStep.of_inner {state target : RwMesa Thread} {current : Thread} {point : RwPoint}
    (here : state.place current = .inside point) (shape : RwPlace (state.place current))
    (fits : state.shared.Fits)
    (room :
      ∀ counted, RwStep state current counted → counted.place = target.place → counted.shared.Fits)
    (moved : state.innerStep current (rwInner point state.shared) = target) :
    RwStep state current target := by
  obtain ⟨pc, holds⟩ := point
  rw [here] at shape
  subst moved
  have places : ∀ counted stored next,
        ((state.setShared counted).move current next).place =
          ((state.setShared stored).move current next).place := by
    simp
  cases pc with
  | idle => exact absurd rfl shape.1
  | acquireTest reader =>
      cases waits : state.shared.blocks reader with
      | true =>
          simp only [rwInner, RwLock.mustWait_eq fits, waits, if_true]
          exact .testWait here waits
      | false =>
          simp only [rwInner, RwLock.mustWait_eq fits, waits, Bool.false_eq_true, if_false]
          exact .testPass here waits
  | acquireWaiting reader =>
      have step := RwStep.incWaiting here
      simp only [rwInner, RwLock.addWaiting_eq (room _ step (places _ _ _))]
      exact step
  | acquireCondWait reader => exact .condWait here
  | acquireWaited reader =>
      have step := RwStep.decWaiting here
      simp only [rwInner, RwLock.addWaiting_eq (room _ step (places _ _ _))]
      exact step
  | acquireInc reader =>
      have step := RwStep.incActive here
      simp only [rwInner, RwLock.addActive_eq (room _ step (places _ _ _))]
      exact step
  | acquireUnlock reader => exact .acquireReturn here
  | releaseDec reader =>
      have step := RwStep.decActive here
      simp only [rwInner, RwLock.addActive_eq (room _ step (places _ _ _))]
      exact step
  | releaseWake reader =>
      cases reader with
      | true =>
          by_cases last : state.shared.AR = 0 ∧ 0 < state.shared.WW
          · simp only [rwInner, if_pos last]
            exact .wakeWriter here (fun _ => last.1) last.2
          · simp only [rwInner, if_neg last]
            exact .wakeNobody here (fun _ => last) (by simp)
      | false =>
          by_cases writers : 0 < state.shared.WW
          · simp only [rwInner, if_pos writers]
            exact .wakeWriter here (by simp) writers
          · by_cases readers : 0 < state.shared.WR
            · simp only [rwInner, if_neg writers, if_pos readers]
              exact .wakeReaders here writers readers
            · simp only [rwInner, if_neg writers, if_neg readers]
              exact .wakeNobody here (by simp) (fun _ => ⟨writers, readers⟩)
  | releaseUnlock reader => exact .releaseReturn here

/-- Every step of the lock is one of the rules for some thread, if the counters
fit. -/
theorem RwStep.of_step {state target : RwMesa Thread} {turn : MesaTurn Thread RwCall}
    (shape : ∀ thread, RwPlace (state.place thread)) (fits : state.shared.Fits)
    (room :
      ∀ current counted, RwStep state current counted →
        counted.place = target.place → counted.shared.Fits)
    (moved : state.step (rwClient Thread) turn = some target) :
    ∃ current, RwStep state current target := by
  cases turn with
  | call current call =>
      refine ⟨current, ?_⟩
      have here := shape current
      cases place : state.place current with
      | outside point =>
          obtain ⟨pc, holds⟩ := point
          rw [place] at here
          obtain rfl : pc = .idle := here
          simp only [Mesa.step, place, Option.some.injEq] at moved
          subst moved
          cases call with
          | acquire reader => exact .callAcquire reader place
          | release reader =>
              simp only [rwClient, rwOuter]
              by_cases held : 0 < holds.count reader
              · rw [if_pos held]
                exact .callRelease place held
              · rw [if_neg held]
                simp only [Mesa.outerStep]
                rw [Mesa.move_self (by simpa using place)]
                exact .callNothing
      | inside point =>
          simp only [Mesa.step, place, Option.some.injEq] at moved
          exact .of_inner place (shape current) fits (room current) moved
      | _ =>
          simp [Mesa.step, place] at moved
  | act current =>
      refine ⟨current, ?_⟩
      have here := shape current
      cases place : state.place current with
      | entering next =>
          simp only [Mesa.step, place, Option.ite_none_right_eq_some, Option.some.injEq] at moved
          obtain ⟨vacant, rfl⟩ := moved
          exact .enter place vacant
      | joining condition next =>
          rw [place] at here
          obtain ⟨reader, rfl, waited⟩ := here
          obtain ⟨pc, holds⟩ := next
          obtain rfl : pc = _ := waited
          simp only [Mesa.step, place, Option.some.injEq] at moved
          subst moved
          exact .join place
      | waiting condition next =>
          rw [place] at here
          obtain ⟨reader, rfl, waited⟩ := here
          obtain ⟨pc, holds⟩ := next
          obtain rfl : pc = _ := waited
          simp only [Mesa.step, place, Option.ite_none_right_eq_some, Option.some.injEq] at moved
          obtain ⟨⟨released, vacant⟩, rfl⟩ := moved
          exact .wake place released vacant
      | signalling condition next =>
          rw [place] at here
          obtain ⟨rfl, reader, unlocks⟩ := here
          obtain ⟨pc, holds⟩ := next
          obtain rfl : pc = _ := unlocks
          simp only [Mesa.step, place, Option.some.injEq] at moved
          subst moved
          exact .signal place
      | broadcasting condition next =>
          rw [place] at here
          obtain ⟨rfl, unlocks⟩ := here
          obtain ⟨pc, holds⟩ := next
          obtain rfl : pc = _ := unlocks
          simp only [Mesa.step, place] at moved
          by_cases empty : state.waiters .read = []
          · rw [if_pos empty, Option.some.injEq] at moved
            subst moved
            exact .broadcastDone place empty
          · rw [if_neg empty, Option.some.injEq] at moved
            subst moved
            exact .broadcastPop place empty
      | trying success failure =>
          rw [place] at here
          exact here.elim
      | _ =>
          simp [Mesa.step, place] at moved
  | refuse current =>
      have here := shape current
      cases place : state.place current with
      | trying success failure =>
          rw [place] at here
          exact here.elim
      | _ =>
          simp [Mesa.step, place] at moved

omit [Fintype Thread] in
/-- A property of every place survives the change of one place. -/
theorem forall_move {state : RwMesa Thread} {current : Thread}
    {place : Place RwCondition RwPoint} (property : Place RwCondition RwPoint → Prop)
    (all : ∀ thread, property (state.place thread)) (new : property place) (thread : Thread) :
    property ((state.move current place).place thread) := by
  by_cases same : thread = current
  · subst same
    simpa using new
  · simpa [same] using all thread

omit [Fintype Thread] in
theorem RwStep.rwPlace {state target : RwMesa Thread} {current : Thread}
    (shape : ∀ thread, RwPlace (state.place thread))
    (moved : RwStep state current target) (thread : Thread) :
    RwPlace (target.place thread) := by
  have here := shape current
  cases moved with
  | callNothing => exact shape thread
  | broadcastPop => exact shape thread
  | callRelease place held =>
      refine forall_move RwPlace shape ?_ thread
      exact ⟨_, .inr ⟨rfl, held⟩⟩
  | enter place =>
      rw [place] at here
      refine forall_move RwPlace shape ?_ thread
      obtain ⟨reader, test | ⟨dec, held⟩⟩ := here
      · simp [RwPlace, test]
      · simp only [RwPlace, dec]
        refine ⟨by simp, ?_⟩
        rintro _ ⟨⟩
        exact held
  | _ =>
      refine forall_move RwPlace shape ?_ thread
      simp [RwPlace]

end Steps

end CS162.Threads

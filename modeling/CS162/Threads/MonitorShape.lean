import CS162.Threads.MonitorSteps

/-!
# Threads in the loop of `sema_down`

Two facts about every reachable state of a monitor: which semaphore a thread
in the loop of `sema_down` is there for, and that the waiters of a semaphore
are exactly the threads asleep on it.
-/

namespace CS162.Threads

open CS162.Foundation
open Machine

variable {Thread Condition Point Shared Choice : Type}

/-- Which semaphores a thread downs and where it goes on: the lock inside
`lock_acquire`, and its own frame inside `cond_wait`. -/
def DownShape (owner : Thread) : SemaId LockSema Thread → MonitorPoint Thread Condition Point → Prop
  | .shared .lock, next => ∃ caller, next = .lockAcquired caller
  | .frame frame, next =>
      frame = owner ∧ ∃ condition here, next = .lockAcquire (.condWait condition here)

/-- The shape of the control of a thread in the loop of `sema_down`. -/
def ControlShape (owner : Thread) : MonitorControl Thread Condition Point → Prop
  | .running _ => True
  | .semaDown id next => DownShape owner id next
  | .asleep id next => DownShape owner id next
  | .failed => True

theorem ControlShape.wake {owner : Thread} {control : MonitorControl Thread Condition Point}
    (shape : ControlShape owner control) :
    ControlShape owner control.wake := by
  cases control <;> exact shape

section Steps

variable [DecidableEq Thread] [DecidableEq Condition]
variable {client : Client Thread Condition Point Shared Choice}
variable {machine target : MonitorMachine Thread Condition Point Shared}
variable {current : Thread}

omit [DecidableEq Condition] in
/-- A property of every thread's control that waking respects survives the
change of one control. -/
theorem forall_update_control
    (property : Thread → MonitorControl Thread Condition Point → Prop)
    (all : ∀ thread, property thread (machine.control thread))
    {control : MonitorControl Thread Condition Point}
    (new : property current control) (thread : Thread) :
    property thread
      (Function.update machine.control current control thread) := by
  by_cases same : thread = current
  · subst same
    simpa using new
  · simpa [same] using all thread

omit [DecidableEq Condition] in
theorem forall_semaUp_control
    (property : Thread → MonitorControl Thread Condition Point → Prop)
    (wakes : ∀ thread control, property thread control → property thread control.wake)
    (all : ∀ thread, property thread (machine.control thread))
    (id : SemaId LockSema Thread) (thread : Thread) :
    property thread ((machine.semaUp id).control thread) := by
  rw [semaUp_control]
  split
  · exact wakes _ _ (all thread)
  · exact all thread

/-- Every thread in the loop of `sema_down` is there for the lock or for its
own frame. -/
def WellShaped (machine : MonitorMachine Thread Condition Point Shared) :
    Prop :=
  ∀ thread, ControlShape thread (machine.control thread)

omit [DecidableEq Condition] in
theorem WellShaped.update (shaped : WellShaped machine)
    {control : MonitorControl Thread Condition Point}
    (new : ControlShape current control) (thread : Thread) :
    ControlShape thread
      (Function.update machine.control current control thread) :=
  forall_update_control ControlShape shaped new thread

omit [DecidableEq Condition] in
theorem WellShaped.semaUp (shaped : WellShaped machine)
    (id : SemaId LockSema Thread) : WellShaped (machine.semaUp id) :=
  forall_semaUp_control ControlShape (fun _ _ shape => shape.wake) shaped id

theorem WellShaped.step (shaped : WellShaped machine)
    (moved : MonitorStep client machine current target) : WellShaped target := by
  cases moved with
  | acquireEnter =>
      exact shaped.update ⟨_, rfl⟩
  | waitEnter =>
      exact shaped.update ⟨rfl, _, _, rfl⟩
  | @downSleep id next here =>
      have shape := shaped current
      rw [here] at shape
      exact shaped.update shape
  | releaseUp =>
      exact (shaped.semaUp _).update trivial
  | signalUp =>
      exact (shaped.semaUp _).update trivial
  | assertFail =>
      exact shaped.update trivial
  | _ =>
      exact shaped.update trivial

theorem WellShaped.of_reachable {shared : Shared}
    (reachable : (monitorSystem client shared).Reachable machine) :
    WellShaped machine := by
  refine reachable.invariant WellShaped ?_ ?_
  · rintro machine rfl thread
    exact trivial
  · intro machine turn target _ shaped moved
    obtain ⟨current, moved⟩ := MonitorStep.of_step moved
    exact shaped.step moved

/-- The waiters of every semaphore are the threads asleep on it, each once. -/
def QueueSound (machine : MonitorMachine Thread Condition Point Shared) :
    Prop :=
  ∀ id,
    (machine.sema id).waiters.Nodup ∧
      ∀ thread,
        thread ∈ (machine.sema id).waiters ↔ ∃ next, machine.control thread = .asleep id next

/-- The control is not that of a sleeping thread. -/
def Awake (control : MonitorControl Thread Condition Point) : Prop :=
  ∀ id next, control ≠ .asleep id next

omit [DecidableEq Thread] [DecidableEq Condition] in
theorem awake_running (point : MonitorPoint Thread Condition Point) : Awake (.running point) := by
  intro id next
  simp

omit [DecidableEq Thread] [DecidableEq Condition] in
theorem awake_semaDown (id : SemaId LockSema Thread) (next : MonitorPoint Thread Condition Point) :
    Awake (.semaDown id next) := by
  intro other there
  simp

omit [DecidableEq Condition] in
theorem QueueSound.setControl (sound : QueueSound machine)
    {control : MonitorControl Thread Condition Point}
    (before : Awake (machine.control current)) (after : Awake control) :
    QueueSound (machine.setControl current control) := by
  intro id
  refine ⟨(sound id).1, fun thread => ((sound id).2 thread).trans ?_⟩
  by_cases same : thread = current
  · subst same
    simp [before id, after id]
  · simp [same]

omit [DecidableEq Condition] in
theorem QueueSound.setSema (sound : QueueSound machine)
    {id : SemaId LockSema Thread} {sema : Semaphore Thread}
    (same : sema.waiters = (machine.sema id).waiters) :
    QueueSound (machine.setSema id sema) := by
  intro other
  by_cases equal : other = id
  · subst equal
    simpa [same] using sound other
  · simpa [equal] using sound other

omit [DecidableEq Condition] in
/-- Going to sleep puts the thread at the end of the queue. -/
theorem QueueSound.sleep (sound : QueueSound machine) {id : SemaId LockSema Thread}
    {next : MonitorPoint Thread Condition Point} (before : Awake (machine.control current)) :
    QueueSound
      ((machine.setSema id ((machine.sema id).enqueue current)).setControl
        current (.asleep id next)) := by
  have absent : ∀ id, current ∉ (machine.sema id).waiters := by
    intro id member
    obtain ⟨next, asleep⟩ := ((sound id).2 current).mp member
    exact before id next asleep
  intro other
  by_cases equal : other = id
  · subst equal
    obtain ⟨nodup, waiting⟩ := sound other
    refine ⟨?_, fun thread => ?_⟩
    · simpa using List.Nodup.concat (absent other) nodup
    · by_cases same : thread = current
      · subst same
        simp
      · simp [same, waiting thread]
  · obtain ⟨nodup, waiting⟩ := sound other
    refine ⟨by simpa [equal] using nodup, fun thread => ?_⟩
    by_cases same : thread = current
    · subst same
      simp [equal, absent other, Ne.symm equal]
    · simp [equal, same, waiting thread]

omit [DecidableEq Condition] in
/-- An up takes the first waiter off the queue and wakes it. -/
theorem QueueSound.semaUp (sound : QueueSound machine)
    (id : SemaId LockSema Thread) : QueueSound (machine.semaUp id) := by
  intro other
  obtain ⟨nodup, waiting⟩ := sound other
  cases queue : (machine.sema id).waiters with
  | nil =>
      refine ⟨?_, fun thread => ?_⟩
      · by_cases equal : other = id
        · subst equal
          simp [queue]
        · simpa [equal] using nodup
      · rw [semaUp_control, queue]
        by_cases equal : other = id
        · subst equal
          simpa [queue] using waiting thread
        · simpa [equal] using waiting thread
  | cons first rest =>
      obtain ⟨next, asleep⟩ := ((sound id).2 first).mp (by simp [queue])
      by_cases equal : other = id
      · subst equal
        rw [queue, List.nodup_cons] at nodup
        refine ⟨by simpa [queue] using nodup.2, fun thread => ?_⟩
        rw [semaUp_control, queue]
        by_cases same : thread = first
        · subst same
          simp [queue, asleep, Control.wake, nodup.1]
        · have member := waiting thread
          rw [queue, List.mem_cons] at member
          simpa [queue, same, Ne.symm same] using member
      · refine ⟨by simpa [equal] using nodup, fun thread => ?_⟩
        rw [semaUp_control, queue]
        by_cases same : thread = first
        · subst same
          simp [equal, asleep, Control.wake, waiting thread, Ne.symm equal]
        · simpa [equal, same, Ne.symm same] using waiting thread

omit [DecidableEq Condition] in
/-- A running thread moves on without going to sleep. -/
theorem QueueSound.advance (sound : QueueSound machine)
    {point : MonitorPoint Thread Condition Point} (here : machine.control current = .running point)
    {control : MonitorControl Thread Condition Point} (after : Awake control) :
    QueueSound (machine.setControl current control) :=
  sound.setControl (here ▸ awake_running point) after

omit [DecidableEq Condition] in
/-- A running thread ups a semaphore and moves on. -/
theorem QueueSound.advanceUp (sound : QueueSound machine)
    {point next : MonitorPoint Thread Condition Point}
    (here : machine.control current = .running point) (id : SemaId LockSema Thread) :
    QueueSound ((machine.semaUp id).setControl current (.running next)) := by
  refine (sound.semaUp id).setControl ?_ (awake_running next)
  rw [semaUp_control, here]
  split
  · exact awake_running point
  · exact awake_running point

theorem QueueSound.step (shaped : WellShaped machine) (sound : QueueSound machine)
    (moved : MonitorStep client machine current target) :
    QueueSound target := by
  cases moved with
  | outerCompute here => exact sound.advance here (awake_running _)
  | outerAcquire here => exact sound.advance here (awake_running _)
  | outerTryAcquire here => exact sound.advance here (awake_running _)
  | innerCompute here => exact sound.advance here (awake_running _)
  | innerRelease here => exact sound.advance here (awake_running _)
  | innerWait here => exact sound.advance here (awake_running _)
  | innerSignal here => exact sound.advance here (awake_running _)
  | innerBroadcast here => exact sound.advance here (awake_running _)
  | acquireEnter here => exact sound.advance here (awake_semaDown _ _)
  | acquireStore here => exact sound.advance here (awake_running _)
  | tryAcquireTake here =>
      exact (sound.setSema (by rfl)).advance here (awake_running _)
  | tryAcquireFail here => exact sound.advance here (awake_running _)
  | tryAcquireStore here => exact sound.advance here (awake_running _)
  | releaseClear here => exact sound.advance here (awake_running _)
  | releaseUp here => exact sound.advanceUp here _
  | waitInit here =>
      -- nobody else can sleep in the frame of a running thread
      have empty : (machine.sema (.frame current)).waiters = [] := by
        refine List.eq_nil_iff_forall_not_mem.mpr fun thread member => ?_
        obtain ⟨next, asleep⟩ := ((sound (.frame current)).2 thread).mp member
        have shape := shaped thread
        rw [asleep] at shape
        rw [← shape.1, here] at asleep
        cases asleep
      exact (sound.setSema (by rw [empty]; rfl)).advance here
        (awake_running _)
  | waitPush here => exact sound.advance here (awake_running _)
  | waitEnter here => exact sound.advance here (awake_semaDown _ _)
  | signalNone here => exact sound.advance here (awake_running _)
  | signalPop here => exact sound.advance here (awake_running _)
  | signalUp here => exact sound.advanceUp here _
  | broadcastDone here => exact sound.advance here (awake_running _)
  | broadcastNext here => exact sound.advance here (awake_running _)
  | downSleep here => exact sound.sleep (here ▸ awake_semaDown _ _)
  | downTake here =>
      exact (sound.setSema (by rfl)).setControl (here ▸ awake_semaDown _ _)
        (awake_running _)
  | assertFail here =>
      exact sound.advance here (by intro id next; simp)

theorem QueueSound.of_reachable {shared : Shared}
    (reachable : (monitorSystem client shared).Reachable machine) :
    QueueSound machine := by
  refine reachable.invariant QueueSound ?_ ?_
  · rintro machine rfl id
    cases id with
    | shared sema =>
        exact ⟨List.nodup_nil, by simp [monitorInitial, Semaphore.semaInit]⟩
    | frame owner =>
        exact ⟨List.nodup_nil, by simp [monitorInitial, Semaphore.semaInit]⟩
  · intro machine turn target reached sound moved
    obtain ⟨current, moved⟩ := MonitorStep.of_step moved
    exact QueueSound.step (.of_reachable reached) sound moved

end Steps

end CS162.Threads

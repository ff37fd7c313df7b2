import Mathlib.Data.List.Induction
import Mathlib.Logic.Function.Basic
import CS162.Foundation.TransitionSystem
import CS162.Threads.Semaphore

/-!
# The console

`lib/kernel/console.c` after `console_init`, while no panic is under way, with the
functions of `threads/synch.c` on `console_lock`.  Threads can be preempted between
any two steps, and interrupt handlers print without the lock.  A failed `ASSERT`
is `none`.
-/

namespace CS162.Kernel

open CS162.Foundation CS162.Threads

universe u

/-- A call, with what it prints: `vprintf` after formatting, `puts` and `putbuf`
with their characters, and `putchar`. -/
inductive ConsoleCall where
  | vprintf (formatted : List UInt8)
  | puts (characters : List UInt8)
  | putbuf (buffer : List UInt8)
  | putchar (character : UInt8)

/-- The characters that a call gives to `putchar_have_lock`. -/
def ConsoleCall.text : ConsoleCall → List UInt8
  | .vprintf formatted => formatted
  | .puts characters => characters ++ [10]
  | .putbuf buffer => buffer
  | .putchar character => [character]

/-- The next step of a thread: in the body of its innermost call, or outside; in
`acquire_console`, at the test, at `console_lock_depth++`, at the assertions of
`lock_acquire`, in the loop of `sema_down` and at
`lock->holder = thread_current()`; in `release_console`, at the test, at
`console_lock_depth--`, in `lock_release` and at its `sema_up`. -/
inductive ConsolePoint where
  | body
  | acquiring (text : List UInt8)
  | deepening (text : List UInt8)
  | locking (text : List UInt8)
  | downing (text : List UInt8)
  | downed (text : List UInt8)
  | releasing
  | shallowing
  | unlocking
  | upping

/-- The next step of a thread, and what its calls have still to print, the
innermost one first. -/
structure ConsoleThread where
  point : ConsolePoint
  frames : List (List UInt8)

/-- What is seen of the console: an outermost call has got the console, a thread
or a handler has printed a character, an outermost call has given up the
console. -/
inductive ConsoleEvent (Thread : Type u) where
  | began (thread : Thread)
  | printed (thread : Thread) (character : UInt8)
  | handlerPrinted (character : UInt8)
  | ended (thread : Thread)

/-- `console_lock`, `console_lock_depth` and the threads. -/
structure Console (Thread : Type u) where
  lock : Semaphore Thread
  holder : Option Thread
  depth : Nat
  thread : Thread → ConsoleThread
  log : List (ConsoleEvent Thread)

namespace Console

variable {Thread : Type u} [DecidableEq Thread]

def setThread (k : Console Thread) (thread : Thread)
    (point : ConsolePoint) (frames : List (List UInt8)) : Console Thread :=
  { k with
    thread := Function.update k.thread thread
      { point := point, frames := frames } }

def event (k : Console Thread) (event : ConsoleEvent Thread) : Console Thread :=
  { k with log := k.log ++ [event] }

/-- `putchar_have_lock` in a thread. -/
def putcharHaveLock (k : Console Thread) (thread : Thread) (c : UInt8) : Option (Console Thread) :=
  if k.holder = some thread then some (k.event (.printed thread c)) else none

/-- The next step of a thread. -/
def advance (k : Console Thread) (thread : Thread) : Option (Console Thread) :=
  let frames := (k.thread thread).frames
  match (k.thread thread).point with
  | .body =>
      match frames with
      | (c :: rest) :: outer =>
          (k.putcharHaveLock thread c).map fun after =>
            after.setThread thread .body (rest :: outer)
      | [] :: _ => some (k.setThread thread .releasing frames)
      | [] => some k
  | .acquiring text =>
      if k.holder = some thread then
        some (k.setThread thread (.deepening text) frames)
      else some (k.setThread thread (.locking text) frames)
  | .locking text =>
      if k.holder = some thread then none
      else some (k.setThread thread (.downing text) frames)
  | .deepening text =>
      some
        { k.setThread thread .body (text :: frames) with depth := k.depth + 1 }
  | .downing text =>
      if k.lock.value = 0 then some { k with lock := k.lock.enqueue thread }
      else
        some
          { k.setThread thread (.downed text) frames with lock := k.lock.take }
  | .downed text =>
      some
        ({ k.setThread thread .body (text :: frames) with
          holder := some thread }.event (.began thread))
  | .releasing =>
      if 0 < k.depth then some (k.setThread thread .shallowing frames)
      else some (k.setThread thread .unlocking frames)
  | .shallowing =>
      some
        { k.setThread thread .body frames.tail with depth := k.depth - 1 }
  | .unlocking =>
      if k.holder = some thread then
        some
          ({ k.setThread thread .upping frames.tail with
            holder := none }.event (.ended thread))
      else none
  | .upping =>
      some { k.setThread thread .body frames with lock := k.lock.semaUp }

/-- The thread is in code of its own: outside, or in the body of a call. -/
def inBody (k : Console Thread) (thread : Thread) : Bool :=
  match (k.thread thread).point with
  | .body => true
  | _ => false

/-- The thread has no call in progress, or sleeps. -/
def rests (k : Console Thread) (thread : Thread) : Bool :=
  (k.inBody thread && (k.thread thread).frames.isEmpty) || thread ∈ k.lock.waiters

end Console

inductive ConsoleMove (Thread : Type u) where
  | call (thread : Thread) (call : ConsoleCall)
  | advance (thread : Thread)
  | handler (character : UInt8)

inductive ConsoleMachine (Thread : Type u) where
  | running (k : Console Thread)
  | panicked

namespace ConsoleMachine

variable {Thread : Type u} [DecidableEq Thread]

def result : Option (Console Thread) → ConsoleMachine Thread
  | some k => .running k
  | none => .panicked

/-- One move: a thread calls a function, outside or in the body of another call;
a thread goes on; or an interrupt handler prints a character. -/
def step (k : Console Thread) : ConsoleMove Thread → Option (ConsoleMachine Thread)
  | .call thread call =>
      if k.inBody thread then
        some (.running (k.setThread thread (.acquiring call.text) (k.thread thread).frames))
      else none
  | .advance thread =>
      if k.rests thread then none else some (result (k.advance thread))
  | .handler character =>
      some (.running (k.event (.handlerPrinted character)))

end ConsoleMachine

/-- The console when `console_init` returns. -/
def consoleInit {Thread : Type u} : Console Thread where
  lock := Semaphore.semaInit 1
  holder := none
  depth := 0
  thread := fun _ => { point := .body, frames := [] }
  log := []

/-- All runs after `console_init`. -/
def consoleSystem (Thread : Type u) [DecidableEq Thread] :
    TransitionSystem (ConsoleMachine Thread) (ConsoleMove Thread) where
  initial state := state = .running consoleInit
  step state move :=
    match state with
    | .running k => ConsoleMachine.step k move
    | .panicked => none

/-! ## The invariant -/

/-- The characters of threads come in blocks: between the begin and the end of an
outermost call only its thread prints, and outside of the blocks only handlers
do. -/
inductive ConsoleLog {Thread : Type u} : List (ConsoleEvent Thread) → Option Thread → Prop
  | nil : ConsoleLog [] none
  | began {log : List (ConsoleEvent Thread)} {thread : Thread} :
      ConsoleLog log none →
      ConsoleLog (log ++ [.began thread]) (some thread)
  | printed {log : List (ConsoleEvent Thread)} {thread : Thread} {c : UInt8} :
      ConsoleLog log (some thread) →
      ConsoleLog (log ++ [.printed thread c]) (some thread)
  | handlerPrinted {log : List (ConsoleEvent Thread)} {holder : Option Thread}
      {c : UInt8} :
      ConsoleLog log holder →
      ConsoleLog (log ++ [.handlerPrinted c]) holder
  | ended {log : List (ConsoleEvent Thread)} {thread : Thread} :
      ConsoleLog log (some thread) →
      ConsoleLog (log ++ [.ended thread]) none

/-- The thread has downed the semaphore of the lock and not upped it yet. -/
def Owns (t : ConsoleThread) : Prop :=
  t.frames ≠ [] ∨
    match t.point with
    | .downed _ => True
    | .upping => True
    | _ => False

/-- What the next step of a thread says about its calls. -/
def ThreadSound (t : ConsoleThread) : Prop :=
  match t.point with
  | .body => True
  | .acquiring _ => True
  | .deepening _ => t.frames ≠ []
  | .locking _ => t.frames = []
  | .downing _ => t.frames = []
  | .downed _ => t.frames = []
  | .releasing => t.frames ≠ []
  | .shallowing => 2 ≤ t.frames.length
  | .unlocking => t.frames.length = 1
  | .upping => t.frames = []

structure ConsoleSound {Thread : Type u} (k : Console Thread)
    (owner : Option Thread) : Prop where
  value : k.lock.value = if owner = none then 1 else 0
  owns : ∀ thread, Owns (k.thread thread) ↔ owner = some thread
  held : ∀ thread, (k.thread thread).frames ≠ [] ↔ k.holder = some thread
  depthHeld : ∀ thread, k.holder = some thread → (k.thread thread).frames.length = k.depth + 1
  depthFree : k.holder = none → k.depth = 0
  points : ∀ thread, ThreadSound (k.thread thread)
  log : ConsoleLog k.log k.holder

section Sound

variable {Thread : Type u} [DecidableEq Thread] {k : Console Thread}
variable {owner : Option Thread} {thread : Thread}

omit [DecidableEq Thread] in
theorem consoleInit_sound : ConsoleSound (consoleInit : Console Thread) none := by
  constructor
  · rfl
  · intro thread
    simp [consoleInit, Owns]
  · intro thread
    simp [consoleInit]
  · intro thread holds
    cases holds
  · intro _
    rfl
  · intro thread
    trivial
  · exact .nil

/-- One thread takes a step. -/
theorem ConsoleSound.update (sound : ConsoleSound k owner)
    {k' : Console Thread} {owner' : Option Thread} (t' : ConsoleThread)
    (moved : k'.thread = Function.update k.thread thread t')
    (value : k'.lock.value = if owner' = none then 1 else 0)
    (owns : Owns t' ↔ owner' = some thread) (held : t'.frames ≠ [] ↔ k'.holder = some thread)
    (others : ∀ other, other ≠ thread →
      (owner' = some other ↔ owner = some other) ∧
        (k'.holder = some other ↔ k.holder = some other) ∧
          (k.holder = some other → k'.depth = k.depth))
    (depthHeld : k'.holder = some thread → t'.frames.length = k'.depth + 1)
    (depthFree : k'.holder = none → k'.depth = 0)
    (point : ThreadSound t') (log : ConsoleLog k'.log k'.holder) :
    ConsoleSound k' owner' := by
  have record : ∀ other, k'.thread other = if other = thread then t' else k.thread other := by
    intro other
    rw [moved, Function.update_apply]
  constructor
  · exact value
  · intro other
    rw [record]
    by_cases here : other = thread
    · rw [if_pos here, here]
      exact owns
    · rw [if_neg here, (others other here).1]
      exact sound.owns other
  · intro other
    rw [record]
    by_cases here : other = thread
    · rw [if_pos here, here]
      exact held
    · rw [if_neg here, (others other here).2.1]
      exact sound.held other
  · intro other holds
    rw [record]
    by_cases here : other = thread
    · rw [if_pos here]
      rw [here] at holds
      exact depthHeld holds
    · have held := (others other here).2.1.mp holds
      rw [if_neg here, (others other here).2.2 held]
      exact sound.depthHeld other held
  · exact depthFree
  · intro other
    rw [record]
    by_cases here : other = thread
    · rw [if_pos here]
      exact point
    · rw [if_neg here]
      exact sound.points other
  · exact log

/-- A thread goes to another point of its code. -/
theorem ConsoleSound.setPoint (sound : ConsoleSound k owner)
    {point : ConsolePoint} {frames : List (List UInt8)}
    (same : frames.length = (k.thread thread).frames.length)
    (owns : Owns { point := point, frames := frames } ↔ Owns (k.thread thread))
    (threadSound : ThreadSound { point := point, frames := frames }) :
    ConsoleSound (k.setThread thread point frames) owner := by
  apply sound.update { point := point, frames := frames }
  · rfl
  · exact sound.value
  · rw [owns]
    exact sound.owns thread
  · change _ ↔ k.holder = some thread
    rw [← sound.held thread, ← List.length_pos_iff, ← List.length_pos_iff]
    rw [same]
  · intro other _
    exact ⟨Iff.rfl, Iff.rfl, fun _ => rfl⟩
  · intro holds
    exact same.trans (sound.depthHeld thread holds)
  · exact sound.depthFree
  · exact threadSound
  · exact sound.log

/-- Between the characters of a call its thread holds the lock, and the assertion
in `putchar_have_lock` holds. -/
theorem ConsoleSound.putcharHaveLock (sound : ConsoleSound k owner)
    (inside : (k.thread thread).frames ≠ []) (c : UInt8) :
    k.putcharHaveLock thread c = some (k.event (.printed thread c)) ∧
      ConsoleSound (k.event (.printed thread c)) owner := by
  have holds := (sound.held thread).mp inside
  constructor
  · exact if_pos holds
  · constructor
    · exact sound.value
    · exact sound.owns
    · exact sound.held
    · exact sound.depthHeld
    · exact sound.depthFree
    · exact sound.points
    · change ConsoleLog (k.log ++ [.printed thread c]) k.holder
      have log := sound.log
      rw [holds] at log ⊢
      exact .printed log

omit [DecidableEq Thread] in
/-- An interrupt handler prints. -/
theorem ConsoleSound.handler (sound : ConsoleSound k owner) (c : UInt8) :
    ConsoleSound (k.event (.handlerPrinted c)) owner := by
  constructor
  · exact sound.value
  · exact sound.owns
  · exact sound.held
  · exact sound.depthHeld
  · exact sound.depthFree
  · exact sound.points
  · exact .handlerPrinted sound.log

omit [DecidableEq Thread] in
theorem ConsoleSound.nobodyElse (sound : ConsoleSound k owner)
    (owns : owner = some thread) {other : Thread} (different : other ≠ thread) :
    k.holder ≠ some other := by
  intro holds
  have inside := (sound.held other).mpr holds
  have alsoOwns := (sound.owns other).mp (Or.inl inside)
  rw [owns] at alsoOwns
  cases alsoOwns
  exact different rfl

/-- A thread in `body`. -/
theorem ConsoleSound.advanceBody (sound : ConsoleSound k owner)
    (point : (k.thread thread).point = .body) :
    ∃ after, k.advance thread = some after ∧ ConsoleSound after owner := by
  have owns : ∀ point' frames, frames.length =
      (k.thread thread).frames.length → (point' = .body ∨ point' = .releasing) →
      (Owns { point := point', frames := frames } ↔ Owns (k.thread thread)) := by
    intro point' frames same which
    have inside : frames ≠ [] ↔ (k.thread thread).frames ≠ [] := by
      rw [← List.length_pos_iff, ← List.length_pos_iff, same]
    rw [Owns, Owns, point, inside]
    rcases which with rfl | rfl <;> rfl
  rw [Console.advance, point]
  cases frames : (k.thread thread).frames with
  | nil => exact ⟨k, rfl, sound⟩
  | cons frame outer =>
      cases frame with
      | nil =>
          refine ⟨_, rfl, ?_⟩
          apply sound.setPoint
          · rw [frames]
          · exact owns _ _ (by rw [frames]) (Or.inr rfl)
          · simp [ThreadSound]
      | cons c rest =>
          have printed := sound.putcharHaveLock (by rw [frames]; simp) c
          refine ⟨_, congrArg (Option.map _) printed.1, ?_⟩
          apply printed.2.setPoint
          · change _ = (k.thread thread).frames.length
            rw [frames]
            rfl
          · apply owns _ _ _ (Or.inl rfl)
            rw [frames]
            rfl
          · trivial

/-- The lock is free: the thread downs the semaphore. -/
theorem ConsoleSound.down (sound : ConsoleSound k owner) {text : List UInt8}
    (outside : (k.thread thread).frames = []) (free : k.lock.value ≠ 0) :
    ConsoleSound
      { k.setThread thread (.downed text) (k.thread thread).frames with
        lock := k.lock.take } (some thread) := by
  have nobody : owner = none := by
    by_contra owned
    rw [sound.value, if_neg owned] at free
    exact free rfl
  have notHeld : ∀ other, k.holder ≠ some other := by
    intro other holds
    have owns := (sound.owns other).mp (Or.inl ((sound.held other).mpr holds))
    rw [nobody] at owns
    cases owns
  apply sound.update { point := .downed text, frames := [] }
  · change Function.update k.thread thread _ = _
    rw [outside]
  · change k.lock.value - 1 = _
    rw [sound.value, nobody, if_pos rfl]
    rfl
  · simp [Owns]
  · change _ ↔ k.holder = some thread
    simp [notHeld]
  · intro other different
    refine ⟨?_, Iff.rfl, fun _ => rfl⟩
    simp [nobody, Ne.symm different]
  · intro holds
    exact absurd holds (notHeld thread)
  · exact sound.depthFree
  · rfl
  · exact sound.log

/-- The thread becomes the holder, and its outermost call begins. -/
theorem ConsoleSound.begin (sound : ConsoleSound k owner) {text : List UInt8}
    (owns : owner = some thread) (outside : (k.thread thread).frames = []) :
    ConsoleSound
      (({ k.setThread thread .body (text :: (k.thread thread).frames) with
        holder := some thread } : Console Thread).event (.began thread))
      owner := by
  have nobody : k.holder = none := by
    by_contra held
    rcases Option.ne_none_iff_exists'.mp held with ⟨other, holds⟩
    by_cases same : other = thread
    · rw [same] at holds
      exact (sound.held thread).mpr holds outside
    · exact sound.nobodyElse owns same holds
  apply sound.update { point := .body, frames := [text] }
  · change Function.update k.thread thread _ = _
    rw [outside]
  · exact sound.value
  · simp [Owns, owns]
  · change _ ↔ some thread = some thread
    simp
  · intro other different
    refine ⟨Iff.rfl, ?_, ?_⟩
    · change some thread = some other ↔ _
      simp [nobody, Ne.symm different]
    · intro holds
      rw [nobody] at holds
      cases holds
  · intro _
    change 1 = k.depth + 1
    rw [sound.depthFree nobody]
  · intro free
    cases free
  · trivial
  · change ConsoleLog (k.log ++ [.began thread]) (some thread)
    have log := sound.log
    rw [nobody] at log
    exact .began log

/-- The holder begins or ends an inner call. -/
theorem ConsoleSound.setDepth (sound : ConsoleSound k owner)
    {frames : List (List UInt8)} {depth : Nat}
    (inside : (k.thread thread).frames ≠ []) (still : frames ≠ [])
    (length : frames.length = depth + 1) :
    ConsoleSound
      { k.setThread thread .body frames with depth := depth } owner := by
  have holds := (sound.held thread).mp inside
  have owns := (sound.owns thread).mp (Or.inl inside)
  apply sound.update { point := .body, frames := frames }
  · rfl
  · exact sound.value
  · exact ⟨fun _ => owns, fun _ => Or.inl still⟩
  · exact ⟨fun _ => holds, fun _ => still⟩
  · intro other different
    refine ⟨Iff.rfl, Iff.rfl, fun otherHolds => ?_⟩
    exact absurd otherHolds (sound.nobodyElse owns different)
  · exact fun _ => length
  · intro free
    change k.holder = none at free
    rw [holds] at free
    cases free
  · trivial
  · exact sound.log

/-- The outermost call ends: the thread is not the holder any more. -/
theorem ConsoleSound.finish (sound : ConsoleSound k owner)
    (single : (k.thread thread).frames.length = 1) :
    k.holder = some thread ∧
      ConsoleSound
        (({ k.setThread thread .upping (k.thread thread).frames.tail with
          holder := none } : Console Thread).event (.ended thread)) owner := by
  have inside : (k.thread thread).frames ≠ [] := by
    rw [← List.length_pos_iff, single]
    exact Nat.one_pos
  have holds := (sound.held thread).mp inside
  have owns := (sound.owns thread).mp (Or.inl inside)
  have tail : (k.thread thread).frames.tail = [] := by
    rw [← List.length_eq_zero_iff, List.length_tail, single]
  refine ⟨holds, ?_⟩
  apply sound.update { point := .upping, frames := [] }
  · change Function.update k.thread thread _ = _
    rw [tail]
  · exact sound.value
  · simp [Owns, owns]
  · change _ ↔ none = some thread
    simp
  · intro other different
    refine ⟨Iff.rfl, ?_, fun otherHolds => ?_⟩
    · change none = some other ↔ _
      simp [sound.nobodyElse owns different]
    · exact absurd otherHolds (sound.nobodyElse owns different)
  · intro never
    cases never
  · intro _
    change k.depth = 0
    have length := sound.depthHeld thread holds
    omega
  · rfl
  · change ConsoleLog (k.log ++ [.ended thread]) none
    have log := sound.log
    rw [holds] at log
    exact .ended log

/-- The semaphore of the lock is upped. -/
theorem ConsoleSound.up (sound : ConsoleSound k owner) (point : (k.thread thread).point = .upping) :
    ConsoleSound
      { k.setThread thread .body (k.thread thread).frames with
        lock := k.lock.semaUp } none := by
  have outside : (k.thread thread).frames = [] := by
    have record := sound.points thread
    rw [ThreadSound, point] at record
    exact record
  have owns : owner = some thread := by
    apply (sound.owns thread).mp
    rw [Owns, point]
    exact Or.inr trivial
  apply sound.update { point := .body, frames := [] }
  · change Function.update k.thread thread _ = _
    rw [outside]
  · change k.lock.semaUp.value = 1
    rw [Semaphore.semaUp_value, sound.value, owns, if_neg (by simp)]
    decide
  · simp [Owns]
  · change _ ↔ k.holder = some thread
    rw [← sound.held thread, outside]
  · intro other different
    refine ⟨?_, Iff.rfl, fun _ => rfl⟩
    simp [owns, Ne.symm different]
  · intro holds
    exact absurd outside ((sound.held thread).mpr holds)
  · exact sound.depthFree
  · trivial
  · exact sound.log

/-- The next step of a thread fails no assertion. -/
theorem ConsoleSound.advance (sound : ConsoleSound k owner) (thread : Thread) :
    ∃ after owner', k.advance thread = some after ∧
      ConsoleSound after owner' := by
  have record := sound.points thread
  have owns := sound.owns thread
  cases point : (k.thread thread).point with
  | body =>
      rcases sound.advanceBody point with ⟨after, result, kept⟩
      exact ⟨after, owner, result, kept⟩
  | acquiring text =>
      rw [Console.advance, point]
      dsimp only
      by_cases holds : k.holder = some thread
      · rw [if_pos holds]
        refine ⟨_, owner, rfl, sound.setPoint rfl ?_ ?_⟩
        · rw [Owns, Owns, point]
        · exact (sound.held thread).mpr holds
      · rw [if_neg holds]
        refine ⟨_, owner, rfl, sound.setPoint rfl ?_ ?_⟩
        · rw [Owns, Owns, point]
        · by_contra inside
          exact holds ((sound.held thread).mp inside)
  | deepening text =>
      rw [ThreadSound, point] at record
      have holds := (sound.held thread).mp record
      rw [Console.advance, point]
      refine ⟨_, owner, rfl, sound.setDepth record (by simp) ?_⟩
      rw [List.length_cons, sound.depthHeld thread holds]
  | locking text =>
      rw [ThreadSound, point] at record
      have free : k.holder ≠ some thread := by
        intro holds
        exact (sound.held thread).mpr holds record
      rw [Console.advance, point]
      dsimp only
      rw [if_neg free]
      refine ⟨_, owner, rfl, sound.setPoint rfl ?_ record⟩
      rw [Owns, Owns, point]
  | downing text =>
      rw [ThreadSound, point] at record
      rw [Console.advance, point]
      dsimp only
      by_cases taken : k.lock.value = 0
      · rw [if_pos taken]
        exact ⟨_, owner, rfl, sound.value, sound.owns, sound.held,
          sound.depthHeld, sound.depthFree, sound.points, sound.log⟩
      · rw [if_neg taken]
        exact ⟨_, some thread, rfl, sound.down record taken⟩
  | downed text =>
      rw [ThreadSound, point] at record
      rw [Owns, point] at owns
      rw [Console.advance, point]
      exact ⟨_, owner, rfl, sound.begin (owns.mp (Or.inr trivial)) record⟩
  | releasing =>
      rw [ThreadSound, point] at record
      have holds := (sound.held thread).mp record
      have length := sound.depthHeld thread holds
      rw [Console.advance, point]
      dsimp only
      by_cases nested : 0 < k.depth
      · rw [if_pos nested]
        refine ⟨_, owner, rfl, sound.setPoint rfl ?_ ?_⟩
        · rw [Owns, Owns, point]
        · change 2 ≤ (k.thread thread).frames.length
          omega
      · rw [if_neg nested]
        refine ⟨_, owner, rfl, sound.setPoint rfl ?_ ?_⟩
        · rw [Owns, Owns, point]
        · change (k.thread thread).frames.length = 1
          omega
  | shallowing =>
      rw [ThreadSound, point] at record
      have inside : (k.thread thread).frames ≠ [] := by
        rw [← List.length_pos_iff]
        omega
      have holds := (sound.held thread).mp inside
      have length := sound.depthHeld thread holds
      have tail : (k.thread thread).frames.tail.length =
          (k.thread thread).frames.length - 1 := List.length_tail
      rw [Console.advance, point]
      refine ⟨_, owner, rfl, sound.setDepth inside ?_ ?_⟩
      · rw [← List.length_pos_iff]
        omega
      · omega
  | unlocking =>
      rw [ThreadSound, point] at record
      have finished := sound.finish record
      rw [Console.advance, point]
      dsimp only
      rw [if_pos finished.1]
      exact ⟨_, owner, rfl, finished.2⟩
  | upping =>
      rw [Console.advance, point]
      exact ⟨_, none, rfl, sound.up point⟩

end Sound

/-! ## Blocks -/

section Blocks

variable {Thread : Type u} {log front back : List (ConsoleEvent Thread)}
variable {holder : Option Thread} {thread : Thread}

/-- Who holds the console before and after an event. -/
def ConsoleEvent.Changes (event : ConsoleEvent Thread) (before after : Option Thread) : Prop :=
  match event with
  | .began other => before = none ∧ after = some other
  | .printed other _ => before = some other ∧ after = some other
  | .handlerPrinted _ => before = after
  | .ended other => before = some other ∧ after = none

/-- The last event of a log, and who holds the console before and after it. -/
theorem ConsoleLog.of_append_singleton {event : ConsoleEvent Thread}
    (console : ConsoleLog (log ++ [event]) holder) :
    ∃ before, ConsoleLog log before ∧ event.Changes before holder := by
  generalize whole : log ++ [event] = events at console
  cases console with
  | nil => simp at whole
  | began earlier =>
      rcases List.append_inj' whole rfl with ⟨rfl, last⟩
      cases last
      exact ⟨_, earlier, rfl, rfl⟩
  | printed earlier =>
      rcases List.append_inj' whole rfl with ⟨rfl, last⟩
      cases last
      exact ⟨_, earlier, rfl, rfl⟩
  | handlerPrinted earlier =>
      rcases List.append_inj' whole rfl with ⟨rfl, last⟩
      cases last
      exact ⟨_, earlier, rfl⟩
  | ended earlier =>
      rcases List.append_inj' whole rfl with ⟨rfl, last⟩
      cases last
      exact ⟨_, earlier, rfl, rfl⟩

theorem ConsoleLog.earlier (console : ConsoleLog (front ++ back) holder) :
    ∃ before, ConsoleLog front before := by
  induction back using List.reverseRecOn generalizing holder with
  | nil =>
      rw [List.append_nil] at console
      exact ⟨holder, console⟩
  | append_singleton back event inductionHypothesis =>
      rw [← List.append_assoc] at console
      rcases console.of_append_singleton with ⟨before, earlier, _⟩
      exact inductionHypothesis earlier

theorem ConsoleLog.of_nil (console : ConsoleLog log holder) (empty : log = []) : holder = none := by
  cases console with
  | nil => rfl
  | _ => simp at empty

theorem ConsoleLog.unique {other : Option Thread}
    (console : ConsoleLog log holder) (same : ConsoleLog log other) :
    holder = other := by
  induction log using List.reverseRecOn generalizing holder other with
  | nil =>
      rw [console.of_nil rfl, same.of_nil rfl]
  | append_singleton log event inductionHypothesis =>
      rcases console.of_append_singleton with ⟨first, earlier, change⟩
      rcases same.of_append_singleton with ⟨second, earlier', change'⟩
      have equal := inductionHypothesis earlier earlier'
      cases event with
      | began => rw [change.2, change'.2]
      | printed => rw [change.2, change'.2]
      | handlerPrinted => rw [← change, ← change', equal]
      | ended => rw [change.2, change'.2]

/-- A thread holds the console until its call ends. -/
theorem ConsoleLog.stays (console : ConsoleLog (front ++ back) holder)
    (holds : ConsoleLog front (some thread)) (goesOn : .ended thread ∉ back) :
    holder = some thread := by
  induction back using List.reverseRecOn generalizing holder with
  | nil =>
      rw [List.append_nil] at console
      exact console.unique holds
  | append_singleton back event inductionHypothesis =>
      rw [← List.append_assoc] at console
      rw [List.mem_append, not_or] at goesOn
      rcases console.of_append_singleton with ⟨before, earlier, change⟩
      have still := inductionHypothesis earlier goesOn.1
      cases event with
      | began other =>
          rw [still] at change
          cases change.1
      | printed other c =>
          rw [change.2, ← change.1, still]
      | handlerPrinted c => rw [← change, still]
      | ended other =>
          rw [still] at change
          cases change.1
          exact absurd List.mem_cons_self goesOn.2

/-- Between characters of two threads the call of the first one has ended. -/
theorem ConsoleLog.separate {c c' : UInt8} {other : Thread} {between : List (ConsoleEvent Thread)}
    (console : ConsoleLog
      (front ++ [.printed thread c] ++ between ++ [.printed other c'] ++ back) holder)
    (different : other ≠ thread) : .ended thread ∈ between := by
  by_contra goesOn
  rcases console.earlier with ⟨now, upToSecond⟩
  rcases upToSecond.of_append_singleton with ⟨before, upToBetween, change⟩
  rcases upToBetween.earlier with ⟨first, upToFirst⟩
  rcases upToFirst.of_append_singleton with ⟨_, _, firstChange⟩
  rw [firstChange.2] at upToFirst
  have still := upToBetween.stays upToFirst goesOn
  rw [change.1] at still
  cases still
  exact different rfl

end Blocks

/-! ## Runs -/

section Runs

variable {Thread : Type u} [DecidableEq Thread]

/-- What is shown of the console in every state. -/
structure ConsoleSafe (k : Console Thread) : Prop where
  depthHeld : ∀ thread, k.holder = some thread → k.depth + 1 = (k.thread thread).frames.length
  depthFree : k.holder = none → k.depth = 0
  held : ∀ thread, k.holder = some thread ↔ (k.thread thread).frames ≠ []
  exclusive : ∃ owner, k.lock.value = (if owner = none then 1 else 0) ∧
    ∀ thread, Owns (k.thread thread) ↔ owner = some thread
  log : ConsoleLog k.log k.holder
  separate : ∀ front between back thread other c c', other ≠ thread →
    k.log = front ++ [.printed thread c] ++ between ++ [.printed other c'] ++
      back → .ended thread ∈ between

omit [DecidableEq Thread] in
theorem ConsoleSound.safe {k : Console Thread} {owner : Option Thread}
    (sound : ConsoleSound k owner) : ConsoleSafe k := by
  constructor
  · exact fun thread holds => (sound.depthHeld thread holds).symm
  · exact sound.depthFree
  · exact fun thread => (sound.held thread).symm
  · exact ⟨owner, sound.value, sound.owns⟩
  · exact sound.log
  · intro front between back thread other c c' different whole
    have log := sound.log
    rw [whole] at log
    exact log.separate different

def MachineSound (state : ConsoleMachine Thread) : Prop :=
  match state with
  | .running k => ∃ owner, ConsoleSound k owner
  | .panicked => False

theorem MachineSound.step {state target : ConsoleMachine Thread}
    {move : ConsoleMove Thread} (sound : MachineSound state)
    (stepped : (consoleSystem Thread).step state move = some target) :
    MachineSound target := by
  cases state with
  | panicked => cases sound
  | running k =>
      rcases sound with ⟨owner, sound⟩
      change ConsoleMachine.step k move = some target at stepped
      cases move with
      | call thread call =>
          rw [ConsoleMachine.step] at stepped
          split at stepped
          · rename_i body
            cases stepped
            refine ⟨owner, sound.setPoint rfl ?_ trivial⟩
            rw [Console.inBody] at body
            cases point : (k.thread thread).point with
            | body => rw [Owns, Owns, point]
            | _ =>
                rw [point] at body
                cases body
          · cases stepped
      | advance thread =>
          rw [ConsoleMachine.step] at stepped
          split at stepped
          · cases stepped
          · cases stepped
            rcases sound.advance thread with ⟨after, owner', result, kept⟩
            rw [result]
            exact ⟨owner', kept⟩
      | handler character =>
          cases stepped
          exact ⟨owner, sound.handler character⟩

/-- In every run after `console_init` no assertion fails, the depth is that of the
holder's calls, and the characters of a call are not mixed with those of another
thread. -/
theorem console_safe {state : ConsoleMachine Thread}
    (reachable : (consoleSystem Thread).Reachable state) :
    ∃ k, state = .running k ∧ ConsoleSafe k := by
  have sound : MachineSound state := by
    apply reachable.invariant MachineSound
    · rintro start rfl
      exact ⟨none, consoleInit_sound⟩
    · intro before move after _ sound stepped
      exact sound.step stepped
  cases state with
  | panicked => cases sound
  | running k =>
      rcases sound with ⟨owner, sound⟩
      exact ⟨k, rfl, sound.safe⟩

/-- A call inside a call, while another thread waits. -/
theorem console_safe_nested :
    ∃ k : Console ℕ, k.holder = some 1 ∧ k.depth = 1 ∧
      k.lock.waiters = [2] ∧ ConsoleSafe k := by
  have passed : (((consoleSystem ℕ).run (.running consoleInit)
      [.call 1 (.putbuf [65, 66]), .advance 1, .advance 1, .advance 1,
        .advance 1, .advance 1, .call 1 (.putchar 67), .advance 1, .advance 1,
        .call 2 (.putchar 68), .advance 2, .advance 2, .advance 2]).any
      fun state =>
        match state with
        | .running k => k.holder = some 1 && (k.depth = 1 &&
            k.lock.waiters = [2])
        | .panicked => false) = true := by
    decide +kernel
  rcases (Option.any_eq_true _ _).mp passed with ⟨state, execution, tested⟩
  have reachable : (consoleSystem ℕ).Reachable state := by
    apply TransitionSystem.Reachable.of_run _ execution
    exact .initial rfl
  rcases console_safe reachable with ⟨k, same, safe⟩
  rw [same, Bool.and_eq_true, Bool.and_eq_true, decide_eq_true_eq,
    decide_eq_true_eq, decide_eq_true_eq] at tested
  exact ⟨k, tested.1, tested.2.1, tested.2.2, safe⟩

end Runs

end CS162.Kernel

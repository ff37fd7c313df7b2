import Mathlib.Data.List.Basic
import Mathlib.Data.List.Nodup
import Mathlib.Logic.Function.Basic

/-!
# Members of queues

A member is in at most one of many queues, and at most once, when every queue
is free of duplicates and has exactly the members whose place it is.  This is
what one link field in a record gives that is shared by several lists.
-/

namespace CS162.Foundation

universe u v

variable {Member : Type u} {Queue : Type v}

/-- Each queue has, once, the members whose place it is. -/
structure QueuesSound (queue : Queue → List Member)
    (place : Member → Option Queue) : Prop where
  nodup : ∀ q, (queue q).Nodup
  mem_iff : ∀ q member, member ∈ queue q ↔ place member = some q

namespace QueuesSound

variable [DecidableEq Member] [DecidableEq Queue]
variable {queue : Queue → List Member} {place : Member → Option Queue}
variable {q : Queue} {member : Member}

/-- A member without a place goes to the end of a queue. -/
theorem push (sound : QueuesSound queue place) (q : Queue) (free : place member = none) :
    QueuesSound (Function.update queue q (queue q ++ [member]))
      (Function.update place member (some q)) := by
  have absent : ∀ other, member ∉ queue other := by
    intro other inQueue
    rw [sound.mem_iff, free] at inQueue
    cases inQueue
  constructor
  · intro other
    by_cases same : other = q
    · subst same
      rw [Function.update_self]
      apply List.nodup_append.mpr
      refine ⟨sound.nodup other, List.nodup_singleton member, ?_⟩
      rintro x inQueue y isMember rfl
      rw [List.mem_singleton] at isMember
      subst isMember
      exact absent other inQueue
    · rw [Function.update_of_ne same]
      exact sound.nodup other
  · intro other x
    by_cases here : x = member
    · subst here
      rw [Function.update_self]
      by_cases same : other = q
      · subst same
        simp
      · rw [Function.update_of_ne same]
        constructor
        · intro inQueue
          exact absurd inQueue (absent other)
        · intro samePlace
          cases samePlace
          exact absurd rfl same
    · rw [Function.update_of_ne here, ← sound.mem_iff]
      by_cases same : other = q
      · subst same
        simp [here]
      · rw [Function.update_of_ne same]

/-- The first member of a queue leaves it. -/
theorem pop (sound : QueuesSound queue place) {rest : List Member}
    (first : queue q = member :: rest) :
    QueuesSound (Function.update queue q rest)
      (Function.update place member none) := by
  have nodup := sound.nodup q
  rw [first] at nodup
  have once := List.nodup_cons.mp nodup
  have placed : place member = some q := by
    rw [← sound.mem_iff, first]
    exact List.mem_cons_self
  constructor
  · intro other
    by_cases same : other = q
    · subst same
      rw [Function.update_self]
      exact once.2
    · rw [Function.update_of_ne same]
      exact sound.nodup other
  · intro other x
    by_cases here : x = member
    · subst here
      rw [Function.update_self]
      by_cases same : other = q
      · subst same
        simp [once.1]
      · rw [Function.update_of_ne same, sound.mem_iff, placed]
        simp [Ne.symm same]
    · rw [Function.update_of_ne here, ← sound.mem_iff]
      by_cases same : other = q
      · subst same
        rw [Function.update_self, first]
        simp [here]
      · rw [Function.update_of_ne same]

omit [DecidableEq Member] [DecidableEq Queue] in
theorem place_of_head (sound : QueuesSound queue place) {rest : List Member}
    (first : queue q = member :: rest) : place member = some q := by
  rw [← sound.mem_iff, first]
  exact List.mem_cons_self

omit [DecidableEq Queue] in
/-- The place of a member that is in no queue may become none again. -/
theorem update_same (sound : QueuesSound queue place) {next : Option Queue}
    (same : next = place member) :
    QueuesSound queue (Function.update place member next) := by
  rw [same, Function.update_eq_self]
  exact sound

end QueuesSound

end CS162.Foundation

import Mathlib.Data.List.Basic

/-!
# Programs that record what they read

A program that reads the cells of a memory, with the addresses that it has read.  What it
reads is part of its meaning, also where its result does not depend on it.
-/

namespace CS162.Foundation

/-- The result of a program and the addresses that it has read. -/
@[ext]
structure Reading (Address Value : Type) where
  value : Value
  reads : List Address

namespace Reading

variable {Address Cell Value Result Item : Type}

instance : Monad (Reading Address) where
  pure value := ⟨value, []⟩
  bind first next := ⟨(next first.value).value, first.reads ++ (next first.value).reads⟩

/-- One cell is read. -/
def load (memory : Address → Cell) (address : Address) : Reading Address Cell :=
  ⟨memory address, [address]⟩

/-- The results of a program for the items of a list, one after another. -/
def collect (run : Item → Reading Address Value) : List Item → Reading Address (List Value)
  | [] => return []
  | item :: rest => do
      let value ← run item
      let values ← collect run rest
      return value :: values

/-- Only such addresses are read. -/
def Within (allowed : Address → Prop) (run : Reading Address Value) : Prop :=
  ∀ address ∈ run.reads, allowed address

@[simp]
theorem value_pure (value : Value) : (pure value : Reading Address Value).value = value := rfl

section Bind

variable (first : Reading Address Value) (next : Value → Reading Address Result)

@[simp]
theorem value_bind : (first >>= next).value = (next first.value).value := rfl

@[simp]
theorem reads_bind : (first >>= next).reads = first.reads ++ (next first.value).reads := rfl

end Bind

section Within

variable {allowed : Address → Prop}

theorem Within.mono {other : Address → Prop} {run : Reading Address Value}
    (wider : ∀ address, allowed address → other address) (within : run.Within allowed) :
    run.Within other :=
  fun address member => wider address (within address member)

@[simp]
theorem within_pure (value : Value) : (pure value : Reading Address Value).Within allowed :=
  fun _ impossible => absurd impossible List.not_mem_nil

/-- A program is within bounds exactly if its parts are. -/
theorem within_bind {first : Reading Address Value} {next : Value → Reading Address Result} :
    (first >>= next).Within allowed ↔ first.Within allowed ∧ (next first.value).Within allowed :=
  List.forall_mem_append

theorem within_load {memory : Address → Cell} {address : Address} :
    (load memory address).Within allowed ↔ allowed address :=
  List.forall_mem_singleton

theorem within_collect {run : Item → Reading Address Value} {items : List Item} :
    (collect run items).Within allowed ↔ ∀ item ∈ items, (run item).Within allowed := by
  induction items with
  | nil =>
      refine iff_of_true (within_pure []) ?_
      intro item impossible
      exact absurd impossible List.not_mem_nil
  | cons item rest inductionHypothesis =>
      rw [collect, within_bind, within_bind, inductionHypothesis, List.forall_mem_cons]
      exact and_congr_right fun _ => and_iff_left (within_pure _)

theorem value_collect (run : Item → Reading Address Value) (items : List Item) :
    (collect run items).value = items.map fun item => (run item).value := by
  induction items with
  | nil => rfl
  | cons item rest inductionHypothesis =>
      rw [collect, value_bind, value_bind, inductionHypothesis]
      rfl

end Within

end Reading

end CS162.Foundation

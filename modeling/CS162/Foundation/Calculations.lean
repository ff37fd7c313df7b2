/-!
# Calculations

A calculation is a chain of steps, each of which may end it with a fault.
-/

namespace CS162.Foundation

universe u v

section Calculations

variable {ε : Type u} {α β : Type v} {a other : α} {b : β}

/-- A calculation ends with a result if both of its parts do. -/
theorem bind_eq_ok {first : Except ε α} {next : α → Except ε β} :
    first >>= next = .ok b ↔ ∃ a, first = .ok a ∧ next a = .ok b := by
  cases first with
  | error fault =>
      constructor
      · intro defined
        cases defined
      · intro ⟨_, impossible, _⟩
        cases impossible
  | ok a =>
      constructor
      · intro defined
        exact ⟨a, rfl, defined⟩
      · intro ⟨other, same, defined⟩
        rw [Except.ok.injEq] at same
        rw [same]
        exact defined

theorem pure_eq_ok : (pure a : Except ε α) = .ok other ↔ a = other :=
  Except.ok.injEq a other ▸ Iff.rfl

/-- A step that succeeds hands its result to the next one. -/
theorem bind_of_ok {first : Except ε α} (done : first = .ok a)
    (next : α → Except ε β) : first >>= next = next a := by
  rw [done]
  rfl

end Calculations

end CS162.Foundation

import Mathlib.Data.List.Perm.Basic

/-!
# Tables of slots

A table has slots in a row, and each slot is empty or holds a record.  The
contents of the slots from one on are listed in the order of the slots.
-/

namespace CS162.Foundation

universe u v

section Slots

variable {Record : Type u} {Key : Type v}
variable {slots slots' : Nat → Option Record} {record : Record}
variable {start count i : Nat}

/-- The records in a number of slots from one on. -/
def slotContents (slots : Nat → Option Record) : Nat → Nat → List Record
  | _, 0 => []
  | start, count + 1 =>
      (slots start).toList ++ slotContents slots (start + 1) count

theorem mem_slotContents :
    record ∈ slotContents slots start count ↔
      ∃ i, start ≤ i ∧ i < start + count ∧ slots i = some record := by
  induction count generalizing start with
  | zero =>
      constructor
      · intro impossible
        cases impossible
      · intro here
        rcases here with ⟨i, lower, upper, -⟩
        omega
  | succ count inductionHypothesis =>
      rw [slotContents, List.mem_append, Option.mem_toList, inductionHypothesis]
      constructor
      · intro here
        rcases here with first | ⟨i, lower, upper, there⟩
        · exact ⟨start, Nat.le_refl start, by omega, first⟩
        · exact ⟨i, by omega, by omega, there⟩
      · intro here
        rcases here with ⟨i, lower, upper, there⟩
        by_cases this : i = start
        · rw [this] at there
          exact Or.inl there
        · exact Or.inr ⟨i, by omega, by omega, there⟩

theorem slotContents_congr
    (same : ∀ i, start ≤ i → i < start + count → slots' i = slots i) :
    slotContents slots' start count = slotContents slots start count := by
  induction count generalizing start with
  | zero => rfl
  | succ count inductionHypothesis =>
      rw [slotContents, slotContents, same start (Nat.le_refl start) (by omega),
        inductionHypothesis fun i lower upper =>
          same i (by omega) (by omega)]

/-- A record in a slot that was empty comes to the contents. -/
theorem slotContents_fill (lower : start ≤ i) (upper : i < start + count)
    (empty : slots i = none) (filled : slots' i = some record)
    (others : ∀ j, start ≤ j → j < start + count → j ≠ i → slots' j = slots j) :
    (slotContents slots' start count).Perm
      (record :: slotContents slots start count) := by
  induction count generalizing start with
  | zero => omega
  | succ count inductionHypothesis =>
      rw [slotContents, slotContents]
      by_cases this : i = start
      · have rest : slotContents slots' (start + 1) count = slotContents slots (start + 1) count :=
          slotContents_congr fun j first last =>
            others j (by omega) (by omega) (by omega)
        rw [← this, empty, filled, this, rest]
        exact List.Perm.refl _
      · have rest :=
          @inductionHypothesis (start + 1) (by omega) (by omega)
            fun j first last => others j (by omega) (by omega)
        rw [others start (Nat.le_refl start) (by omega) (Ne.symm this)]
        exact (rest.append_left _).trans List.perm_middle

/-- The slots before the first record do not matter. -/
theorem slotContents_first (lower : start ≤ i) (upper : i < start + count)
    (here : slots i = some record) (earlier : ∀ j, start ≤ j → j < i → slots j = none) :
    slotContents slots start count =
      record :: slotContents slots (i + 1) (start + count - (i + 1)) := by
  induction count generalizing start with
  | zero => omega
  | succ count inductionHypothesis =>
      rw [slotContents]
      by_cases this : i = start
      · have rest : start + (count + 1) - (start + 1) = count := by omega
        rw [← this, here, this, rest]
        rfl
      · have next :=
          @inductionHypothesis (start + 1) (by omega) (by omega)
            fun j first last => earlier j (by omega) last
        have rest : start + 1 + count = start + (count + 1) := by omega
        rw [earlier start (Nat.le_refl start) (by omega), next, rest]
        rfl

theorem length_slotContents_le (slots : Nat → Option Record)
    (start count : Nat) : (slotContents slots start count).length ≤ count := by
  induction count generalizing start with
  | zero => exact Nat.le_refl 0
  | succ count inductionHypothesis =>
      have rest := inductionHypothesis (start + 1)
      rw [slotContents, List.length_append]
      cases slots start with
      | none =>
          simp only [Option.toList_none, List.length_nil]
          omega
      | some record =>
          simp only [Option.toList_some, List.length_singleton]
          omega

/-- A table is full when no slot is empty. -/
theorem length_slotContents_lt_iff :
    (slotContents slots start count).length < count ↔
      ∃ i, start ≤ i ∧ i < start + count ∧ slots i = none := by
  induction count generalizing start with
  | zero =>
      constructor
      · intro impossible
        omega
      · intro here
        rcases here with ⟨i, lower, upper, -⟩
        omega
  | succ count inductionHypothesis =>
      have bound := length_slotContents_le slots (start + 1) count
      rw [slotContents, List.length_append]
      cases first : slots start with
      | none =>
          simp only [Option.toList_none, List.length_nil]
          constructor
          · intro less
            exact ⟨start, Nat.le_refl start, by omega, first⟩
          · intro here
            omega
      | some record =>
          simp only [Option.toList_some, List.length_singleton]
          have rest := @inductionHypothesis (start + 1)
          constructor
          · intro less
            rcases rest.mp (by omega) with ⟨i, lower, upper, there⟩
            exact ⟨i, by omega, by omega, there⟩
          · intro here
            rcases here with ⟨i, lower, upper, there⟩
            have later : i ≠ start := by
              rintro rfl
              rw [first] at there
              cases there
            have less := rest.mpr ⟨i, by omega, by omega, there⟩
            omega

/-- The keys differ when no key is in two slots. -/
theorem nodup_map_slotContents {key : Record → Key}
    (once :
      ∀ i j first second, start ≤ i → i < j → j < start + count →
        slots i = some first → slots j = some second → key first ≠ key second) :
    ((slotContents slots start count).map key).Nodup := by
  induction count generalizing start with
  | zero => exact List.nodup_nil
  | succ count inductionHypothesis =>
      have rest : ((slotContents slots (start + 1) count).map key).Nodup :=
        inductionHypothesis fun i j first second lower less upper =>
          once i j first second (by omega) less (by omega)
      rw [slotContents]
      cases here : slots start with
      | none => exact rest
      | some record =>
          rw [Option.toList_some, List.singleton_append, List.map_cons, List.nodup_cons]
          refine ⟨?_, rest⟩
          intro again
          rcases List.mem_map.mp again with ⟨other, member, same⟩
          rcases mem_slotContents.mp member with ⟨j, lower, upper, there⟩
          exact
            once start j record other (Nat.le_refl start) (by omega) (by omega) here there same.symm

end Slots

end CS162.Foundation

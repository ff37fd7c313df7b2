import Mathlib.Data.Fintype.Card
import Mathlib.Algebra.BigOperators.Ring.Finset
import Mathlib.Algebra.Order.BigOperators.Group.Finset

/-!
# Sums and counts over the parties of a system

`total weight family` adds up the weights of a family of values and
`tally test family` counts the values that pass a test.  The update lemmas say
how they move when one index gets a new value, which is all that an induction
over runs of a system of many parties needs.
-/

namespace CS162.Foundation

universe u v w

variable {Index : Type u} {Value : Type v} [Fintype Index]

/-- The sum of the weights of the values. -/
def total (weight : Value → Nat) (family : Index → Value) : Nat := ∑ index, weight (family index)

/-- The number of indices whose value passes the test. -/
def tally (test : Value → Bool) (family : Index → Value) : Nat :=
  (Finset.univ.filter fun index => test (family index) = true).card

variable {weight : Value → Nat}
variable {test : Value → Bool} {family : Index → Value}

/-- Replacing one value takes its old weight out and puts the new one in. -/
theorem total_update [DecidableEq Index] (weight : Value → Nat) (family : Index → Value)
    (index : Index) (value : Value) :
    total weight (Function.update family index value) +
        weight (family index) =
      total weight family + weight value := by
  have split : ∀ current : Index → Value,
        total weight current =
          weight (current index) +
            ∑ other ∈ Finset.univ.erase index, weight (current other) :=
    fun current =>
      (Finset.add_sum_erase _ (fun other => weight (current other))
        (Finset.mem_univ index)).symm
  have others : ∑ other ∈ Finset.univ.erase index,
          weight (Function.update family index value other) =
        ∑ other ∈ Finset.univ.erase index, weight (family other) := by
    refine Finset.sum_congr rfl fun other member => ?_
    rw [Function.update_of_ne (Finset.ne_of_mem_erase member)]
  rw [split (Function.update family index value), split family, others, Function.update_self]
  omega

theorem total_update_of_eq [DecidableEq Index] {index : Index} {value : Value}
    (same : weight value = weight (family index)) :
    total weight (Function.update family index value) = total weight family := by
  have moved := total_update weight family index value
  omega

theorem le_total (weight : Value → Nat) (family : Index → Value)
    (index : Index) : weight (family index) ≤ total weight family :=
  Finset.single_le_sum (fun other _ => Nat.zero_le (weight (family other)))
    (Finset.mem_univ index)

theorem total_congr
    {Other : Type w} {otherWeight : Other → Nat} {renamed : Index → Other}
    (same : ∀ index, weight (family index) = otherWeight (renamed index)) :
    total weight family = total otherWeight renamed :=
  Finset.sum_congr rfl fun index _ => same index

theorem total_le_total {other : Value → Nat}
    (le : ∀ value, weight value ≤ other value) (family : Index → Value) :
    total weight family ≤ total other family :=
  Finset.sum_le_sum fun index _ => le (family index)

theorem total_add (left right : Value → Nat) (family : Index → Value) :
    total (fun value => left value + right value) family = total left family + total right family :=
  Finset.sum_add_distrib

theorem total_eq_zero_iff : total weight family = 0 ↔ ∀ index, weight (family index) = 0 := by
  simp [total]

theorem tally_eq_total : tally test family = total (fun value => (test value).toNat) family := by
  rw [tally, Finset.card_filter]
  refine Finset.sum_congr rfl fun index _ => ?_
  simp only
  cases test (family index) <;> rfl

/-- Where no value weighs more than one, the sum counts the values that weigh
something. -/
theorem total_eq_tally
    (light : ∀ index, weight (family index) ≤ 1) :
    total weight family = tally (fun value => 0 < weight value) family := by
  rw [tally_eq_total]
  refine total_congr fun index => ?_
  have bound := light index
  by_cases positive : 0 < weight (family index)
  · rw [decide_eq_true positive]
    show weight (family index) = 1
    omega
  · rw [decide_eq_false positive]
    show weight (family index) = 0
    omega

/-- Replacing one value takes its old contribution out and puts the new one
in. -/
theorem tally_update [DecidableEq Index] (test : Value → Bool) (family : Index → Value)
    (index : Index) (value : Value) :
    tally test (Function.update family index value) +
        (test (family index)).toNat =
      tally test family + (test value).toNat := by
  rw [tally_eq_total, tally_eq_total]
  exact total_update _ family index value

/-- A replacement that does not change the outcome of the test does not
change the count. -/
theorem tally_update_of_eq [DecidableEq Index] {index : Index} {value : Value}
    (same : test value = test (family index)) :
    tally test (Function.update family index value) = tally test family := by
  have moved := tally_update test family index value
  rw [same] at moved
  omega

theorem tally_eq_zero_iff : tally test family = 0 ↔ ∀ index, test (family index) = false := by
  simp [tally, Finset.filter_eq_empty_iff]

theorem tally_pos_iff : 0 < tally test family ↔ ∃ index, test (family index) = true := by
  simp [tally, Finset.card_pos, Finset.filter_nonempty_iff]

/-- A count of at most one leaves room for a single index. -/
theorem eq_of_tally_le_one
    (bound : tally test family ≤ 1) {left right : Index}
    (leftPasses : test (family left) = true) (rightPasses : test (family right) = true) :
    left = right := by
  apply Finset.card_le_one.mp bound
  · simpa using leftPasses
  · simpa using rightPasses

theorem tally_congr
    {other : Value → Bool} {renamed : Index → Value}
    (same : ∀ index, test (family index) = other (renamed index)) :
    tally test family = tally other renamed := by
  unfold tally
  congr 1
  apply Finset.filter_congr
  intro index _
  rw [same index]

end CS162.Foundation

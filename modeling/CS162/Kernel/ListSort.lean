import Mathlib.Data.List.Chain
import Mathlib.Data.List.Sort

/-!
# Sorting a list

`list_sort` of `lib/kernel/list.c` on the sequence that a list represents: a
natural merge sort, which passes over the list and merges adjacent runs until
there is only one.  A failed `ASSERT` is `none`.
-/

namespace CS162.Kernel

universe u

variable {Elem : Type u}

/-- The comparisons that `list_sort` is made for. -/
structure StrictWeakOrder (less : Elem → Elem → Bool) : Prop where
  irrefl : ∀ a, less a a = false
  trans : ∀ a b c, less a b = true → less b c = true → less a c = true
  incomparable : ∀ a b c, less a b = false → less b a = false →
    less b c = false → less c b = false → less a c = false ∧ less c a = false

section Code

variable (less : Elem → Elem → Bool)

/-- `is_sorted`. -/
def isSorted : List Elem → Bool
  | [] => true
  | [_] => true
  | a :: b :: rest => !less b a && isSorted (b :: rest)

/-- `find_end_of_run`: what a run has after its first element, and what comes
after the run. -/
def findEndOfRun : Elem → List Elem → List Elem × List Elem
  | _, [] => ([], [])
  | a, next :: rest =>
      if less next a then ([], next :: rest)
      else (next :: (findEndOfRun next rest).1, (findEndOfRun next rest).2)

/-- `inplace_merge`: while both runs have elements, the second one gives its
first element exactly when that is less. -/
def inplaceMerge (left right : List Elem) : Option (List Elem) :=
  if isSorted less left && isSorted less right then
    some (left.merge right fun a b => !less b a)
  else none

theorem length_findEndOfRun (a : Elem) (rest : List Elem) :
    (findEndOfRun less a rest).2.length ≤ rest.length := by
  induction rest generalizing a with
  | nil => exact Nat.le_refl 0
  | cons next rest inductionHypothesis =>
      rw [findEndOfRun]
      split
      · exact Nat.le_refl _
      · exact Nat.le_succ_of_le (inductionHypothesis next)

/-- One pass of `list_sort`: pairs of adjacent runs are merged, and every run of
the output is counted. -/
def sortPass : List Elem → Option (List Elem × Nat)
  | [] => some ([], 0)
  | a0 :: rest =>
      match split : (findEndOfRun less a0 rest).2 with
      | [] => some (a0 :: (findEndOfRun less a0 rest).1, 1)
      | a1b0 :: rest1 =>
          (inplaceMerge less (a0 :: (findEndOfRun less a0 rest).1)
              (a1b0 :: (findEndOfRun less a1b0 rest1).1)).bind fun merged =>
            (sortPass (findEndOfRun less a1b0 rest1).2).map fun pass =>
              (merged ++ pass.1, pass.2 + 1)
termination_by elems => elems.length
decreasing_by
  have first := length_findEndOfRun less a0 rest
  have second := length_findEndOfRun less a1b0 rest1
  rw [split, List.length_cons] at first
  rw [List.length_cons]
  omega

/-- `list_sort`, with a bound on the number of passes. -/
def listSort : Nat → List Elem → Option (List Elem)
  | 0, _ => none
  | fuel + 1, elems =>
      (sortPass less elems).bind fun pass =>
        if 1 < pass.2 then listSort fuel pass.1
        else if isSorted less pass.1 then some pass.1
        else none

end Code

/-! ## Runs -/

/-- How many elements are less than the one before. -/
def descents (less : Elem → Elem → Bool) : List Elem → Nat
  | [] => 0
  | [_] => 0
  | a :: b :: rest => (less b a).toNat + descents less (b :: rest)

variable {less : Elem → Elem → Bool}

theorem isSorted_iff {elems : List Elem} :
    isSorted less elems = true ↔ descents less elems = 0 := by
  induction elems with
  | nil => simp [isSorted, descents]
  | cons a rest inductionHypothesis =>
      cases rest with
      | nil => simp [isSorted, descents]
      | cons b rest =>
          rw [isSorted, descents, Bool.and_eq_true, inductionHypothesis, Nat.add_eq_zero_iff]
          cases less b a <;> simp

theorem descents_append_le (less : Elem → Elem → Bool) (left right : List Elem) :
    descents less (left ++ right) ≤ descents less left + descents less right + 1 := by
  induction left with
  | nil =>
      rw [List.nil_append]
      omega
  | cons a rest inductionHypothesis =>
      cases rest with
      | nil =>
          cases right with
          | nil => simp [descents]
          | cons b right =>
              rw [List.singleton_append, descents, descents]
              have one := Bool.toNat_le (less b a)
              omega
      | cons b rest =>
          rw [List.cons_append, List.cons_append, descents, descents]
          rw [List.cons_append] at inductionHypothesis
          omega

/-- A run and what comes after it. -/
theorem findEndOfRun_spec (less : Elem → Elem → Bool) (a : Elem) (rest : List Elem) :
    (findEndOfRun less a rest).1 ++ (findEndOfRun less a rest).2 = rest ∧
      descents less (a :: (findEndOfRun less a rest).1) = 0 ∧
      descents less (a :: rest) =
        match (findEndOfRun less a rest).2 with
        | [] => 0
        | b :: after => descents less (b :: after) + 1 := by
  induction rest generalizing a with
  | nil => exact ⟨rfl, rfl, rfl⟩
  | cons next rest inductionHypothesis =>
      rcases inductionHypothesis next with ⟨whole, run, counted⟩
      rw [findEndOfRun]
      split
      · rename_i smaller
        refine ⟨rfl, rfl, ?_⟩
        rw [descents, smaller]
        exact Nat.add_comm _ _
      · rename_i notSmaller
        have order : less next a = false := by simpa using notSmaller
        refine ⟨?_, ?_, ?_⟩
        · rw [List.cons_append, whole]
        · rw [descents, order, run]
          rfl
        · rw [descents, order, counted]
          simp

/-! ## Sorted sequences -/

/-- No element is less than one before it. -/
def Ascending (less : Elem → Elem → Bool) (elems : List Elem) : Prop :=
  elems.Pairwise fun a b => (!less b a) = true

namespace StrictWeakOrder

theorem total (order : StrictWeakOrder less) (a b : Elem) : (!less b a || !less a b) = true := by
  cases first : less b a with
  | false => rfl
  | true =>
      cases second : less a b with
      | false => rfl
      | true =>
          have loop := order.trans a b a second first
          rw [order.irrefl] at loop
          cases loop

theorem not_less_trans (order : StrictWeakOrder less) (a b c : Elem)
    (first : (!less b a) = true) (second : (!less c b) = true) :
    (!less c a) = true := by
  simp only [Bool.not_eq_true'] at first second ⊢
  cases left : less a b with
  | true =>
      by_contra smaller
      have back := order.trans c a b (by simpa using smaller) left
      rw [second] at back
      cases back
  | false =>
      cases right : less b c with
      | true =>
          by_contra smaller
          have back := order.trans b c a right (by simpa using smaller)
          rw [first] at back
          cases back
      | false => exact (order.incomparable a b c left first right second).2

end StrictWeakOrder

theorem isChain_iff_descents {elems : List Elem} :
    (elems.IsChain fun a b => (!less b a) = true) ↔ descents less elems = 0 := by
  induction elems with
  | nil => simp [descents]
  | cons a rest inductionHypothesis =>
      cases rest with
      | nil => simp [descents]
      | cons b rest =>
          rw [List.isChain_cons_cons, inductionHypothesis, descents, Nat.add_eq_zero_iff]
          cases less b a <;> simp

theorem ascending_iff (order : StrictWeakOrder less) {elems : List Elem} :
    Ascending less elems ↔ descents less elems = 0 := by
  have transitive : IsTrans Elem fun a b => (!less b a) = true := ⟨order.not_less_trans⟩
  rw [Ascending, ← List.isChain_iff_pairwise]
  exact isChain_iff_descents

theorem inplaceMerge_spec (order : StrictWeakOrder less)
    {left right : List Elem} (first : descents less left = 0) (second : descents less right = 0) :
    ∃ merged, inplaceMerge less left right = some merged ∧
      merged.Perm (left ++ right) ∧ descents less merged = 0 := by
  have asserted : (isSorted less left && isSorted less right) = true := by
    rw [isSorted_iff.mpr first, isSorted_iff.mpr second]
    rfl
  refine ⟨_, if_pos asserted, List.merge_perm_append _, ?_⟩
  apply (ascending_iff order).mp
  exact List.pairwise_merge order.not_less_trans order.total left right
    ((ascending_iff order).mpr first) ((ascending_iff order).mpr second)

/-- What one pass achieves: half as many runs, rounded up. -/
structure PassSound (less : Elem → Elem → Bool) (elems : List Elem)
    (pass : List Elem × Nat) : Prop where
  perm : pass.1.Perm elems
  runs : descents less pass.1 ≤ pass.2 - 1
  none : pass.2 = 0 → elems = []
  halved : 2 * pass.2 ≤ descents less elems + 2

theorem sortPass_spec (order : StrictWeakOrder less) (elems : List Elem) :
    ∃ pass, sortPass less elems = some pass ∧ PassSound less elems pass := by
  induction elems using sortPass.induct less with
  | case1 =>
      refine ⟨_, by rw [sortPass], List.Perm.refl _, ?_, fun _ => rfl, ?_⟩
      · exact Nat.zero_le _
      · exact Nat.zero_le _
  | case2 a0 rest done =>
      rcases findEndOfRun_spec less a0 rest with ⟨whole, run, _⟩
      rw [done, List.append_nil] at whole
      refine ⟨(a0 :: (findEndOfRun less a0 rest).1, 1), ?_, ?_, ?_, ?_, ?_⟩
      · rw [sortPass]
        split
        · rfl
        · rename_i more
          rw [done] at more
          cases more
      · rw [whole]
      · exact Nat.le_of_eq run
      · intro none
        cases none
      · exact Nat.le_add_left 2 _
  | case3 a0 rest a1b0 rest1 more inductionHypothesis =>
      rcases inductionHypothesis with ⟨pass, passed, sound⟩
      rcases findEndOfRun_spec less a0 rest with ⟨whole, run, counted⟩
      rcases findEndOfRun_spec less a1b0 rest1 with ⟨whole1, run1, counted1⟩
      rcases inplaceMerge_spec order run run1 with ⟨merged, merges, perm, flat⟩
      rw [more] at whole counted
      refine ⟨(merged ++ pass.1, pass.2 + 1), ?_, ?_, ?_, ?_, ?_⟩
      · rw [sortPass]
        split
        · rename_i done
          rw [more] at done
          cases done
        · rename_i first other again
          rw [more] at again
          cases again
          rw [merges, passed]
          rfl
      · have rearranged := perm.append sound.perm
        rw [List.append_assoc, List.cons_append, List.cons_append, whole1, whole] at rearranged
        exact rearranged
      · have joined := descents_append_le less merged pass.1
        have runs := sound.runs
        by_cases last : pass.2 = 0
        · have empty := sound.perm
          rw [sound.none last] at empty
          rw [empty.eq_nil, List.append_nil, flat]
          exact Nat.zero_le _
        · change descents less (merged ++ pass.1) ≤ pass.2
          omega
      · intro none
        cases none
      · cases rear : (findEndOfRun less a1b0 rest1).2 with
        | nil =>
            rw [rear, sortPass] at passed
            cases passed
            exact Nat.le_add_left 2 _
        | cons b after =>
            rw [rear] at counted1
            have halved := sound.halved
            rw [rear] at halved
            have outer : descents less (a0 :: rest) = descents less (a1b0 :: rest1) + 1 := counted
            have inner : descents less (a1b0 :: rest1) = descents less (b :: after) + 1 := counted1
            change 2 * (pass.2 + 1) ≤ descents less (a0 :: rest) + 2
            omega

theorem listSort_of_descents (order : StrictWeakOrder less) {fuel : Nat}
    {elems : List Elem} (enough : descents less elems < fuel) :
    ∃ sorted, listSort less fuel elems = some sorted ∧
      sorted.Perm elems ∧ Ascending less sorted := by
  induction fuel generalizing elems with
  | zero => exact absurd enough (Nat.not_lt_zero _)
  | succ fuel inductionHypothesis =>
      rcases sortPass_spec order elems with ⟨pass, passed, sound⟩
      have runs := sound.runs
      have halved := sound.halved
      rw [listSort, passed, Option.bind_some]
      by_cases again : 1 < pass.2
      · rw [if_pos again]
        rcases inductionHypothesis (by omega : descents less pass.1 < fuel) with
          ⟨sorted, ends, perm, ascending⟩
        exact ⟨sorted, ends, perm.trans sound.perm, ascending⟩
      · have flat : descents less pass.1 = 0 := by omega
        rw [if_neg again, if_pos (isSorted_iff.mpr flat)]
        exact ⟨pass.1, rfl, sound.perm, (ascending_iff order).mpr flat⟩

theorem descents_le_length (elems : List Elem) : descents less elems ≤ elems.length := by
  induction elems with
  | nil => exact Nat.le_refl 0
  | cons a rest inductionHypothesis =>
      cases rest with
      | nil => exact Nat.zero_le 1
      | cons b rest =>
          rw [descents, List.length_cons]
          have one := Bool.toNat_le (less b a)
          omega

/-- `list_sort` ends, and the elements are then in order. -/
theorem listSort_spec (order : StrictWeakOrder less) {fuel : Nat}
    {elems : List Elem} (enough : elems.length < fuel) :
    ∃ sorted, listSort less fuel elems = some sorted ∧
      sorted.Perm elems ∧ Ascending less sorted := by
  apply listSort_of_descents order
  exact Nat.lt_of_le_of_lt (descents_le_length elems) enough

/-! ## Equivalent elements -/

/-- Neither element is less than the other. -/
def equivalent (less : Elem → Elem → Bool) (a b : Elem) : Bool := !less a b && !less b a

/-- The elements equivalent to any one element come in the order in which they
were. -/
def KeepsClasses (less : Elem → Elem → Bool) (elems result : List Elem) : Prop :=
  ∀ a, result.filter (equivalent less a) = elems.filter (equivalent less a)

namespace StrictWeakOrder

theorem equivalent_iff {a b : Elem} :
    equivalent less a b = true ↔ less a b = false ∧ less b a = false := by
  simp [equivalent]

theorem equivalent_self (order : StrictWeakOrder less) (a : Elem) : equivalent less a a = true :=
  equivalent_iff.mpr ⟨order.irrefl a, order.irrefl a⟩

theorem equivalent_symm {a b : Elem} (same : equivalent less a b = true) :
    equivalent less b a = true :=
  equivalent_iff.mpr (equivalent_iff.mp same).symm

theorem equivalent_trans (order : StrictWeakOrder less) {a b c : Elem}
    (first : equivalent less a b = true) (second : equivalent less b c = true) :
    equivalent less a c = true := by
  have left := equivalent_iff.mp first
  have right := equivalent_iff.mp second
  exact equivalent_iff.mpr (order.incomparable a b c left.1 left.2 right.1 right.2)

/-- What is not less than something greater is greater. -/
theorem less_of_less_of_not_less (order : StrictWeakOrder less) {a b c : Elem}
    (smaller : less a b = true) (notLess : less c b = false) :
    less a c = true := by
  by_contra notSmaller
  have back : (!less a b) = true := by
    apply order.not_less_trans b c a
    · simp [notLess]
    · simpa using notSmaller
  rw [smaller] at back
  cases back

/-- In a sequence that begins above an element no element is its equivalent. -/
theorem filter_eq_nil (order : StrictWeakOrder less) {a y x : Elem}
    {rest : List Elem} (same : equivalent less a y = true)
    (smaller : less y x = true) (ascending : Ascending less (x :: rest)) :
    (x :: rest).filter (equivalent less a) = [] := by
  apply List.filter_eq_nil_iff.mpr
  intro z member again
  have between := order.equivalent_trans (equivalent_symm same) again
  have above : less y z = true := by
    rcases List.mem_cons.mp member with here | later
    · rw [here]
      exact smaller
    · have notLess := (List.pairwise_cons.mp ascending).1 z later
      exact order.less_of_less_of_not_less smaller (by simpa using notLess)
  rw [(equivalent_iff.mp between).1] at above
  cases above

end StrictWeakOrder

open StrictWeakOrder

theorem KeepsClasses.trans {first second third : List Elem}
    (left : KeepsClasses less first second) (right : KeepsClasses less second third) :
    KeepsClasses less first third := by
  intro a
  rw [right a, left a]

theorem KeepsClasses.append {first second first' second' : List Elem}
    (left : KeepsClasses less first first') (right : KeepsClasses less second second') :
    KeepsClasses less (first ++ second) (first' ++ second') := by
  intro a
  rw [List.filter_append, List.filter_append, left a, right a]

theorem merge_keepsClasses (order : StrictWeakOrder less)
    {left right : List Elem} (first : Ascending less left) (second : Ascending less right) :
    KeepsClasses less (left ++ right)
      (left.merge right fun a b => !less b a) := by
  intro a
  induction left generalizing right with
  | nil => rw [List.nil_merge, List.nil_append]
  | cons x rest leftHypothesis =>
      induction right with
      | nil => rw [List.merge_right, List.append_nil]
      | cons y rest' rightHypothesis =>
          rw [List.cons_merge_cons]
          cases smaller : less y x with
          | false =>
              have merged := leftHypothesis (List.pairwise_cons.mp first).2 second
              rw [Bool.not_false, if_pos rfl, List.cons_append,
                List.filter_cons, List.filter_cons, merged]
          | true =>
              have merged := rightHypothesis (List.pairwise_cons.mp second).2
              rw [Bool.not_true, if_neg Bool.false_ne_true, List.filter_cons,
                merged, List.filter_append, List.filter_append,
                List.filter_cons (x := y)]
              by_cases same : equivalent less a y = true
              · rw [order.filter_eq_nil same smaller first, List.nil_append, List.nil_append]
              · rw [if_neg same, if_neg same]

theorem inplaceMerge_keepsClasses (order : StrictWeakOrder less) {left right merged : List Elem}
    (merges : inplaceMerge less left right = some merged) :
    KeepsClasses less (left ++ right) merged := by
  rw [inplaceMerge] at merges
  split at merges
  · rename_i asserted
    rw [Bool.and_eq_true, isSorted_iff, isSorted_iff] at asserted
    cases merges
    exact merge_keepsClasses order ((ascending_iff order).mpr asserted.1)
      ((ascending_iff order).mpr asserted.2)
  · cases merges

theorem sortPass_keepsClasses (order : StrictWeakOrder less) (elems : List Elem) :
    ∀ pass, sortPass less elems = some pass → KeepsClasses less elems pass.1 := by
  induction elems using sortPass.induct less with
  | case1 =>
      intro pass passed
      rw [sortPass] at passed
      cases passed
      exact fun _ => rfl
  | case2 a0 rest done =>
      intro pass passed
      have whole := (findEndOfRun_spec less a0 rest).1
      rw [done, List.append_nil] at whole
      rw [sortPass] at passed
      split at passed
      · cases passed
        rw [whole]
        exact fun _ => rfl
      · rename_i more
        rw [done] at more
        cases more
  | case3 a0 rest a1b0 rest1 more inductionHypothesis =>
      intro pass passed
      have whole := (findEndOfRun_spec less a0 rest).1
      have whole1 := (findEndOfRun_spec less a1b0 rest1).1
      rw [more] at whole
      rw [sortPass] at passed
      split at passed
      · rename_i done
        rw [more] at done
        cases done
      · rename_i first other again
        rw [more] at again
        cases again
        rcases Option.bind_eq_some_iff.mp passed with ⟨merged, merges, rest2⟩
        rcases Option.map_eq_some_iff.mp rest2 with ⟨later, passes, outcome⟩
        cases outcome
        have kept := (inplaceMerge_keepsClasses order merges).append
          (inductionHypothesis later passes)
        rw [List.append_assoc, List.cons_append, List.cons_append, whole1, whole] at kept
        exact kept

theorem listSort_keepsClasses (order : StrictWeakOrder less) {fuel : Nat}
    {elems sorted : List Elem} (ends : listSort less fuel elems = some sorted) :
    KeepsClasses less elems sorted := by
  induction fuel generalizing elems with
  | zero => cases ends
  | succ fuel inductionHypothesis =>
      rw [listSort] at ends
      rcases Option.bind_eq_some_iff.mp ends with ⟨pass, passed, rest⟩
      have kept := sortPass_keepsClasses order elems pass passed
      split at rest
      · exact kept.trans (inductionHypothesis rest)
      · split at rest
        · cases rest
          exact kept
        · cases rest

/-- An arrangement in order is determined by the order within each class of
equivalent elements. -/
theorem Ascending.eq_of_classes (order : StrictWeakOrder less)
    {left right : List Elem} (first : Ascending less left)
    (second : Ascending less right) (classes : KeepsClasses less left right) :
    right = left := by
  induction left generalizing right with
  | nil =>
      cases right with
      | nil => rfl
      | cons y rest =>
          have own := classes y
          rw [List.filter_cons, if_pos (order.equivalent_self y)] at own
          cases own
  | cons x rest inductionHypothesis =>
      cases right with
      | nil =>
          have own := classes x
          rw [List.filter_cons, if_pos (order.equivalent_self x)] at own
          cases own
      | cons y rest' =>
          have same : equivalent less x y = true := by
            -- the class of either head is not empty in the other sequence
            by_contra apart
            cases smaller : less y x with
            | true =>
                have own := classes y
                rw [order.filter_eq_nil (order.equivalent_self y) smaller first,
                  List.filter_cons, if_pos (order.equivalent_self y)] at own
                cases own
            | false =>
                have above : less x y = true := by
                  by_contra notAbove
                  apply apart
                  exact equivalent_iff.mpr ⟨by simpa using notAbove, smaller⟩
                have own := classes x
                rw [order.filter_eq_nil (order.equivalent_self x) above second,
                  List.filter_cons, if_pos (order.equivalent_self x)] at own
                cases own
          have heads := classes x
          rw [List.filter_cons, List.filter_cons, if_pos same,
            if_pos (order.equivalent_self x)] at heads
          have equal : y = x := (List.cons.inj heads).1
          subst equal
          have rests : KeepsClasses less rest rest' := by
            intro a
            have both := classes a
            rw [List.filter_cons, List.filter_cons] at both
            split at both
            · exact (List.cons.inj both).2
            · exact both
          rw [inductionHypothesis (List.pairwise_cons.mp first).2
            (List.pairwise_cons.mp second).2 rests]

/-- What a stable sort gives: the same elements in order, with equivalent ones
in the order in which they were. -/
structure StableSort (less : Elem → Elem → Bool) (elems sorted : List Elem) : Prop where
  perm : sorted.Perm elems
  ascending : Ascending less sorted
  stable : ∀ a b, equivalent less a b = true → [a, b].Sublist elems → [a, b].Sublist sorted

theorem KeepsClasses.keeps_order {elems sorted : List Elem}
    (order : StrictWeakOrder less) (kept : KeepsClasses less elems sorted)
    {a b : Elem} (same : equivalent less a b = true)
    (before : [a, b].Sublist elems) : [a, b].Sublist sorted := by
  have pair : [a, b].filter (equivalent less a) = [a, b] := by
    simp [order.equivalent_self a, same]
  have within := before.filter (equivalent less a)
  rw [pair, ← kept a] at within
  exact within.trans List.filter_sublist

theorem not_both_ways {elems : List Elem} (distinct : elems.Nodup) {a b : Elem}
    (forward : [a, b].Sublist elems) (backward : [b, a].Sublist elems) :
    a = b := by
  induction elems with
  | nil => cases forward
  | cons x rest inductionHypothesis =>
      have once := List.nodup_cons.mp distinct
      cases forward with
      | cons _ forward =>
          cases backward with
          | cons _ backward => exact inductionHypothesis once.2 forward backward
          | cons_cons _ backward =>
              have member : b ∈ [a, b] := by simp
              exact absurd (forward.subset member) once.1
      | cons_cons _ forward =>
          cases backward with
          | cons _ backward =>
              have member : a ∈ [b, a] := by simp
              exact absurd (backward.subset member) once.1
          | cons_cons _ backward => rfl

theorem StableSort.keepsClasses {elems sorted : List Elem}
    (order : StrictWeakOrder less) (distinct : elems.Nodup)
    (sort : StableSort less elems sorted) : KeepsClasses less elems sorted := by
  intro a
  have once : sorted.Nodup := sort.perm.nodup_iff.mpr distinct
  apply List.Perm.eq_of_pairwise
  · intro b c _ _ forward backward
    exact not_both_ways once forward backward
  · apply List.pairwise_iff_forall_sublist.mpr
    intro b c before
    exact before.trans List.filter_sublist
  · apply List.pairwise_iff_forall_sublist.mpr
    intro b c before
    have here : ∀ d ∈ [b, c], equivalent less a d = true := fun d member =>
      (List.mem_filter.mp (before.subset member)).2
    apply sort.stable
    · apply order.equivalent_trans
      · exact equivalent_symm (here b (by simp))
      · exact here c (by simp)
    · exact before.trans List.filter_sublist
  · exact sort.perm.filter _

/-- There is only one stable arrangement of distinct elements. -/
theorem StableSort.unique {elems sorted other : List Elem}
    (order : StrictWeakOrder less) (distinct : elems.Nodup)
    (sort : StableSort less elems sorted) (again : StableSort less elems other) :
    other = sorted := by
  apply Ascending.eq_of_classes order sort.ascending again.ascending
  intro a
  rw [again.keepsClasses order distinct a, sort.keepsClasses order distinct a]

theorem listSort_stable (order : StrictWeakOrder less) {fuel : Nat}
    {elems : List Elem} (enough : elems.length < fuel) :
    ∃ sorted, listSort less fuel elems = some sorted ∧
      StableSort less elems sorted := by
  rcases listSort_spec order enough with ⟨sorted, ends, perm, ascending⟩
  have kept := listSort_keepsClasses order ends
  refine ⟨sorted, ends, perm, ascending, ?_⟩
  intro a b same before
  exact kept.keeps_order order same before

/-! ## Ordered insertion -/

theorem orderedInsert_ascending (order : StrictWeakOrder less) (elem : Elem)
    {elems : List Elem} (ascending : Ascending less elems) :
    Ascending less (elems.orderedInsert (fun a b => less a b = true) elem) := by
  induction elems with
  | nil => exact List.pairwise_singleton _ _
  | cons b rest inductionHypothesis =>
      have split := List.pairwise_cons.mp ascending
      rw [List.orderedInsert_cons]
      split
      · rename_i smaller
        apply List.pairwise_cons.mpr
        constructor
        · have above : (!less b elem) = true := by
            have total := order.total elem b
            rw [smaller, Bool.not_true, Bool.or_false] at total
            exact total
          intro c member
          rcases List.mem_cons.mp member with here | later
          · rw [here]
            exact above
          · exact order.not_less_trans elem b c above (split.1 c later)
        · exact ascending
      · rename_i notSmaller
        apply List.pairwise_cons.mpr
        constructor
        · intro c member
          rcases (List.mem_orderedInsert _).mp member with here | later
          · rw [here]
            simpa using notSmaller
          · exact split.1 c later
        · exact inductionHypothesis split.2

/-- The inserted element comes after its equivalents. -/
theorem orderedInsert_keepsClasses (order : StrictWeakOrder less) (elem : Elem)
    {elems : List Elem} (ascending : Ascending less elems) :
    KeepsClasses less (elems ++ [elem])
      (elems.orderedInsert (fun a b => less a b = true) elem) := by
  intro a
  induction elems with
  | nil => rfl
  | cons b rest inductionHypothesis =>
      rw [List.orderedInsert_cons]
      split
      · rename_i smaller
        rw [List.filter_append, List.filter_cons (x := elem)]
        by_cases same : equivalent less a elem = true
        · rw [if_pos same, order.filter_eq_nil same smaller ascending,
            List.filter_cons, if_pos same, List.filter_nil, List.nil_append]
        · rw [if_neg same, List.filter_cons, List.filter_cons (x := elem),
            if_neg same, List.filter_nil, List.append_nil]
      · have later := inductionHypothesis (List.pairwise_cons.mp ascending).2
        rw [List.cons_append, List.filter_cons, later, List.filter_cons (x := b)]

/-- The elements inserted one after another. -/
def insertSorted (less : Elem → Elem → Bool) (elems : List Elem) : List Elem :=
  elems.foldl (fun sorted elem => sorted.orderedInsert (fun a b => less a b = true) elem) []

theorem foldl_orderedInsert (order : StrictWeakOrder less) (elems : List Elem)
    {sorted : List Elem} (ascending : Ascending less sorted) :
    Ascending less (elems.foldl (fun sorted elem =>
        sorted.orderedInsert (fun a b => less a b = true) elem) sorted) ∧
      KeepsClasses less (sorted ++ elems) (elems.foldl (fun sorted elem =>
        sorted.orderedInsert (fun a b => less a b = true) elem) sorted) := by
  induction elems generalizing sorted with
  | nil =>
      constructor
      · exact ascending
      · rw [List.append_nil]
        exact fun _ => rfl
  | cons elem rest inductionHypothesis =>
      have one := orderedInsert_keepsClasses order elem ascending
      have more := inductionHypothesis (orderedInsert_ascending order elem ascending)
      constructor
      · exact more.1
      · have unchanged : KeepsClasses less rest rest := fun _ => rfl
        have kept := (one.append unchanged).trans more.2
        rw [List.append_assoc, List.singleton_append] at kept
        exact kept

/-- Insertion one after another is the stable sort. -/
theorem insertSorted_eq (order : StrictWeakOrder less) {elems sorted : List Elem}
    (distinct : elems.Nodup) (sort : StableSort less elems sorted) :
    insertSorted less elems = sorted := by
  have inserted := foldl_orderedInsert order elems List.Pairwise.nil
  apply Ascending.eq_of_classes order sort.ascending inserted.1
  intro a
  have kept := inserted.2 a
  rw [List.nil_append] at kept
  rw [kept, sort.keepsClasses order distinct a]

/-- Where only equal elements are incomparable, two arrangements in order of
the same elements are the same. -/
theorem Ascending.unique {left right : List Elem}
    (first : Ascending less left) (second : Ascending less right) (perm : left.Perm right)
    (antisymm : ∀ a b, a ∈ left → b ∈ right → less a b = false →
      less b a = false → a = b) : left = right := by
  apply List.Perm.eq_of_pairwise _ first second perm
  intro a b inLeft inRight forward backward
  apply antisymm a b inLeft inRight
  · simpa using backward
  · simpa using forward

end CS162.Kernel

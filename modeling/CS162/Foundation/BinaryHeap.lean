import Mathlib.Data.List.Nodup
import Mathlib.Data.List.Perm.Basic
import Mathlib.Logic.Equiv.Basic

/-!
# Binary heaps in arrays

The cells of an array are numbered from one, so that the children of a cell
have the numbers `2 * i` and `2 * i + 1`.  An element that may be smaller than
its children floats down; this makes a heap of an array, and sorts it.
-/

namespace CS162.Foundation

universe u

/-- What a comparison has to fulfil for sorting: `gt a b` says that `a` comes
after `b`. -/
structure TotalComparison {α : Type u} (gt : α → α → Bool) : Prop where
  asymm : ∀ a b, gt a b = true → gt b a = false
  trans : ∀ a b c, gt a b = false → gt b c = false → gt a c = false

theorem TotalComparison.irrefl {α : Type u} {gt : α → α → Bool}
    (total : TotalComparison gt) (a : α) : gt a a = false := by
  cases compared : gt a a with
  | false => rfl
  | true => exact compared.symm.trans (total.asymm a a compared)

namespace BinaryHeap

variable {α : Type u}

section Operations

variable (gt : α → α → Bool)

/-- The larger of two cells, the second of which may lie beyond the heap. -/
def larger (cells : Nat → α) (cnt max child : Nat) : Nat :=
  if child ≤ cnt ∧ gt (cells child) (cells max) = true then child else max

/-- The largest among a cell and its children. -/
def largest (cells : Nat → α) (cnt i : Nat) : Nat :=
  larger gt cells cnt (larger gt cells cnt i (2 * i)) (2 * i + 1)

/-- The cells after two of them have changed places. -/
def swapCells (cells : Nat → α) (i j : Nat) : Nat → α := cells ∘ Equiv.swap i j

/-- The element of a cell floats down. -/
def floatDown (cnt : Nat) : Nat → (Nat → α) → Nat → Option (Nat → α)
  | 0, _, _ => none
  | fuel + 1, cells, i =>
      if largest gt cells cnt i = i then some cells
      else
        floatDown cnt fuel (swapCells cells i (largest gt cells cnt i)) (largest gt cells cnt i)

/-- The elements of the first cells float down, the last of these cells
first. -/
def buildHeap (cnt fuel : Nat) : (Nat → α) → Nat → Option (Nat → α)
  | cells, 0 => some cells
  | cells, i + 1 =>
      (floatDown gt cnt fuel cells (i + 1)).bind fun cells =>
        buildHeap cnt fuel cells i

/-- The first element of the heap goes behind its last one, again and again. -/
def takeHeap (fuel : Nat) : (Nat → α) → Nat → Option (Nat → α)
  | cells, 0 => some cells
  | cells, 1 => some cells
  | cells, i + 2 =>
      (floatDown gt (i + 1) fuel (swapCells cells 1 (i + 2)) 1).bind fun cells =>
        takeHeap fuel cells (i + 1)

/-- Heap sort. -/
def heapSort (cnt fuel : Nat) (cells : Nat → α) : Option (Nat → α) :=
  (buildHeap gt cnt fuel cells (cnt / 2)).bind fun cells =>
    takeHeap gt fuel cells cnt

/-- From the root on no child is greater than its parent. -/
def HeapFrom (cells : Nat → α) (root cnt : Nat) : Prop :=
  ∀ child, child ≤ cnt → root ≤ child / 2 → gt (cells child) (cells (child / 2)) = false

/-- A heap but for the children of one cell, which are not greater than its
parent at least. -/
structure HeapExcept (cells : Nat → α) (root cnt hole : Nat) : Prop where
  except : ∀ child, child ≤ cnt → root ≤ child / 2 → child / 2 ≠ hole →
    gt (cells child) (cells (child / 2)) = false
  grand : ∀ child, child ≤ cnt → child / 2 = hole → root ≤ hole / 2 →
    gt (cells child) (cells (hole / 2)) = false

end Operations

/-! ## Rearrangements -/

section Rearrangements

variable {cells after last : Nat → α} {low cnt : Nat}

/-- The cells have been permuted, and only those between two numbers. -/
def Rearranged (low cnt : Nat) (cells after : Nat → α) : Prop :=
  ∃ places : Equiv.Perm Nat, (∀ k, k < low ∨ cnt < k → places k = k) ∧ after = cells ∘ places

theorem Rearranged.refl (cells : Nat → α) : Rearranged low cnt cells cells :=
  ⟨Equiv.refl Nat, fun _ _ => rfl, rfl⟩

theorem Rearranged.trans (first : Rearranged low cnt cells after)
    (second : Rearranged low cnt after last) : Rearranged low cnt cells last := by
  rcases first with ⟨places, fixed, moved⟩
  rcases second with ⟨others, fixedAgain, movedAgain⟩
  refine ⟨others.trans places, ?_, ?_⟩
  · intro k outside
    rw [Equiv.trans_apply, fixedAgain k outside, fixed k outside]
  · rw [movedAgain, moved]
    rfl

theorem Rearranged.mono {wideLow wideCnt : Nat}
    (arranged : Rearranged low cnt cells after) (lower : wideLow ≤ low)
    (upper : cnt ≤ wideCnt) : Rearranged wideLow wideCnt cells after := by
  rcases arranged with ⟨places, fixed, moved⟩
  refine ⟨places, ?_, moved⟩
  intro k outside
  apply fixed
  omega

theorem swapCells_rearranged (cells : Nat → α) {i j : Nat} (first : low ≤ i)
    (order : low ≤ j) (last : i ≤ cnt) (bound : j ≤ cnt) :
    Rearranged low cnt cells (swapCells cells i j) := by
  refine ⟨Equiv.swap i j, ?_, rfl⟩
  intro k outside
  apply Equiv.swap_apply_of_ne_of_ne <;> omega

theorem swapCells_left (cells : Nat → α) (i j : Nat) : swapCells cells i j i = cells j :=
  congrArg cells (Equiv.swap_apply_left i j)

theorem swapCells_right (cells : Nat → α) (i j : Nat) : swapCells cells i j j = cells i :=
  congrArg cells (Equiv.swap_apply_right i j)

theorem swapCells_of_ne (cells : Nat → α) {i j k : Nat} (notFirst : k ≠ i)
    (notSecond : k ≠ j) : swapCells cells i j k = cells k :=
  congrArg cells (Equiv.swap_apply_of_ne_of_ne notFirst notSecond)

/-- Every cell has an element of a cell between the same numbers. -/
theorem Rearranged.source (arranged : Rearranged low cnt cells after) (k : Nat) :
    ∃ source, after k = cells source ∧
      (low ≤ k ∧ k ≤ cnt → low ≤ source ∧ source ≤ cnt) ∧
        (k < low ∨ cnt < k → source = k) := by
  rcases arranged with ⟨places, fixed, moved⟩
  refine ⟨places k, congrFun moved k, ?_, fixed k⟩
  intro inside
  by_contra outside
  have again := fixed (places k) (by omega)
  have same := places.injective again
  omega

/-- The elements in their order. -/
def elements (cells : Nat → α) (cnt : Nat) : List α := (List.range' 1 cnt).map cells

/-- A rearrangement permutes the elements. -/
theorem Rearranged.perm (arranged : Rearranged 1 cnt cells after) :
    (elements after cnt).Perm (elements cells cnt) := by
  rcases arranged with ⟨places, fixed, moved⟩
  have numbers : ((List.range' 1 cnt).map places).Perm (List.range' 1 cnt) := by
    have distinct : (List.range' 1 cnt).Nodup := List.nodup_range'
    rw [List.perm_ext_iff_of_nodup (distinct.map places.injective) distinct]
    intro k
    rw [List.mem_map, List.mem_range'_1]
    constructor
    · intro ⟨source, inside, same⟩
      rw [List.mem_range'_1] at inside
      by_contra outside
      have again := fixed k (by omega)
      have equal := places.injective (again.trans same.symm)
      omega
    · intro inside
      refine ⟨places.symm k, ?_, places.apply_symm_apply k⟩
      rw [List.mem_range'_1]
      by_contra outside
      have again := fixed (places.symm k) (by omega)
      rw [places.apply_symm_apply] at again
      omega
  unfold elements
  rw [moved, ← List.map_map]
  exact numbers.map cells

end Rearrangements

/-! ## Heaps -/

section Heaps

variable {gt : α → α → Bool} {cells after : Nat → α}
variable {root cnt hole i fuel : Nat}

theorem larger_spec (total : TotalComparison gt) (cells : Nat → α) (cnt max child : Nat) :
    gt (cells max) (cells (larger gt cells cnt max child)) = false ∧
      (child ≤ cnt → gt (cells child) (cells (larger gt cells cnt max child)) = false) ∧
      (larger gt cells cnt max child = max ∨
        larger gt cells cnt max child = child ∧ child ≤ cnt) := by
  unfold larger
  split
  · rename_i greater
    exact ⟨total.asymm _ _ greater.2, fun _ => total.irrefl _, Or.inr ⟨rfl, greater.1⟩⟩
  · rename_i notGreater
    refine ⟨total.irrefl _, ?_, Or.inl rfl⟩
    intro inside
    rw [← Bool.not_eq_true]
    exact fun greater => notGreater ⟨inside, greater⟩

/-- The largest cell is the cell or a child, and not smaller than the cell and
its children. -/
theorem largest_spec (total : TotalComparison gt) (cells : Nat → α)
    (cnt i : Nat) (positive : 0 < i) :
    gt (cells i) (cells (largest gt cells cnt i)) = false ∧
      (∀ child, child ≤ cnt → child / 2 = i →
        gt (cells child) (cells (largest gt cells cnt i)) = false) ∧
      (largest gt cells cnt i = i ∨
        largest gt cells cnt i / 2 = i ∧ i < largest gt cells cnt i ∧
          largest gt cells cnt i ≤ cnt) := by
  rcases larger_spec total cells cnt i (2 * i) with ⟨own, left, which⟩
  rcases larger_spec total cells cnt (larger gt cells cnt i (2 * i))
      (2 * i + 1) with ⟨max, right, last⟩
  have same :
      largest gt cells cnt i =
        larger gt cells cnt (larger gt cells cnt i (2 * i)) (2 * i + 1) := rfl
  rw [← same] at max right last
  refine ⟨total.trans _ _ _ own max, ?_, ?_⟩
  · intro child inside parent
    rcases (show child = 2 * i ∨ child = 2 * i + 1 by omega) with even | odd
    · rw [even] at inside ⊢
      exact total.trans _ _ _ (left inside) max
    · rw [odd] at inside ⊢
      exact right inside
  · omega

/-- The hole moves down to the largest child. -/
theorem HeapExcept.down (total : TotalComparison gt)
    (heap : HeapExcept gt cells root cnt hole) (positive : 0 < hole) (least : root ≤ hole)
    (moves : largest gt cells cnt hole ≠ hole) :
    HeapExcept gt (swapCells cells hole (largest gt cells cnt hole)) root cnt
      (largest gt cells cnt hole) := by
  rcases largest_spec total cells cnt hole positive with ⟨own, children, which⟩
  generalize largest gt cells cnt hole = max at *
  have parent : max / 2 = hole ∧ hole < max ∧ max ≤ cnt := by
    rcases which with same | below
    · exact absurd same moves
    · exact below
  constructor
  · intro child inside above notHole
    by_cases moved : child = max
    · rw [moved, parent.1, swapCells_left, swapCells_right]
      exact own
    · by_cases sibling : child / 2 = hole
      · rw [sibling, swapCells_left, swapCells_of_ne cells (by omega) moved]
        exact children child inside sibling
      · by_cases same : child = hole
        · rw [same] at above sibling ⊢
          rw [swapCells_left, swapCells_of_ne cells (by omega) (by omega)]
          exact heap.grand max parent.2.2 parent.1 above
        · rw [swapCells_of_ne cells same moved, swapCells_of_ne cells sibling notHole]
          exact heap.except child inside above sibling
  · intro child inside below above
    rw [parent.1, swapCells_left, swapCells_of_ne cells (by omega) (by omega)]
    have kept := heap.except child inside (by omega) (by omega)
    rw [below] at kept
    exact kept

/-- When the cell is not smaller than its children the heap has no hole. -/
theorem HeapExcept.finish (total : TotalComparison gt)
    (heap : HeapExcept gt cells root cnt hole) (positive : 0 < hole)
    (stays : largest gt cells cnt hole = hole) : HeapFrom gt cells root cnt := by
  have children := (largest_spec total cells cnt hole positive).2.1
  rw [stays] at children
  intro child inside above
  by_cases below : child / 2 = hole
  · rw [below]
    exact children child inside below
  · exact heap.except child inside above below

/-- Floating down ends with a heap, and only cells from the hole on have
changed. -/
theorem floatDown_spec (total : TotalComparison gt)
    (heap : HeapExcept gt cells root cnt hole) (positive : 0 < hole)
    (least : root ≤ hole) (inside : hole ≤ cnt) (enough : cnt < hole + fuel) :
    ∃ after, floatDown gt cnt fuel cells hole = some after ∧
      HeapFrom gt after root cnt ∧ Rearranged hole cnt cells after := by
  induction fuel generalizing cells hole with
  | zero => omega
  | succ fuel inductionHypothesis =>
      by_cases stays : largest gt cells cnt hole = hole
      · refine ⟨cells, ?_, heap.finish total positive stays, .refl cells⟩
        rw [floatDown, if_pos stays]
      · have which := (largest_spec total cells cnt hole positive).2.2
        have moved := heap.down total positive least stays
        rw [floatDown, if_neg stays]
        generalize largest gt cells cnt hole = max at *
        rcases inductionHypothesis moved (by omega) (by omega) (by omega)
            (by omega) with ⟨after, floats, result, arranged⟩
        refine ⟨after, floats, result, ?_⟩
        have swapped : Rearranged hole cnt cells (swapCells cells hole max) :=
          swapCells_rearranged cells (Nat.le_refl _) (by omega) inside (by omega)
        exact swapped.trans (arranged.mono (by omega) (Nat.le_refl _))

/-- The cells without children are a heap, and every cell before them makes it
larger. -/
theorem buildHeap_spec (total : TotalComparison gt) (bound : i ≤ cnt)
    (heap : HeapFrom gt cells (i + 1) cnt) (enough : cnt < fuel) :
    ∃ after, buildHeap gt cnt fuel cells i = some after ∧
      HeapFrom gt after 1 cnt ∧ Rearranged 1 cnt cells after := by
  induction i generalizing cells with
  | zero => exact ⟨cells, rfl, heap, .refl cells⟩
  | succ i inductionHypothesis =>
      have start : HeapExcept gt cells (i + 1) cnt (i + 1) := by
        constructor
        · intro child inside above notHole
          exact heap child inside (by omega)
        · intro child inside below above
          omega
      have room : cnt < i + 1 + fuel := by omega
      rcases floatDown_spec total start (by omega) (Nat.le_refl _) bound room
        with ⟨middle, floats, rooted, moved⟩
      rcases inductionHypothesis (by omega) rooted with ⟨after, builds, result, arranged⟩
      refine ⟨after, ?_, result, ?_⟩
      · rw [buildHeap, floats]
        exact builds
      · exact (moved.mono (by omega) (Nat.le_refl _)).trans arranged

/-- The first cell of a heap is the largest one. -/
theorem HeapFrom.root_largest (total : TotalComparison gt)
    (heap : HeapFrom gt cells 1 cnt) {k : Nat} (positive : 0 < k)
    (inside : k ≤ cnt) : gt (cells k) (cells 1) = false := by
  induction k using Nat.strongRecOn with
  | ind k inductionHypothesis =>
      by_cases first : k = 1
      · rw [first]
        exact total.irrefl _
      · have parent := inductionHypothesis (k / 2) (by omega) (by omega) (by omega)
        exact total.trans _ _ _ (heap k inside (by omega)) parent

/-- The state of the second phase: a heap, and behind it the sorted rest, which
is not smaller. -/
structure HeapAndSorted (gt : α → α → Bool) (cells : Nat → α)
    (size cnt : Nat) : Prop where
  heap : HeapFrom gt cells 1 size
  sorted : ∀ a b, size < a → a ≤ b → b ≤ cnt → gt (cells a) (cells b) = false
  below : ∀ a b, 0 < a → a ≤ size → size < b → b ≤ cnt → gt (cells a) (cells b) = false

/-- The largest element goes behind the heap, and the one that comes to the
first cell floats down. -/
theorem HeapAndSorted.take (total : TotalComparison gt)
    (state : HeapAndSorted gt cells (i + 2) cnt) (bound : i + 2 ≤ cnt) (enough : cnt < fuel) :
    ∃ after,
      floatDown gt (i + 1) fuel (swapCells cells 1 (i + 2)) 1 = some after ∧
        HeapAndSorted gt after (i + 1) cnt ∧ Rearranged 1 cnt cells after := by
  have largest : ∀ k, 0 < k → k ≤ i + 2 → gt (cells k) (cells 1) = false :=
    fun k positive inside => state.heap.root_largest total positive inside
  have start : HeapExcept gt (swapCells cells 1 (i + 2)) 1 (i + 1) 1 := by
    constructor
    · intro child inside above notRoot
      rw [swapCells_of_ne cells (by omega) (by omega), swapCells_of_ne cells (by omega) (by omega)]
      exact state.heap child (by omega) above
    · intro child inside below above
      omega
  have room : i + 1 < 1 + fuel := by omega
  rcases floatDown_spec total start (by omega) (Nat.le_refl _) (by omega) room
    with ⟨after, floats, heap, arranged⟩
  have swapped : Rearranged 1 cnt cells (swapCells cells 1 (i + 2)) :=
    swapCells_rearranged cells (Nat.le_refl _) (by omega) (by omega) bound
  have behind :
      ∀ b, i + 1 < b → b ≤ cnt →
        b = i + 2 ∧ after b = cells 1 ∨ i + 2 < b ∧ after b = cells b := by
    intro b outside last
    rcases arranged.source b with ⟨source, value, _, same⟩
    rw [same (Or.inr outside)] at value
    by_cases first : b = i + 2
    · rw [value, first, swapCells_right]
      exact Or.inl ⟨rfl, rfl⟩
    · rw [value, swapCells_of_ne cells (by omega) first]
      exact Or.inr ⟨by omega, rfl⟩
  have front :
      ∀ a, 0 < a → a ≤ i + 1 →
        ∃ source, 0 < source ∧ source ≤ i + 2 ∧ after a = cells source := by
    intro a positive inside
    rcases arranged.source a with ⟨source, value, within, _⟩
    have place := within ⟨positive, inside⟩
    by_cases first : source = 1
    · rw [first, swapCells_left] at value
      exact ⟨i + 2, by omega, Nat.le_refl _, value⟩
    · rw [swapCells_of_ne cells first (by omega)] at value
      exact ⟨source, place.1, by omega, value⟩
  refine ⟨after, floats, ⟨heap, ?_, ?_⟩, ?_⟩
  · intro a b outside order last
    rcases behind a outside (by omega) with ⟨_, first⟩ | ⟨farther, first⟩
    · rcases behind b (by omega) last with ⟨_, second⟩ | ⟨beyond, second⟩
      · rw [first, second]
        exact total.irrefl _
      · rw [first, second]
        exact state.below 1 b (by omega) (by omega) beyond last
    · rcases behind b (by omega) last with ⟨nearer, _⟩ | ⟨beyond, second⟩
      · omega
      · rw [first, second]
        exact state.sorted a b farther order last
  · intro a b positive inside outside last
    rcases front a positive inside with ⟨source, some, most, first⟩
    rcases behind b outside last with ⟨_, second⟩ | ⟨beyond, second⟩
    · rw [first, second]
      exact largest source some most
    · rw [first, second]
      exact state.below source b some most beyond last
  · exact swapped.trans (arranged.mono (Nat.le_refl _) (by omega))

/-- Elements are taken until at most one is left. -/
theorem takeHeap_spec (total : TotalComparison gt)
    (state : HeapAndSorted gt cells i cnt) (bound : i ≤ cnt) (enough : cnt < fuel) :
    ∃ after, takeHeap gt fuel cells i = some after ∧
      HeapAndSorted gt after (min i 1) cnt ∧ Rearranged 1 cnt cells after := by
  induction i generalizing cells with
  | zero => exact ⟨cells, rfl, state, .refl cells⟩
  | succ i inductionHypothesis =>
      cases i with
      | zero => exact ⟨cells, rfl, state, .refl cells⟩
      | succ i =>
          rcases state.take total bound enough with ⟨middle, floats, fewer, moved⟩
          rcases inductionHypothesis fewer (by omega) with ⟨after, takes, result, arranged⟩
          refine ⟨after, ?_, ?_, moved.trans arranged⟩
          · rw [takeHeap, floats]
            exact takes
          · rw [Nat.min_eq_right (by omega)] at result ⊢
            exact result

/-- Heap sort ends with a sorted permutation of the elements. -/
theorem heapSort_spec (total : TotalComparison gt) (cells : Nat → α) (enough : cnt < fuel) :
    ∃ after, heapSort gt cnt fuel cells = some after ∧
      Rearranged 1 cnt cells after ∧
        ∀ a b, 0 < a → a ≤ b → b ≤ cnt → gt (after a) (after b) = false := by
  have leaves : HeapFrom gt cells (cnt / 2 + 1) cnt := by
    intro child inside above
    omega
  rcases buildHeap_spec total (by omega) leaves enough with ⟨built, builds, heap, moved⟩
  have whole : HeapAndSorted gt built cnt cnt := by
    refine ⟨heap, ?_, ?_⟩
    · intro a b outside order last
      omega
    · intro a b positive inside outside last
      omega
  rcases takeHeap_spec total whole (Nat.le_refl _) enough with ⟨after, takes, result, arranged⟩
  refine ⟨after, ?_, moved.trans arranged, ?_⟩
  · rw [heapSort, builds]
    exact takes
  · intro a b positive order last
    by_cases first : min cnt 1 < a
    · exact result.sorted a b first order last
    · by_cases second : min cnt 1 < b
      · exact result.below a b positive (by omega) second last
      · have same : a = b := by omega
        rw [same]
        exact total.irrefl _

end Heaps

end BinaryHeap

end CS162.Foundation

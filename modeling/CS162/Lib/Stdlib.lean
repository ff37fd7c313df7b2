import CS162.Foundation.BinaryHeap
import CS162.Foundation.Memory

/-!
# Sorting and searching arrays

`sort`, `qsort`, `binary_search` and `bsearch` of `lib/stdlib.c`.  An access
outside of the array, a comparison of anything but elements of the array and a
failed assertion are `none`.
-/

namespace CS162.Lib

open CS162.Foundation

/-- An array in memory, with its number of elements and their size. -/
structure CArray where
  base : Nat
  cnt : Nat
  size : Nat
  addressable : base + cnt * size < unsignedModulus
  nonnull : 0 < cnt → base ≠ 0

/-- The bytes of an element. -/
abbrev Element (size : Nat) : Type := Fin size → UInt8

/-- The element at an address. -/
def elementAt (memory : Memory) (address size : Nat) : Element size := fun k => memory (address + k)

namespace CArray

variable (array : CArray)

/-- A byte of the array. -/
def Inside (address : Nat) : Prop :=
  array.base ≤ address ∧ address < array.base + array.cnt * array.size

instance (address : Nat) : Decidable (array.Inside address) := inferInstanceAs (Decidable (_ ∧ _))

/-- The address of an element of the array. -/
def IsElement (address : Nat) : Prop :=
  array.base ≤ address ∧ (address - array.base) % array.size = 0 ∧
    address + array.size ≤ array.base + array.cnt * array.size

instance (address : Nat) : Decidable (array.IsElement address) :=
  inferInstanceAs (Decidable (_ ∧ _ ∧ _))

def loadByte (memory : Memory) (address : Nat) : Option UInt8 :=
  if array.Inside address then some (memory address) else none

def storeByte (memory : Memory) (address : Nat) (value : UInt8) : Option Memory :=
  if array.Inside address then
    some fun other => if other = address then value else memory other
  else none

def loadElement (memory : Memory) (address : Nat) : Option (Element array.size) :=
  if array.IsElement address then
    some (elementAt memory address array.size)
  else none

/-- `array + (idx - 1) * size`. -/
def elementPtr (idx : Nat) : Nat :=
  wrap (array.base + wrap (wrap (idx + (unsignedModulus - 1)) * array.size))

/-- The loop of `do_swap` from byte `i` on. -/
def swapLoop (a b : Nat) : Nat → Nat → Memory → Option Memory
  | _, 0, memory => some memory
  | i, remaining + 1, memory => do
      let t ← array.loadByte memory (a + i)
      let memory ← array.storeByte memory (a + i) (← array.loadByte memory (b + i))
      let memory ← array.storeByte memory (b + i) t
      swapLoop a b (i + 1) remaining memory

/-- `do_swap`. -/
def doSwap (memory : Memory) (aIdx bIdx : Nat) : Option Memory :=
  array.swapLoop (array.elementPtr aIdx) (array.elementPtr bIdx) 0 array.size memory

section Sorting

variable {Aux : Type}
variable (compare : Element array.size → Element array.size → Aux → Int)
variable (aux : Aux)

/-- `do_compare`. -/
def doCompare (memory : Memory) (aIdx bIdx : Nat) : Option Int := do
  let a ← array.loadElement memory (array.elementPtr aIdx)
  let b ← array.loadElement memory (array.elementPtr bIdx)
  some (compare a b aux)

/-- The comparison of `heapify` with a child, which may not exist. -/
def larger (memory : Memory) (cnt max child : Nat) : Option Nat :=
  if child ≤ cnt then
    (array.doCompare compare aux memory child max).map fun result =>
      if 0 < result then child else max
  else some max

/-- `heapify`, with a bound on the turns of its loop. -/
def heapify (cnt : Nat) : Nat → Memory → Nat → Option Memory
  | 0, _, _ => none
  | fuel + 1, memory, i => do
      let left := wrap (2 * i)
      let right := wrap (2 * i + 1)
      let max ← array.larger compare aux memory cnt i left
      let max ← array.larger compare aux memory cnt max right
      if max = i then some memory
      else do
        let memory ← array.doSwap memory i max
        heapify cnt fuel memory max

/-- The loop of `sort` that builds a heap. -/
def buildLoop (fuel : Nat) : Memory → Nat → Option Memory
  | memory, 0 => some memory
  | memory, i + 1 => do
      let memory ← array.heapify compare aux array.cnt fuel memory (i + 1)
      buildLoop fuel memory i

/-- The loop of `sort` that sorts the heap. -/
def sortLoop (fuel : Nat) : Memory → Nat → Option Memory
  | memory, 0 => some memory
  | memory, 1 => some memory
  | memory, i + 2 => do
      let memory ← array.doSwap memory 1 (i + 2)
      let memory ← array.heapify compare aux (i + 1) fuel memory 1
      sortLoop fuel memory (i + 1)

/-- `sort`. -/
def sort (fuel : Nat) (memory : Memory) : Option Memory :=
  if (array.base ≠ 0 ∨ array.cnt = 0) ∧ 0 < array.size then do
    let memory ← array.buildLoop compare aux fuel memory (array.cnt / 2)
    array.sortLoop compare aux fuel memory array.cnt
  else none

end Sorting

/-- `compare_thunk`, whose auxiliary data is the comparison. -/
def compareThunk {Left Right : Type} (a : Left) (b : Right) (aux : Left → Right → Int) : Int :=
  aux a b

/-- `qsort`. -/
def qsort (compare : Element array.size → Element array.size → Int)
    (fuel : Nat) (memory : Memory) : Option Memory :=
  array.sort compareThunk compare fuel memory

/-- The loop of `binary_search`. -/
def searchLoop {Key Aux : Type} (compare : Key → Element array.size → Aux → Int)
    (key : Key) (aux : Aux) (memory : Memory) :
    Nat → Nat → Nat → Option (Option Nat)
  | 0, _, _ => none
  | fuel + 1, first, last =>
      if first < last then do
        let range := wrap (last + (unsignedModulus - first)) / array.size
        let middle := wrap (first + wrap (range / 2 * array.size))
        let element ← array.loadElement memory middle
        let cmp := compare key element aux
        if cmp < 0 then searchLoop compare key aux memory fuel first middle
        else if 0 < cmp then
          searchLoop compare key aux memory fuel (wrap (middle + array.size)) last
        else some (some middle)
      else some none

/-- `binary_search`. -/
def binarySearch {Key Aux : Type}
    (compare : Key → Element array.size → Aux → Int) (key : Key) (aux : Aux)
    (fuel : Nat) (memory : Memory) : Option (Option Nat) :=
  array.searchLoop compare key aux memory fuel array.base
    (wrap (array.base + wrap (array.size * array.cnt)))

/-- `bsearch`. -/
def bsearch {Key : Type} (compare : Key → Element array.size → Int) (key : Key)
    (fuel : Nat) (memory : Memory) : Option (Option Nat) :=
  array.binarySearch compareThunk key compare fuel memory

/-! ## Elements -/

section Elements

variable {array} {memory after last : Memory} {k other i j : Nat}

/-- The address of the element with the number `k`, counted from one. -/
def place (array : CArray) (k : Nat) : Nat := array.base + (k - 1) * array.size

/-- The places of the elements are in the array. -/
theorem place_room (positive : 0 < k) (inside : k ≤ array.cnt) :
    array.base ≤ array.place k ∧
      array.place k + array.size ≤ array.base + array.cnt * array.size := by
  have room : (k - 1 + 1) * array.size ≤ array.cnt * array.size :=
    Nat.mul_le_mul_right array.size (by omega)
  rw [Nat.add_mul, Nat.one_mul] at room
  unfold place
  omega

theorem cnt_lt (sized : 0 < array.size) : array.cnt < unsignedModulus := by
  have addressable := array.addressable
  have whole : array.cnt * 1 ≤ array.cnt * array.size := Nat.mul_le_mul_left array.cnt sized
  omega

theorem elementPtr_eq (sized : 0 < array.size) (positive : 0 < k)
    (inside : k ≤ array.cnt) : array.elementPtr k = array.place k := by
  have addressable := array.addressable
  have room := place_room positive inside
  have small := cnt_lt sized
  have modulus : unsignedModulus = 2 ^ 32 := rfl
  have before : wrap (k + (unsignedModulus - 1)) = k - 1 := by
    have moved : k + (unsignedModulus - 1) = k - 1 + unsignedModulus := by omega
    unfold wrap
    rw [moved, Nat.add_mod_right]
    exact Nat.mod_eq_of_lt (by omega)
  unfold place at room
  have offset : wrap ((k - 1) * array.size) = (k - 1) * array.size := wrap_of_lt (by omega)
  unfold elementPtr place
  rw [before, offset, wrap_of_lt (by omega)]

theorem isElement_place (positive : 0 < k) (inside : k ≤ array.cnt) :
    array.IsElement (array.place k) := by
  have room := place_room positive inside
  refine ⟨room.1, ?_, room.2⟩
  unfold place
  rw [Nat.add_sub_cancel_left]
  exact Nat.mul_mod_left _ _

/-- The places of two elements are apart. -/
theorem place_apart (array : CArray) (before : k < other) (positive : 0 < k) :
    array.place k + array.size ≤ array.place other := by
  have room : (k - 1 + 1) * array.size ≤ (other - 1) * array.size :=
    Nat.mul_le_mul_right array.size (by omega)
  rw [Nat.add_mul, Nat.one_mul] at room
  unfold place
  omega

/-- The elements of the array, which are numbered from one. -/
def Represents (array : CArray) (memory : Memory) (cells : Nat → Element array.size) : Prop :=
  ∀ k, 0 < k → k ≤ array.cnt → elementAt memory (array.place k) array.size = cells k

/-- Nothing outside of the array has changed. -/
def KeepsOthers (array : CArray) (memory after : Memory) : Prop :=
  ∀ address, ¬array.Inside address → after address = memory address

theorem KeepsOthers.trans (first : array.KeepsOthers memory after)
    (second : array.KeepsOthers after last) : array.KeepsOthers memory last := by
  intro address outside
  rw [second address outside, first address outside]

/-- The bytes of two ranges have changed places, from the byte `i` on. -/
theorem swapLoop_eq {a b remaining : Nat} (apart : Apart a (a + array.size) b (b + array.size))
    (first : array.base ≤ a) (firstEnd : a + array.size ≤ array.base + array.cnt * array.size)
    (second : array.base ≤ b) (secondEnd : b + array.size ≤ array.base + array.cnt * array.size)
    (whole : i + remaining = array.size) :
    ∃ after, array.swapLoop a b i remaining memory = some after ∧
      ∀ address,
        after address =
          if a + i ≤ address ∧ address < a + array.size then
            memory (b + (address - a))
          else if b + i ≤ address ∧ address < b + array.size then
            memory (a + (address - b))
          else memory address := by
  induction remaining generalizing i memory with
  | zero =>
      refine ⟨memory, rfl, ?_⟩
      intro address
      rw [if_neg (by omega), if_neg (by omega)]
  | succ remaining inductionHypothesis =>
      unfold Apart at apart
      have insideFirst : array.Inside (a + i) := ⟨by omega, by omega⟩
      have insideSecond : array.Inside (b + i) := ⟨by omega, by omega⟩
      let middle : Memory := fun other =>
        if other = b + i then memory (a + i)
        else if other = a + i then memory (b + i)
        else memory other
      rcases @inductionHypothesis middle (i + 1) (by omega) with ⟨after, swaps, values⟩
      refine ⟨after, ?_, ?_⟩
      · rw [swapLoop]
        simp only [loadByte, storeByte, if_pos insideFirst, if_pos insideSecond,
          Option.bind_eq_bind, Option.bind_some]
        exact swaps
      · intro address
        rw [values address]
        have written : ∀ other,
              middle other = if other = b + i then memory (a + i)
                else if other = a + i then memory (b + i)
                else memory other :=
          fun _ => rfl
        simp only [written]
        split_ifs <;> first
          | rfl
          | exact congrArg memory (by omega)

/-- `do_swap` exchanges two elements. -/
theorem doSwap_eq {cells : Nat → Element array.size} (sized : 0 < array.size)
    (represents : array.Represents memory cells) (positive : 0 < i)
    (order : i < j) (inside : j ≤ array.cnt) :
    ∃ after, array.doSwap memory i j = some after ∧
      array.Represents after (BinaryHeap.swapCells cells i j) ∧
        array.KeepsOthers memory after := by
  have first := place_room positive (Nat.le_of_lt (Nat.lt_of_lt_of_le order inside))
  have second := place_room (Nat.lt_trans positive order) inside
  have apart := place_apart array order positive
  have whole : 0 + array.size = array.size := Nat.zero_add _
  rcases @swapLoop_eq array memory 0 _ _ _ (Or.inl apart) first.1 first.2
      second.1 second.2 whole with ⟨after, swaps, values⟩
  refine ⟨after, ?_, ?_, ?_⟩
  · unfold doSwap
    rw [elementPtr_eq sized positive (by omega), elementPtr_eq sized (by omega) inside]
    exact swaps
  · intro k some most
    by_cases left : k = i
    · rw [left, BinaryHeap.swapCells_left, ← represents j (by omega) inside]
      funext byte
      have bound := byte.isLt
      unfold elementAt
      rw [values, if_pos ⟨by omega, by omega⟩]
      exact congrArg memory (by omega)
    · by_cases right : k = j
      · rw [right, BinaryHeap.swapCells_right, ← represents i positive (by omega)]
        funext byte
        have bound := byte.isLt
        unfold elementAt
        rw [values, if_neg (by omega), if_pos ⟨by omega, by omega⟩]
        exact congrArg memory (by omega)
      · rw [BinaryHeap.swapCells_of_ne cells left right, ← represents k some most]
        funext byte
        have bound := byte.isLt
        have offFirst :
            array.place k + array.size ≤ array.place i ∨
              array.place i + array.size ≤ array.place k := by
          rcases Nat.lt_or_gt_of_ne left with before | behind
          · exact Or.inl (place_apart array before some)
          · exact Or.inr (place_apart array behind positive)
        have offSecond :
            array.place k + array.size ≤ array.place j ∨
              array.place j + array.size ≤ array.place k := by
          rcases Nat.lt_or_gt_of_ne right with before | behind
          · exact Or.inl (place_apart array before some)
          · exact Or.inr (place_apart array behind (by omega))
        unfold elementAt
        rw [values, if_neg (by omega), if_neg (by omega)]
  · intro address outside
    have away :
        address < array.base ∨
          array.base + array.cnt * array.size ≤ address := by
      unfold Inside at outside
      omega
    rw [values, if_neg (by omega), if_neg (by omega)]

theorem loadElement_eq {cells : Nat → Element array.size}
    (represents : array.Represents memory cells) (positive : 0 < k) (inside : k ≤ array.cnt) :
    array.loadElement memory (array.place k) = some (cells k) := by
  rw [loadElement, if_pos (isElement_place positive inside), represents k positive inside]

end Elements

/-! ## Sorting -/

/-- A `strcmp`-like comparison of a total preorder. -/
structure TotalPreorder {Item : Type} (compare : Item → Item → Int) : Prop where
  antisymm : ∀ a b, 0 < compare a b ↔ compare b a < 0
  trans : ∀ a b c, compare a b ≤ 0 → compare b c ≤ 0 → compare a c ≤ 0

/-- The first item comes after the second. -/
def greater {Item : Type} (compare : Item → Item → Int) (a b : Item) : Bool :=
  decide (0 < compare a b)

theorem TotalPreorder.comparison {Item : Type} {compare : Item → Item → Int}
    (total : TotalPreorder compare) : TotalComparison (greater compare) where
  asymm a b after := by
    have before := (total.antisymm a b).mp (of_decide_eq_true after)
    exact decide_eq_false (by omega)
  trans a b c first second := by
    have one := of_decide_eq_false first
    have two := of_decide_eq_false second
    have three := total.trans a b c (by omega) (by omega)
    exact decide_eq_false (by omega)

section Simulation

variable {array} {Aux : Type}
variable {compare : Element array.size → Element array.size → Aux → Int}
variable {aux : Aux} {memory : Memory} {cells after : Nat → Element array.size}
variable {cnt max child i fuel : Nat}

theorem larger_eq (sized : 0 < array.size)
    (represents : array.Represents memory cells) (bound : cnt ≤ array.cnt)
    (positive : 0 < max) (inside : max ≤ array.cnt) (below : 0 < child) :
    array.larger compare aux memory cnt max child =
      some
        (BinaryHeap.larger (greater (compare · · aux)) cells cnt max child) := by
  unfold larger BinaryHeap.larger greater
  by_cases exists_ : child ≤ cnt
  · have room : child ≤ array.cnt := Nat.le_trans exists_ bound
    rw [if_pos exists_, doCompare, elementPtr_eq sized below room,
      elementPtr_eq sized positive inside, loadElement_eq represents below room,
      loadElement_eq represents positive inside, Option.bind_eq_bind,
      Option.bind_some, Option.bind_some, Option.map_some]
    by_cases after : 0 < compare (cells child) (cells max) aux
    · rw [if_pos after, if_pos ⟨exists_, decide_eq_true after⟩]
    · rw [if_neg after, if_neg]
      intro both
      exact after (of_decide_eq_true both.2)
  · rw [if_neg exists_, if_neg]
    intro both
    exact exists_ both.1

theorem larger_range {gt : Element array.size → Element array.size → Bool}
    (positive : 0 < max) (inside : max ≤ cnt) (below : 0 < child) :
    0 < BinaryHeap.larger gt cells cnt max child ∧
      BinaryHeap.larger gt cells cnt max child ≤ cnt := by
  unfold BinaryHeap.larger
  split
  · rename_i both
    exact ⟨below, both.1⟩
  · exact ⟨positive, inside⟩

/-- `heapify` floats an element down. -/
theorem heapify_eq (sized : 0 < array.size) (count : array.cnt < 2 ^ 31)
    (total : TotalPreorder (compare · · aux))
    (represents : array.Represents memory cells) (bound : cnt ≤ array.cnt)
    (positive : 0 < i) (inside : i ≤ cnt)
    (floats : BinaryHeap.floatDown (greater (compare · · aux)) cnt fuel cells i = some after) :
    ∃ result, array.heapify compare aux cnt fuel memory i = some result ∧
      array.Represents result after ∧ array.KeepsOthers memory result := by
  induction fuel generalizing memory cells i with
  | zero => cases floats
  | succ fuel inductionHypothesis =>
      have modulus : unsignedModulus = 2 ^ 32 := rfl
      have left : wrap (2 * i) = 2 * i := wrap_of_lt (by omega)
      have right : wrap (2 * i + 1) = 2 * i + 1 := wrap_of_lt (by omega)
      have first := @larger_eq array Aux compare aux memory cells cnt i (2 * i)
        sized represents bound positive (by omega) (by omega)
      have between := @larger_range array cells cnt i (2 * i)
        (greater (compare · · aux)) positive inside (by omega)
      have second := @larger_eq array Aux compare aux memory cells cnt _
        (2 * i + 1) sized represents bound between.1 (by omega) (by omega)
      have which := (BinaryHeap.largest_spec total.comparison cells cnt i positive).2.2
      have turn :
          array.heapify compare aux cnt (fuel + 1) memory i =
            if BinaryHeap.largest (greater (compare · · aux)) cells cnt i = i
            then some memory
            else
              (array.doSwap memory i
                  (BinaryHeap.largest (greater (compare · · aux)) cells cnt
                    i)).bind fun memory =>
                array.heapify compare aux cnt fuel memory
                  (BinaryHeap.largest (greater (compare · · aux)) cells cnt
                    i) := by
        rw [heapify]
        simp only [left, right, first, Option.bind_eq_bind, Option.bind_some]
        rw [second]
        rfl
      rw [turn]
      rw [BinaryHeap.floatDown] at floats
      by_cases stays : BinaryHeap.largest (greater (compare · · aux)) cells cnt i = i
      · rw [if_pos stays, Option.some.injEq] at floats
        rw [if_pos stays, ← floats]
        exact ⟨memory, rfl, represents, fun _ _ => rfl⟩
      · rw [if_neg stays] at floats ⊢
        generalize BinaryHeap.largest (greater (compare · · aux)) cells cnt i = max at *
        rcases doSwap_eq sized represents positive (show i < max by omega)
            (by omega) with ⟨middle, swaps, swapped, same⟩
        rcases inductionHypothesis swapped (by omega) (by omega) floats with
          ⟨result, heapifies, kept, others⟩
        refine ⟨result, ?_, kept, same.trans others⟩
        rw [swaps]
        exact heapifies

/-- The first loop of `sort` builds a heap. -/
theorem buildLoop_eq (sized : 0 < array.size) (count : array.cnt < 2 ^ 31)
    (total : TotalPreorder (compare · · aux))
    (represents : array.Represents memory cells) (inside : i ≤ array.cnt)
    (builds :
      BinaryHeap.buildHeap (greater (compare · · aux)) array.cnt fuel cells i = some after) :
    ∃ result, array.buildLoop compare aux fuel memory i = some result ∧
      array.Represents result after ∧ array.KeepsOthers memory result := by
  induction i generalizing memory cells with
  | zero =>
      rw [BinaryHeap.buildHeap, Option.some.injEq] at builds
      rw [← builds]
      exact ⟨memory, rfl, represents, fun _ _ => rfl⟩
  | succ i inductionHypothesis =>
      rcases Option.bind_eq_some_iff.mp builds with ⟨middle, floats, rest⟩
      rcases heapify_eq sized count total represents (Nat.le_refl _)
          (Nat.succ_pos i) inside floats with ⟨first, heapifies, kept, same⟩
      rcases inductionHypothesis kept (by omega) rest with ⟨result, loop, represented, others⟩
      refine ⟨result, ?_, represented, same.trans others⟩
      rw [buildLoop, heapifies]
      exact loop

/-- The second loop of `sort` sorts the heap. -/
theorem sortLoop_eq (sized : 0 < array.size) (count : array.cnt < 2 ^ 31)
    (total : TotalPreorder (compare · · aux))
    (represents : array.Represents memory cells) (inside : i ≤ array.cnt)
    (takes : BinaryHeap.takeHeap (greater (compare · · aux)) fuel cells i = some after) :
    ∃ result, array.sortLoop compare aux fuel memory i = some result ∧
      array.Represents result after ∧ array.KeepsOthers memory result := by
  induction i generalizing memory cells with
  | zero =>
      rw [BinaryHeap.takeHeap, Option.some.injEq] at takes
      rw [← takes]
      exact ⟨memory, rfl, represents, fun _ _ => rfl⟩
  | succ i inductionHypothesis =>
      cases i with
      | zero =>
          rw [BinaryHeap.takeHeap, Option.some.injEq] at takes
          rw [← takes]
          exact ⟨memory, rfl, represents, fun _ _ => rfl⟩
      | succ i =>
          rcases Option.bind_eq_some_iff.mp takes with ⟨middle, floats, rest⟩
          rcases doSwap_eq sized represents Nat.one_pos
              (show 1 < i + 2 by omega) inside with
            ⟨first, swaps, swapped, same⟩
          rcases heapify_eq sized count total swapped (by omega) Nat.one_pos
              (Nat.succ_le_succ (Nat.zero_le i)) floats with
            ⟨second, heapifies, kept, again⟩
          rcases inductionHypothesis kept (by omega) rest with ⟨result, loop, represented, others⟩
          refine ⟨result, ?_, represented, (same.trans again).trans others⟩
          rw [sortLoop, swaps, Option.bind_eq_bind, Option.bind_some, heapifies]
          exact loop

end Simulation

/-- The elements of the array in their order. -/
def elements (memory : Memory) : List (Element array.size) :=
  (List.range array.cnt).map fun k =>
    elementAt memory (array.base + k * array.size) array.size

/-- The function ends, with a sorted permutation of the elements, and nothing
outside of the array has changed. -/
def SortsBy (compare : Element array.size → Element array.size → Int)
    (run : Nat → Memory → Option Memory) : Prop :=
  ∀ memory bound, array.cnt < bound →
    ∃ after, run bound memory = some after ∧
      (array.elements after).Perm (array.elements memory) ∧
      ((array.elements after).Pairwise fun a b => compare a b ≤ 0) ∧
      ∀ address, ¬array.Inside address → after address = memory address

section Guarantee

variable {array} {memory : Memory} {cells : Nat → Element array.size}

theorem Represents.elements (represents : array.Represents memory cells) :
    array.elements memory = BinaryHeap.elements cells array.cnt := by
  unfold CArray.elements BinaryHeap.elements
  rw [List.range'_eq_map_range, List.map_map]
  apply List.map_congr_left
  intro k member
  have inside := List.mem_range.mp member
  have element := represents (1 + k) (by omega) (by omega)
  unfold place at element
  rw [Nat.add_sub_cancel_left] at element
  exact element

/-- `sort` sorts. -/
theorem sort_sortsBy {Aux : Type}
    {compare : Element array.size → Element array.size → Aux → Int} {aux : Aux}
    (sized : 0 < array.size) (count : array.cnt < 2 ^ 31)
    (total : TotalPreorder (compare · · aux)) :
    array.SortsBy (compare · · aux) (array.sort compare aux) := by
  intro memory bound enough
  let cells : Nat → Element array.size := fun k =>
    elementAt memory (array.place k) array.size
  have represents : array.Represents memory cells := fun _ _ _ => rfl
  rcases BinaryHeap.heapSort_spec total.comparison cells enough with
    ⟨after, sorts, arranged, sorted⟩
  rcases Option.bind_eq_some_iff.mp sorts with ⟨heap, builds, takes⟩
  rcases buildLoop_eq sized count total represents (Nat.div_le_self _ _) builds
    with ⟨built, first, heaped, same⟩
  rcases sortLoop_eq sized count total heaped (Nat.le_refl _) takes with
    ⟨result, second, represented, others⟩
  refine ⟨result, ?_, ?_, ?_, same.trans others⟩
  · have asserted : (array.base ≠ 0 ∨ array.cnt = 0) ∧ 0 < array.size := by
      have nonnull := array.nonnull
      exact ⟨by omega, sized⟩
    rw [sort, if_pos asserted, first]
    exact second
  · rw [represented.elements, represents.elements]
    exact arranged.perm
  · rw [represented.elements, BinaryHeap.elements, List.pairwise_map]
    have ordered : (List.range' 1 array.cnt).Pairwise (· < ·) := List.pairwise_lt_range'
    apply ordered.imp_of_mem
    intro a b inA inB order
    rw [List.mem_range'_1] at inA inB
    have kept := sorted a b (by omega) (by omega) (by omega)
    exact not_lt.mp (of_decide_eq_false kept)

/-- `sort` and `qsort` sort every array of fewer than `2 ^ 31` elements by every
total preorder. -/
theorem heap_sort_sorts (array : CArray) (sized : 0 < array.size) (count : array.cnt < 2 ^ 31) :
    (∀ (Aux : Type)
        (compare : Element array.size → Element array.size → Aux → Int)
        (aux : Aux), TotalPreorder (compare · · aux) →
          array.SortsBy (compare · · aux) (array.sort compare aux)) ∧
      ∀ compare, TotalPreorder compare →
        array.SortsBy compare (array.qsort compare) := by
  constructor
  · intro Aux compare aux total
    exact sort_sortsBy sized count total
  · intro compare total
    exact sort_sortsBy sized count total

end Guarantee

/-! ## Searching -/

/-- The comparison with a key is consistent with an order of the elements: a key
that comes before an element comes before all later ones, and a key that comes
after an element comes after all earlier ones. -/
structure KeyConsistent {Item : Type} (order : Item → Item → Int)
    (compareKey : Item → Int) : Prop where
  before : ∀ a b, order a b ≤ 0 → compareKey a < 0 → compareKey b < 0
  after : ∀ a b, order a b ≤ 0 → 0 < compareKey b → 0 < compareKey a

/-- A key of the type of the elements, compared as they are. -/
theorem TotalPreorder.keyConsistent {Item : Type} {compare : Item → Item → Int}
    (total : TotalPreorder compare) (key : Item) :
    KeyConsistent compare (compare key) where
  before a b order less := by
    apply (total.antisymm b key).mp
    by_contra other
    have back := total.trans a b key order (by omega)
    have after := (total.antisymm a key).mpr less
    omega
  after a b order more := by
    by_contra other
    have back := total.trans key a b (by omega) order
    omega

/-- The element with the number `k`, counted from zero. -/
def item (memory : Memory) (k : Nat) : Element array.size :=
  elementAt memory (array.base + k * array.size) array.size

/-- The elements are in order. -/
def Sorted (order : Element array.size → Element array.size → Int) (memory : Memory) : Prop :=
  ∀ i j, i < j → j < array.cnt → order (array.item memory i) (array.item memory j) ≤ 0

/-- The function ends, with a pointer to an element that equals the key, or with
a null pointer if there is none. -/
def FindsBy (compareKey : Element array.size → Int) (memory : Memory)
    (run : Nat → Memory → Option (Option Nat)) : Prop :=
  ∀ bound, array.cnt < bound →
    ∃ result, run bound memory = some result ∧
      (∀ p ∈ result, ∃ k, k < array.cnt ∧ p = array.base + k * array.size ∧
        compareKey (array.item memory k) = 0) ∧
      (result = none → ∀ k, k < array.cnt → compareKey (array.item memory k) ≠ 0)

section Search

variable {array} {memory : Memory} {Key Aux : Type}
variable {order : Element array.size → Element array.size → Int}
variable {compare : Key → Element array.size → Aux → Int} {key : Key} {aux : Aux}
variable {lo hi fuel k : Nat}

theorem offset_lt (inside : k ≤ array.cnt) :
    k * array.size ≤ array.cnt * array.size ∧
      array.base + k * array.size < unsignedModulus := by
  have addressable := array.addressable
  have room : k * array.size ≤ array.cnt * array.size := Nat.mul_le_mul_right array.size inside
  omega

/-- The middle of the elements from `lo` to `hi`, as the loop computes it. -/
theorem middle_eq (sized : 0 < array.size) (order : lo < hi) (inside : hi ≤ array.cnt) :
    wrap (array.base + lo * array.size +
        wrap (wrap (array.base + hi * array.size +
          (unsignedModulus - (array.base + lo * array.size))) / array.size / 2 * array.size)) =
      array.base + (lo + (hi - lo) / 2) * array.size := by
  have modulus : unsignedModulus = 2 ^ 32 := rfl
  have last := @offset_lt array hi inside
  have first := @offset_lt array lo (by omega)
  have half := @offset_lt array (lo + (hi - lo) / 2) (by omega)
  have split : hi * array.size = (hi - lo) * array.size + lo * array.size := by
    rw [← Nat.add_mul, Nat.sub_add_cancel (Nat.le_of_lt order)]
  have distance :
      wrap (array.base + hi * array.size +
          (unsignedModulus - (array.base + lo * array.size))) =
        (hi - lo) * array.size := by
    have moved :
        array.base + hi * array.size +
            (unsignedModulus - (array.base + lo * array.size)) =
          (hi - lo) * array.size + unsignedModulus := by omega
    unfold wrap
    rw [moved, Nat.add_mod_right]
    exact Nat.mod_eq_of_lt (by omega)
  rw [distance, Nat.mul_div_cancel _ sized]
  rw [Nat.add_mul] at half ⊢
  have offset : wrap ((hi - lo) / 2 * array.size) = (hi - lo) / 2 * array.size :=
    wrap_of_lt (by omega)
  rw [offset, wrap_of_lt (by omega), Nat.add_assoc]

/-- One turn of the loop compares the key with the element in the middle. -/
theorem searchLoop_turn (sized : 0 < array.size) (order : lo < hi)
    (inside : hi ≤ array.cnt) {mid : Nat} (middle : lo + (hi - lo) / 2 = mid) :
    array.searchLoop compare key aux memory (fuel + 1)
        (array.base + lo * array.size) (array.base + hi * array.size) =
      if compare key (array.item memory mid) aux < 0 then
        array.searchLoop compare key aux memory fuel
          (array.base + lo * array.size) (array.base + mid * array.size)
      else if 0 < compare key (array.item memory mid) aux then
        array.searchLoop compare key aux memory fuel
          (array.base + (mid + 1) * array.size) (array.base + hi * array.size)
      else some (some (array.base + mid * array.size)) := by
  have less : lo * array.size < hi * array.size := Nat.mul_lt_mul_of_pos_right order sized
  have inner : mid + 1 ≤ hi := by omega
  have next := @offset_lt array (mid + 1) (by omega)
  rw [Nat.add_mul, Nat.one_mul] at next
  have element : array.IsElement (array.base + mid * array.size) := by
    refine ⟨Nat.le_add_right _ _, ?_, by omega⟩
    rw [Nat.add_sub_cancel_left]
    exact Nat.mul_mod_left _ _
  have loaded :
      array.loadElement memory (array.base + mid * array.size) = some (array.item memory mid) :=
    if_pos element
  have behind :
      wrap (array.base + mid * array.size + array.size) = array.base + (mid + 1) * array.size := by
    rw [Nat.add_mul, Nat.one_mul, wrap_of_lt (by omega), Nat.add_assoc]
  rw [searchLoop, if_pos (by omega)]
  dsimp only
  rw [middle_eq sized order inside, middle, loaded, Option.bind_eq_bind, Option.bind_some, behind]

/-- The loop searches among the elements from `lo` to `hi`; the others are known
to differ from the key. -/
theorem searchLoop_eq (sized : 0 < array.size) (sorted : array.Sorted order memory)
    (consistent : KeyConsistent order (compare key · aux)) (ordered : lo ≤ hi)
    (inside : hi ≤ array.cnt) (enough : hi - lo < fuel)
    (low : ∀ k, k < lo → 0 < compare key (array.item memory k) aux)
    (high : ∀ k, hi ≤ k → k < array.cnt → compare key (array.item memory k) aux < 0) :
    ∃ result,
      array.searchLoop compare key aux memory fuel
          (array.base + lo * array.size) (array.base + hi * array.size) =
        some result ∧
      (∀ p ∈ result, ∃ k, k < array.cnt ∧ p = array.base + k * array.size ∧
        compare key (array.item memory k) aux = 0) ∧
      (result = none →
        ∀ k, k < array.cnt → compare key (array.item memory k) aux ≠ 0) := by
  induction fuel generalizing lo hi with
  | zero => omega
  | succ fuel inductionHypothesis =>
      by_cases finished : lo = hi
      · refine ⟨none, ?_, ?_, ?_⟩
        · rw [searchLoop, finished, if_neg (Nat.lt_irrefl _)]
        · intro p impossible
          cases impossible
        · intro _ k last
          by_cases before : k < lo
          · exact Int.ne_of_gt (low k before)
          · exact Int.ne_of_lt (high k (by omega) last)
      · have order : lo < hi := by omega
        obtain ⟨mid, middle⟩ : ∃ mid, lo + (hi - lo) / 2 = mid := ⟨_, rfl⟩
        rw [searchLoop_turn sized order inside middle]
        by_cases less : compare key (array.item memory mid) aux < 0
        · rw [if_pos less]
          apply inductionHypothesis (by omega) (by omega) (by omega) low
          intro k beyond last
          by_cases same : mid = k
          · rw [← same]
            exact less
          · exact consistent.before _ _ (sorted mid k (by omega) last) less
        · by_cases more : 0 < compare key (array.item memory mid) aux
          · rw [if_neg less, if_pos more]
            apply inductionHypothesis (by omega) inside (by omega) ?_ high
            intro k before
            by_cases same : k = mid
            · rw [same]
              exact more
            · exact consistent.after _ _ (sorted k mid (by omega) (by omega)) more
          · rw [if_neg less, if_neg more]
            refine ⟨some (array.base + mid * array.size), rfl, ?_, ?_⟩
            · intro p same
              cases same
              exact ⟨mid, by omega, rfl, by omega⟩
            · intro impossible
              cases impossible

theorem binarySearch_findsBy (sized : 0 < array.size) (sorted : array.Sorted order memory)
    (consistent : KeyConsistent order (compare key · aux)) :
    array.FindsBy (compare key · aux) memory
      (array.binarySearch compare key aux) := by
  intro bound enough
  have last := @offset_lt array array.cnt (Nat.le_refl _)
  have start : array.base = array.base + 0 * array.size := by
    rw [Nat.zero_mul, Nat.add_zero]
  have whole : wrap (array.cnt * array.size) = array.cnt * array.size := wrap_of_lt (by omega)
  have stop :
      wrap (array.base + wrap (array.size * array.cnt)) = array.base + array.cnt * array.size := by
    rw [Nat.mul_comm, whole, wrap_of_lt last.2]
  rw [binarySearch, stop]
  nth_rewrite 1 [start]
  apply searchLoop_eq sized sorted consistent (Nat.zero_le _) (Nat.le_refl _) (by omega)
  · intro k impossible
    omega
  · intro k beyond inside
    omega

/-- `binary_search` and `bsearch` find an element that equals the key in every
sorted array that has one. -/
theorem binary_search_complete (array : CArray) (sized : 0 < array.size)
    (memory : Memory) (order : Element array.size → Element array.size → Int)
    (sorted : array.Sorted order memory) :
    (∀ (Key Aux : Type) (compare : Key → Element array.size → Aux → Int)
        (key : Key) (aux : Aux), KeyConsistent order (compare key · aux) →
          array.FindsBy (compare key · aux) memory (array.binarySearch compare key aux)) ∧
      ∀ (Key : Type) (compare : Key → Element array.size → Int) (key : Key),
        KeyConsistent order (compare key) →
          array.FindsBy (compare key) memory (array.bsearch compare key) := by
  constructor
  · intro Key Aux compare key aux consistent
    exact binarySearch_findsBy sized sorted consistent
  · intro Key compare key consistent
    exact binarySearch_findsBy sized sorted consistent

end Search

/-! ## Four words -/

/-- An array of four words of two bytes. -/
def fourWords : CArray where
  base := 0x1000
  cnt := 4
  size := 2
  addressable := by decide
  nonnull := by decide

/-- Words are compared by their first bytes. -/
def compareFirst (a b : Element fourWords.size) : Int :=
  ((a (⟨0, Nat.zero_lt_two⟩ : Fin 2)).toNat : Int) - (b (⟨0, Nat.zero_lt_two⟩ : Fin 2)).toNat

theorem compareFirst_total : TotalPreorder compareFirst where
  antisymm a b := by
    unfold compareFirst
    omega
  trans a b c first second := by
    unfold compareFirst at *
    omega

theorem heap_sort_sorts_four : fourWords.SortsBy compareFirst (fourWords.qsort compareFirst) :=
  (heap_sort_sorts fourWords (by decide) (by decide)).2 compareFirst compareFirst_total

/-- Every byte of memory is the last byte of its address. -/
def countingMemory : Memory := fun address => UInt8.ofNat address

theorem countingMemory_sorted : fourWords.Sorted compareFirst countingMemory := by
  intro i j order inside
  have count : fourWords.cnt = 4 := rfl
  have first : ∀ k, k < 4 →
      (fourWords.item countingMemory k (⟨0, Nat.zero_lt_two⟩ : Fin 2)).toNat = 2 * k := by
    intro k bound
    have value :
        (fourWords.item countingMemory k (⟨0, Nat.zero_lt_two⟩ : Fin 2)).toNat =
          (0x1000 + k * 2 + 0) % 256 := UInt8.toNat_ofNat'
    omega
  have earlier := first i (by omega)
  have later := first j (by omega)
  unfold compareFirst
  omega

theorem binary_search_complete_four :
    fourWords.FindsBy (compareFirst fun _ => 4) countingMemory
      (fourWords.bsearch compareFirst fun _ => 4) :=
  (binary_search_complete fourWords (by decide) countingMemory compareFirst
    countingMemory_sorted).2 _ compareFirst _ (compareFirst_total.keyConsistent _)

end CArray

end CS162.Lib

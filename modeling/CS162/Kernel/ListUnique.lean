import Mathlib.Data.List.Destutter
import CS162.Kernel.ListOrdering

/-!
# Removing adjacent duplicates

`list_unique` of `lib/kernel/list.c`, on the links of the elements.  The elements
that are kept are the first ones of the maximal blocks of equivalent elements.
-/

namespace CS162.Kernel.LinkedList

open CS162.Foundation

universe v

variable {Node : Type} {Index : Type v}

section Code

variable [DecidableEq Node] (less : Node → Node → Bool) (list : ListHeader Node)

/-- The part of `list_unique` that appends to `duplicates`, which may be null. -/
def appendDuplicate (links : Links Node) (elem : Option Node) :
    Option (ListHeader Node) → Option (Links Node)
  | some duplicates => listPushBack links duplicates elem
  | none => some links

/-- The loop of `list_unique`. -/
def uniqueLoop (duplicates : Option (ListHeader Node)) :
    Nat → Links Node → Option Node → Option (Links Node)
  | 0, _, _ => none
  | fuel + 1, links, elem => do
      let next ← listNext links elem
      if next = listEnd list then some links
      else if !(← lessAt less elem next) && !(← lessAt less next elem) then do
        let removed ← listRemove links next
        let links ← appendDuplicate removed.1 next duplicates
        uniqueLoop duplicates fuel links elem
      else uniqueLoop duplicates fuel links next

/-- `list_unique`. -/
def listUnique (duplicates : Option (ListHeader Node)) (fuel : Nat)
    (links : Links Node) : Option (Links Node) :=
  if listEmpty links list then some links
  else uniqueLoop less list duplicates fuel links (listBegin links list)

end Code

/-! ## Blocks of equivalent elements -/

section Blocks

variable (less : Node → Node → Bool)

/-- The elements differ in order. -/
def Differ (a b : Node) : Prop := equivalent less a b = false

instance : DecidableRel (Differ less) := fun _ _ =>
  inferInstanceAs (Decidable (_ = _))

/-- The elements that are kept. -/
def keptOf (elems : List Node) : List Node := elems.destutter (Differ less)

/-- The elements that are equivalent to the last one kept. -/
def removedFrom (elem : Node) : List Node → List Node
  | [] => []
  | next :: rest =>
      if equivalent less elem next then next :: removedFrom elem rest
      else removedFrom next rest

/-- The elements that are removed. -/
def removedOf : List Node → List Node
  | [] => []
  | elem :: rest => removedFrom less elem rest

/-- The maximal blocks of adjacent elements that are pairwise equivalent. -/
structure MaximalBlocks (elems : List Node) (blocks : List (List Node)) : Prop where
  whole : blocks.flatten = elems
  nonempty : ∀ block ∈ blocks, block ≠ []
  alike : ∀ block ∈ blocks, block.Pairwise fun a b => equivalent less a b = true
  maximal : blocks.IsChain fun left right =>
    ∀ a ∈ left, ∀ b ∈ right, Differ less a b

variable {less} {a b elem next : Node} {elems rest : List Node}
variable {blocks : List (List Node)}

theorem Differ.of_equivalent (order : StrictWeakOrder less)
    (differ : Differ less a b) (same : equivalent less b elem = true) :
    Differ less a elem := by
  unfold Differ at *
  by_contra other
  rw [Bool.not_eq_false] at other
  have back := StrictWeakOrder.equivalent_symm same
  rw [order.equivalent_trans other back] at differ
  cases differ

/-- An equivalent of the first element joins its block. -/
theorem MaximalBlocks.join_block (order : StrictWeakOrder less)
    {block : List Node} (same : equivalent less elem next = true)
    (maximal : MaximalBlocks less (elem :: rest) ((elem :: block) :: blocks)) :
    MaximalBlocks less (elem :: next :: rest)
      ((elem :: next :: block) :: blocks) := by
  have back := StrictWeakOrder.equivalent_symm same
  have first := maximal.alike _ List.mem_cons_self
  rcases List.pairwise_cons.mp first with ⟨own, others⟩
  rcases List.isChain_cons.mp maximal.maximal with ⟨beside, chain⟩
  constructor
  · have whole := maximal.whole
    rw [List.flatten_cons, List.cons_append, List.cons.injEq] at whole
    rw [List.flatten_cons, List.cons_append, List.cons_append, whole.2]
  · intro block member
    rcases List.mem_cons.mp member with equal | later
    · rw [equal]
      exact List.cons_ne_nil _ _
    · exact maximal.nonempty block (List.mem_cons_of_mem _ later)
  · intro block member
    rcases List.mem_cons.mp member with equal | later
    · rw [equal, List.pairwise_cons, List.pairwise_cons]
      refine ⟨?_, ?_, others⟩
      · intro b inside
        rcases List.mem_cons.mp inside with equal | inside
        · rw [equal]
          exact same
        · exact own b inside
      · intro b inside
        exact order.equivalent_trans back (own b inside)
    · exact maximal.alike block (List.mem_cons_of_mem _ later)
  · rw [List.isChain_cons]
    refine ⟨?_, chain⟩
    intro right head a inLeft b inRight
    have differ := beside right head
    rcases List.mem_cons.mp inLeft with equal | inLeft
    · exact differ a (equal ▸ List.mem_cons_self) b inRight
    · rcases List.mem_cons.mp inLeft with equal | inLeft
      · rw [equal]
        have one := differ elem List.mem_cons_self b inRight
        unfold Differ at *
        by_contra other
        rw [Bool.not_eq_false] at other
        rw [order.equivalent_trans same other] at one
        cases one
      · exact differ a (List.mem_cons_of_mem elem inLeft) b inRight

/-- An element that differs from the next one is a block of its own. -/
theorem MaximalBlocks.new_block (order : StrictWeakOrder less)
    {block : List Node} (differ : Differ less elem next)
    (maximal : MaximalBlocks less (next :: rest) ((next :: block) :: blocks)) :
    MaximalBlocks less (elem :: next :: rest)
      ([elem] :: (next :: block) :: blocks) := by
  have first := maximal.alike _ List.mem_cons_self
  rcases List.pairwise_cons.mp first with ⟨own, _⟩
  constructor
  · rw [List.flatten_cons, maximal.whole]
    rfl
  · intro block member
    rcases List.mem_cons.mp member with equal | later
    · rw [equal]
      exact List.cons_ne_nil _ _
    · exact maximal.nonempty block later
  · intro block member
    rcases List.mem_cons.mp member with equal | later
    · rw [equal]
      exact List.pairwise_singleton _ _
    · exact maximal.alike block later
  · rw [List.isChain_cons_cons]
    refine ⟨?_, maximal.maximal⟩
    intro a inLeft b inRight
    rw [List.mem_singleton.mp inLeft]
    rcases List.mem_cons.mp inRight with equal | inRight
    · rw [equal]
      exact differ
    · exact differ.of_equivalent order (own b inRight)

/-- The blocks of a list, with the elements that are kept and removed. -/
theorem exists_blocks (order : StrictWeakOrder less) (elem : Node) (rest : List Node) :
    ∃ block blocks,
      MaximalBlocks less (elem :: rest) ((elem :: block) :: blocks) ∧
        rest.destutter' (Differ less) elem = ((elem :: block) :: blocks).filterMap List.head? ∧
        removedFrom less elem rest = ((elem :: block) :: blocks).flatMap List.tail := by
  induction rest generalizing elem with
  | nil =>
      refine ⟨[], [], ?_, rfl, rfl⟩
      constructor
      · rfl
      · simp
      · simp
      · exact List.isChain_singleton _
  | cons next rest inductionHypothesis =>
      cases compared : equivalent less elem next with
      | true =>
          rcases inductionHypothesis elem with ⟨block, blocks, maximal, kept, removed⟩
          have notDiffer : ¬Differ less elem next := by
            unfold Differ
            rw [compared]
            exact Bool.false_ne_true.symm
          refine ⟨next :: block, blocks, maximal.join_block order compared, ?_, ?_⟩
          · rw [List.destutter'_cons_neg (h := notDiffer), kept]
            rfl
          · rw [removedFrom, if_pos compared, removed]
            rfl
      | false =>
          rcases inductionHypothesis next with ⟨block, blocks, maximal, kept, removed⟩
          have differ : Differ less elem next := compared
          have notSame : ¬equivalent less elem next = true := by
            rw [compared]
            exact Bool.false_ne_true
          refine ⟨[], (next :: block) :: blocks, maximal.new_block order differ, ?_, ?_⟩
          · rw [List.destutter'_cons_pos (h := differ), kept]
            rfl
          · rw [removedFrom, if_neg notSame, removed]
            rfl

/-- The elements that are kept and removed are the first ones of the blocks and
the others. -/
theorem keptOf_eq (order : StrictWeakOrder less) (elems : List Node) :
    ∃ blocks, MaximalBlocks less elems blocks ∧
      keptOf less elems = blocks.filterMap List.head? ∧
        removedOf less elems = blocks.flatMap List.tail := by
  cases elems with
  | nil =>
      refine ⟨[], ?_, rfl, rfl⟩
      constructor
      · rfl
      · simp
      · simp
      · exact List.isChain_nil
  | cons elem rest =>
      rcases exists_blocks order elem rest with ⟨block, blocks, maximal, kept, removed⟩
      exact ⟨(elem :: block) :: blocks, maximal, kept, removed⟩

theorem removedFrom_perm (elem : Node) (rest : List Node) :
    (rest.destutter' (Differ less) elem ++ removedFrom less elem rest).Perm
      (elem :: rest) := by
  induction rest generalizing elem with
  | nil => exact List.Perm.refl _
  | cons next rest inductionHypothesis =>
      cases compared : equivalent less elem next with
      | true =>
          have notDiffer : ¬Differ less elem next := by
            unfold Differ
            rw [compared]
            exact Bool.false_ne_true.symm
          rw [List.destutter'_cons_neg (h := notDiffer), removedFrom, if_pos compared]
          have moved := (inductionHypothesis elem).cons next
          exact List.perm_middle.trans (moved.trans (List.Perm.swap _ _ _))
      | false =>
          have differ : Differ less elem next := compared
          have notSame : ¬equivalent less elem next = true := by
            rw [compared]
            exact Bool.false_ne_true
          rw [List.destutter'_cons_pos (h := differ), removedFrom, if_neg notSame]
          exact (inductionHypothesis next).cons elem

/-- No element is lost or duplicated. -/
theorem keptOf_perm (elems : List Node) :
    (keptOf less elems ++ removedOf less elems).Perm elems := by
  cases elems with
  | nil => exact List.Perm.refl _
  | cons elem rest => exact removedFrom_perm elem rest

/-- In a sorted list without adjacent equivalents every element is less than the
next one. -/
theorem rising_of_ascending (ascending : Ascending less elems)
    (neighbours : elems.IsChain (Differ less)) :
    elems.IsChain fun a b => less a b = true := by
  induction elems with
  | nil => exact List.isChain_nil
  | cons a rest inductionHypothesis =>
      cases rest with
      | nil => exact List.isChain_singleton a
      | cons b rest =>
          rcases List.pairwise_cons.mp ascending with ⟨first, others⟩
          rcases List.isChain_cons_cons.mp neighbours with ⟨differ, chain⟩
          have notBack := first b List.mem_cons_self
          rw [List.isChain_cons_cons]
          refine ⟨?_, inductionHypothesis others chain⟩
          unfold Differ equivalent at differ
          rw [notBack, Bool.and_true, Bool.not_eq_false'] at differ
          exact differ

/-- In a sorted list no two elements that are kept are equivalent. -/
theorem keptOf_differ (order : StrictWeakOrder less) (ascending : Ascending less elems) :
    (keptOf less elems).Pairwise (Differ less) := by
  have kept : Ascending less (keptOf less elems) :=
    ascending.sublist (elems.destutter_sublist (Differ less))
  have neighbours : (keptOf less elems).IsChain (Differ less) :=
    elems.isChain_destutter (Differ less)
  have rising := rising_of_ascending kept neighbours
  have trans : IsTrans Node fun a b => less a b = true := ⟨order.trans⟩
  apply (List.isChain_iff_pairwise.mp rising).imp
  intro a b smaller
  unfold Differ equivalent
  rw [smaller]
  rfl

end Blocks

/-! ## The loop -/

section Turns

variable [DecidableEq Node] {less : Node → Node → Bool} {links : Links Node}
variable {header : ListHeader Node} {duplicates : Option (ListHeader Node)}
variable {elems front rest : List Node} {elem next : Node} {fuel : Nat}

/-- One turn of the loop: the next element is compared with the one kept. -/
theorem uniqueLoop_turn (sound : ListSound links header elems)
    (content : elems = front ++ elem :: next :: rest) :
    uniqueLoop less header duplicates (fuel + 1) links (some elem) =
      if equivalent less elem next = true then
        (listRemove links (some next)).bind fun removed =>
          (appendDuplicate removed.1 (some next) duplicates).bind fun links =>
            uniqueLoop less header duplicates fuel links (some elem)
      else uniqueLoop less header duplicates fuel links (some next) := by
  have split : elems = (front ++ [elem]) ++ next :: rest := by
    rw [content, List.append_assoc]
    rfl
  have pointer := sound.listNext_eq content
  have notEnd := sound.pointer_ne_end split
  rw [pointerTo_cons] at pointer
  rw [uniqueLoop, pointer, Option.bind_eq_bind, Option.bind_some, if_neg notEnd]
  rfl

/-- The loop ends at the last element. -/
theorem uniqueLoop_end (sound : ListSound links header elems) (content : elems = front ++ [elem]) :
    uniqueLoop less header duplicates (fuel + 1) links (some elem) = some links := by
  have next := sound.listNext_eq content
  rw [uniqueLoop, next, Option.bind_eq_bind, Option.bind_some, pointerTo_nil, listEnd, if_pos rfl]

/-- Where neighbours differ the loop changes nothing. -/
theorem uniqueLoop_unchanged (sound : ListSound links header elems)
    (content : elems = front ++ elem :: rest)
    (neighbours : (elem :: rest).IsChain (Differ less)) (enough : rest.length < fuel) :
    uniqueLoop less header duplicates fuel links (some elem) = some links := by
  induction rest generalizing elem front fuel with
  | nil =>
      cases fuel with
      | zero => exact absurd enough (Nat.not_lt_zero _)
      | succ fuel => exact uniqueLoop_end sound content
  | cons next rest inductionHypothesis =>
      cases fuel with
      | zero => exact absurd enough (Nat.not_lt_zero _)
      | succ fuel =>
          have split : elems = (front ++ [elem]) ++ next :: rest := by
            rw [content, List.append_assoc]
            rfl
          rcases List.isChain_cons_cons.mp neighbours with ⟨differ, chain⟩
          have notSame : ¬equivalent less elem next = true := by
            rw [differ]
            exact Bool.false_ne_true
          rw [uniqueLoop_turn sound content, if_neg notSame]
          exact inductionHypothesis split chain (Nat.lt_of_succ_lt_succ enough)

/-- `list_unique` of an empty list returns at once. -/
theorem listUnique_nil (sound : ListSound links header []) :
    listUnique less header duplicates fuel links = some links := by
  have begin := sound.begin
  rw [List.nil_append, List.head?_cons] at begin
  have nothing : listEmpty links header = true := by
    simp [listEmpty, listBegin, listEnd, begin]
  rw [listUnique, nothing, if_pos rfl]

theorem listUnique_cons (sound : ListSound links header (elem :: rest)) :
    listUnique less header duplicates fuel links =
      uniqueLoop less header duplicates fuel links (some elem) := by
  have begin := sound.begin
  have notEmpty := sound.not_empty List.mem_cons_self
  rw [List.cons_append, List.head?_cons] at begin
  rw [listUnique, notEmpty, if_neg Bool.false_ne_true, listBegin, begin]

/-- `list_unique` changes nothing where neighbours differ. -/
theorem listUnique_unchanged (sound : ListSound links header elems)
    (neighbours : elems.IsChain (Differ less)) (enough : elems.length ≤ fuel) :
    listUnique less header duplicates fuel links = some links := by
  cases elems with
  | nil => exact listUnique_nil sound
  | cons elem rest =>
      have split : elem :: rest = [] ++ elem :: rest := rfl
      rw [listUnique_cons sound]
      exact uniqueLoop_unchanged sound split neighbours enough

end Turns

section Loop

variable {list : Index → ListHeader Node} {contents : Index → List Node}
variable {less : Node → Node → Bool} {i : Index} {duplicates : Option Index}
variable {links links' links'' : Links Node} {fuel : Nat}
variable {elem next : Node} {front rest kept removed touched inner : List Node}

theorem SameOutside.trans (first : SameOutside touched links links')
    (second : SameOutside inner links' links'') (within : ∀ node ∈ inner, node ∈ touched) :
    SameOutside touched links links'' := by
  intro node outside
  have one := first node outside
  have two := second node fun member => outside (within node member)
  exact ⟨two.1.trans one.1, two.2.trans one.2⟩

/-- All elements of the two lists that `list_unique` changes. -/
def Within (list : Index → ListHeader Node) (contents : Index → List Node)
    (i : Index) (duplicates : Option Index) (touched : List Node) : Prop :=
  ∀ k, k = i ∨ duplicates = some k → ∀ node ∈ (list k).nodes (contents k), node ∈ touched

/-- The links that `list_unique` may change. -/
def uniqueTouched (list : Index → ListHeader Node) (contents : Index → List Node)
    (i : Index) (duplicates : Option Index) : List Node :=
  (list i).nodes (contents i) ++ duplicates.elim [] fun j => (list j).nodes (contents j)

theorem within_uniqueTouched :
    Within list contents i duplicates
      (uniqueTouched list contents i duplicates) := by
  intro k changed node member
  apply List.mem_append.mpr
  rcases changed with equal | target
  · rw [equal] at member
    exact Or.inl member
  · rw [target]
    exact Or.inr member

variable [DecidableEq Index]

/-- The lists after some elements of one have been kept and the others appended
to the duplicates. -/
def afterUnique (contents : Index → List Node) (i : Index)
    (duplicates : Option Index) (kept removed : List Node) :
    Index → List Node := fun k =>
  if k = i then kept
  else if duplicates = some k then contents k ++ removed
  else contents k

theorem afterUnique_again {more : List Node} :
    afterUnique (afterUnique contents i duplicates kept removed) i duplicates
        front more =
      afterUnique contents i duplicates front (removed ++ more) := by
  funext k
  unfold afterUnique
  by_cases own : k = i
  · rw [if_pos own, if_pos own]
  · rw [if_neg own, if_neg own, if_neg own]
    by_cases target : duplicates = some k
    · rw [if_pos target, if_pos target, if_pos target, List.append_assoc]
    · rw [if_neg target, if_neg target, if_neg target]

theorem afterUnique_self (contents : Index → List Node) (i : Index) (duplicates : Option Index) :
    afterUnique contents i duplicates (contents i) [] = contents := by
  funext k
  unfold afterUnique
  by_cases own : k = i
  · rw [if_pos own, own]
  · rw [if_neg own, List.append_nil]
    exact ite_self _

/-- The lists that the loop changes do not get other elements. -/
theorem Within.after_move
    (content : contents i = front ++ elem :: next :: rest)
    (within : Within list contents i duplicates touched) :
    Within list
      (afterUnique contents i duplicates (front ++ elem :: rest) [next]) i
      duplicates touched := by
  have all := within i (Or.inl rfl)
  rw [content] at all
  intro k changed node member
  unfold afterUnique at member
  by_cases own : k = i
  · rw [if_pos own, own] at member
    apply all
    unfold ListHeader.nodes at *
    simp only [List.mem_append, List.mem_cons] at *
    tauto
  · rcases changed with equal | target
    · exact absurd equal own
    · rw [if_neg own, if_pos target] at member
      have moved : next ∈ touched := by
        apply all
        unfold ListHeader.nodes
        simp
      have cases : node ∈ (list k).nodes (contents k) ∨ node = next := by
        unfold ListHeader.nodes at member ⊢
        simp only [List.mem_append, List.mem_cons, List.not_mem_nil, or_false] at member ⊢
        tauto
      rcases cases with before | equal
      · exact within k (Or.inr target) node before
      · rw [equal]
        exact moved

variable [DecidableEq Node]

/-- One equivalent element goes from the list to the duplicates. -/
theorem moveDuplicate_becomes (sound : ListsSound links list contents)
    (content : contents i = front ++ elem :: next :: rest) (apart : duplicates ≠ some i)
    (within : Within list contents i duplicates touched) :
    ∃ removed after,
      listRemove links (some next) = some (removed, (rest ++ [(list i).tail]).head?) ∧
        appendDuplicate removed (some next) (duplicates.map list) = some after ∧
        ListsBecome links list touched
          (afterUnique contents i duplicates (front ++ elem :: rest) [next])
          after := by
  have split : contents i = (front ++ [elem]) ++ next :: rest := by
    rw [content, List.append_assoc]
    rfl
  have joined : (front ++ [elem]) ++ rest = front ++ elem :: rest := by
    rw [List.append_assoc]
    rfl
  rcases listRemove_becomes sound split with ⟨removed, removes, become⟩
  rw [joined] at become
  have own : SameOutside touched links removed :=
    (sameOutside_self touched links).trans become.same (within i (Or.inl rfl))
  cases duplicates with
  | none =>
      refine ⟨removed, removed, removes, rfl, ?_, own⟩
      have same :
          afterUnique contents i none (front ++ elem :: rest) [next] =
            Function.update contents i (front ++ elem :: rest) := by
        funext k
        unfold afterUnique
        by_cases equal : k = i
        · rw [if_pos equal, equal, Function.update_self]
        · rw [if_neg equal, if_neg (Option.some_ne_none k).symm, Function.update_of_ne equal]
      rw [same]
      exact become.sound
  | some j =>
      have different : j ≠ i := fun equal => apart (congrArg some equal)
      have range : contents i = (front ++ [elem]) ++ [next] ++ rest := by
        rw [split, List.append_assoc (front ++ [elem])]
        rfl
      have unlisted := sound.unlisted_of_cut range (List.mem_singleton_self next)
      rw [joined] at unlisted
      rcases listPushBack_becomes (i := j) become.sound unlisted with ⟨after, pushed, becomes⟩
      have target : Function.update contents i (front ++ elem :: rest) j = contents j :=
        Function.update_of_ne different _ _
      rw [target] at becomes
      refine ⟨removed, after, removes, pushed, ?_, ?_⟩
      · have same :
            afterUnique contents i (some j) (front ++ elem :: rest) [next] =
              Function.update
                (Function.update contents i (front ++ elem :: rest)) j
                (contents j ++ [next]) := by
          funext k
          unfold afterUnique
          by_cases equal : k = i
          · rw [if_pos equal, equal, Function.update_of_ne different.symm, Function.update_self]
          · rw [if_neg equal]
            by_cases last : j = k
            · rw [if_pos (congrArg some last), ← last, Function.update_self]
            · rw [if_neg (fun same => last (Option.some.inj same)),
                Function.update_of_ne (Ne.symm last),
                Function.update_of_ne equal]
        rw [same]
        exact becomes.sound
      · apply own.trans becomes.same
        intro node member
        rcases List.mem_cons.mp member with equal | member
        · rw [equal]
          apply within i (Or.inl rfl)
          rw [content]
          unfold ListHeader.nodes
          simp
        · exact within j (Or.inr rfl) node member

/-- The loop keeps the elements that differ from the last one kept. -/
theorem uniqueLoop_becomes (sound : ListsSound links list contents)
    (content : contents i = front ++ elem :: rest) (apart : duplicates ≠ some i)
    (within : Within list contents i duplicates touched) (enough : rest.length < fuel) :
    ∃ after,
      uniqueLoop less (list i) (duplicates.map list) fuel links (some elem) = some after ∧
        ListsBecome links list touched
          (afterUnique contents i duplicates
            (front ++ rest.destutter' (Differ less) elem)
            (removedFrom less elem rest)) after := by
  induction rest generalizing elem front links contents fuel with
  | nil =>
      cases fuel with
      | zero => exact absurd enough (Nat.not_lt_zero _)
      | succ fuel =>
          have one := sound.sound i
          refine ⟨links, uniqueLoop_end one content, ?_, sameOutside_self touched links⟩
          rw [List.destutter'_nil, removedFrom, ← content, afterUnique_self]
          exact sound
  | cons next rest inductionHypothesis =>
      cases fuel with
      | zero => exact absurd enough (Nat.not_lt_zero _)
      | succ fuel =>
          have later : rest.length < fuel := Nat.lt_of_succ_lt_succ enough
          have split : contents i = (front ++ [elem]) ++ next :: rest := by
            rw [content, List.append_assoc]
            rfl
          rw [uniqueLoop_turn (sound.sound i) content]
          cases compared : equivalent less elem next with
          | true =>
              have notDiffer : ¬Differ less elem next := by
                unfold Differ
                rw [compared]
                exact Bool.false_ne_true.symm
              rcases moveDuplicate_becomes sound content apart within with
                ⟨removed, middle, removes, appends, moved⟩
              have own :
                  afterUnique contents i duplicates (front ++ elem :: rest)
                    [next] i = front ++ elem :: rest :=
                if_pos rfl
              rcases inductionHypothesis moved.sound own
                  (within.after_move content) later with
                ⟨after, loop, becomes⟩
              refine ⟨after, ?_, ?_⟩
              · rw [if_pos rfl, removes, Option.bind_some, appends, Option.bind_some]
                exact loop
              · have sound := becomes.sound
                rw [afterUnique_again] at sound
                rw [List.destutter'_cons_neg (h := notDiffer), removedFrom, if_pos compared]
                refine ⟨sound, moved.same.trans becomes.same ?_⟩
                intro node member
                exact member
          | false =>
              have differ : Differ less elem next := compared
              have notSame : ¬equivalent less elem next = true := by
                rw [compared]
                exact Bool.false_ne_true
              rcases inductionHypothesis sound split within later with ⟨after, loop, becomes⟩
              refine ⟨after, ?_, ?_⟩
              · rw [if_neg Bool.false_ne_true]
                exact loop
              · rw [List.destutter'_cons_pos (h := differ), removedFrom, if_neg notSame]
                rw [List.append_assoc, List.singleton_append] at becomes
                exact becomes

/-- `list_unique` keeps the first element of every block and appends the others
to the duplicates. -/
theorem listUnique_becomes (sound : ListsSound links list contents)
    (apart : duplicates ≠ some i) (within : Within list contents i duplicates touched)
    (enough : (contents i).length ≤ fuel) :
    ∃ after,
      listUnique less (list i) (duplicates.map list) fuel links = some after ∧
        ListsBecome links list touched
          (afterUnique contents i duplicates (keptOf less (contents i))
            (removedOf less (contents i))) after := by
  have one := sound.sound i
  cases content : contents i with
  | nil =>
      rw [content] at one
      have nothing : keptOf less [] = contents i := content.symm
      refine ⟨links, listUnique_nil one, ?_, sameOutside_self touched links⟩
      rw [nothing, removedOf, afterUnique_self]
      exact sound
  | cons elem rest =>
      rw [content] at one enough
      have split : contents i = [] ++ elem :: rest := content
      rcases uniqueLoop_becomes sound split apart within enough with ⟨after, loop, becomes⟩
      refine ⟨after, ?_, becomes⟩
      rw [listUnique_cons one]
      exact loop

/-- `list_unique` ends, with the first elements of the maximal blocks of
equivalent elements left in the list and the others appended to the duplicates,
in their order.  In a sorted list no two elements are equivalent after it, and
doing it again changes nothing. -/
theorem list_unique_keeps_first (order : StrictWeakOrder less)
    (sound : ListsSound links list contents) (apart : duplicates ≠ some i)
    {bound : Nat} (bounded : (contents i).length ≤ bound) :
    ∃ after blocks,
      listUnique less (list i) (duplicates.map list) bound links = some after ∧
        MaximalBlocks less (contents i) blocks ∧
        ListsBecome links list (uniqueTouched list contents i duplicates)
          (afterUnique contents i duplicates (blocks.filterMap List.head?)
            (blocks.flatMap List.tail)) after ∧
        (blocks.filterMap List.head? ++ blocks.flatMap List.tail).Perm (contents i) ∧
        (Ascending less (contents i) →
          (blocks.filterMap List.head?).Pairwise fun a b =>
            equivalent less a b = false) ∧
        ∀ again, listUnique less (list i) again bound after = some after := by
  rcases keptOf_eq order (contents i) with ⟨blocks, maximal, kept, removed⟩
  have whole := @within_uniqueTouched _ _ list contents i duplicates
  rcases @listUnique_becomes _ _ _ _ less _ _ _ _ _ _ _ sound apart whole
      bounded with ⟨after, ends, becomes⟩
  refine ⟨after, blocks, ends, maximal, ?_, ?_, ?_, ?_⟩
  · rw [← kept, ← removed]
    exact becomes
  · rw [← kept, ← removed]
    exact keptOf_perm (contents i)
  · rw [← kept]
    exact keptOf_differ order
  · intro again
    have one := becomes.sound.sound i
    have own :
        afterUnique contents i duplicates (keptOf less (contents i))
          (removedOf less (contents i)) i = keptOf less (contents i) :=
      if_pos rfl
    have fewer : (keptOf less (contents i)).length ≤ (contents i).length :=
      ((contents i).destutter_sublist (Differ less)).length_le
    rw [own] at one
    exact
      listUnique_unchanged one ((contents i).isChain_destutter (Differ less)) (fewer.trans bounded)

end Loop

/-- Numbers are compared by their halves. -/
def halfLess (a b : Nat) : Bool := decide (a / 2 < b / 2)

theorem halfLess_order : StrictWeakOrder halfLess where
  irrefl a := by simp [halfLess]
  trans a b c first second := by
    simp only [halfLess, decide_eq_true_iff] at *
    omega
  incomparable a b c first second third fourth := by
    simp only [halfLess, decide_eq_false_iff_not] at *
    omega

/-- Of 4, 5 and 6 the second is an equivalent of the first. -/
theorem list_unique_keeps_first_two : ∃ after blocks,
      listUnique halfLess (twoHeaders false) (some (twoHeaders true)) 3
          twoLists = some after ∧
        MaximalBlocks halfLess [4, 5, 6] blocks ∧
        (blocks.filterMap List.head?).Pairwise fun a b =>
          equivalent halfLess a b = false := by
  have apart : some true ≠ some false := by decide
  have sorted : Ascending halfLess [4, 5, 6] := by
    unfold Ascending
    decide
  rcases list_unique_keeps_first halfLess_order twoLists_sound apart
      (Nat.le_refl 3) with ⟨after, blocks, ends, maximal, _, _, differ, _⟩
  exact ⟨after, blocks, ends, maximal, differ sorted⟩

end CS162.Kernel.LinkedList

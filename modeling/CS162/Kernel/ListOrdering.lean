import Mathlib.Data.List.Sort
import CS162.Kernel.ListSequences
import CS162.Kernel.ListSort

/-!
# Sorting and ordered insertion through links

`list_sort` and `list_insert_ordered` of `lib/kernel/list.c` and its copy in
`hw-list`, on the links of the elements.  The merge moves single elements while
three pointers stay in the list; on the sequence of the list it is the merge of
`ListSort`.
-/

namespace CS162.Kernel.LinkedList

open CS162.Foundation

universe v

variable {Node : Type} {Index : Type v}

section Code

variable (less : Node → Node → Bool)

/-- `less (a, b, aux)`, which reads both elements. -/
def lessAt (a b : Option Node) : Option Bool := do
  some (less (← a) (← b))

/-- `list_next`. -/
def listNext (links : Links Node) (elem : Option Node) : Option (Option Node) :=
  if isHead links elem || isInterior links elem then readNext links elem
  else none

variable [DecidableEq Node]

/-- The loop of `is_sorted`. -/
def isSortedLoop (links : Links Node) (b : Option Node) : Nat → Option Node → Option Bool
  | 0, _ => none
  | fuel + 1, a => do
      let a ← listNext links a
      if a = b then some true
      else if ← lessAt less a (← listPrev links a) then some false
      else isSortedLoop links b fuel a

/-- `is_sorted`. -/
def isSorted (fuel : Nat) (links : Links Node) (a b : Option Node) : Option Bool :=
  if a = b then some true else isSortedLoop less links b fuel a

/-- The loop of `find_end_of_run`. -/
def findEndOfRunLoop (links : Links Node) (b : Option Node) :
    Nat → Option Node → Option (Option Node)
  | 0, _ => none
  | fuel + 1, a => do
      let a ← listNext links a
      if a = b then some a
      else if ← lessAt less a (← listPrev links a) then some a
      else findEndOfRunLoop links b fuel a

/-- `find_end_of_run`. -/
def findEndOfRun (fuel : Nat) (links : Links Node) (a b : Option Node) : Option (Option Node) :=
  if a.isSome && b.isSome && a != b then findEndOfRunLoop less links b fuel a
  else none

/-- The loop of `inplace_merge`. -/
def inplaceMergeLoop (b1 : Option Node) :
    Nat → Links Node → Option Node → Option Node → Option (Links Node)
  | 0, _, _, _ => none
  | fuel + 1, links, a0, a1b0 =>
      if a0 != a1b0 && a1b0 != b1 then do
        if !(← lessAt less a1b0 a0) then
          inplaceMergeLoop b1 fuel links (← listNext links a0) a1b0
        else
          let a1b0 ← listNext links a1b0
          let links ← listSplice links a0 (← listPrev links a1b0) a1b0
          inplaceMergeLoop b1 fuel links a0 a1b0
      else some links

/-- `inplace_merge`. -/
def inplaceMerge (fuel : Nat) (links : Links Node) (a0 a1b0 b1 : Option Node) :
    Option (Links Node) :=
  if a0.isSome && a1b0.isSome && b1.isSome then do
    if (← isSorted less fuel links a0 a1b0) &&
        (← isSorted less fuel links a1b0 b1) then
      inplaceMergeLoop less b1 fuel links a0 a1b0
    else none
  else none

variable (list : ListHeader Node)

/-- The inner loop of `list_sort`: one pass over the list from `a0`. -/
def sortPass (bound : Nat) : Nat → Links Node → Option Node → Nat → Option (Links Node × Nat)
  | 0, _, _, _ => none
  | fuel + 1, links, a0, outputRunCnt =>
      if a0 = listEnd list then some (links, outputRunCnt)
      else do
        let a1b0 ← findEndOfRun less bound links a0 (listEnd list)
        if a1b0 = listEnd list then some (links, outputRunCnt + 1)
        else
          let b1 ← findEndOfRun less bound links a1b0 (listEnd list)
          let links ← inplaceMerge less bound links a0 a1b0 b1
          sortPass bound fuel links b1 (outputRunCnt + 1)

/-- The outer loop of `list_sort`, and its last assertion. -/
def sortPasses (bound : Nat) : Nat → Links Node → Option (Links Node)
  | 0, _ => none
  | fuel + 1, links => do
      let pass ← sortPass less list bound bound links (listBegin links list) 0
      if 1 < pass.2 then sortPasses bound fuel pass.1
      else if ← isSorted less bound pass.1 (listBegin pass.1 list)
          (listEnd list) then some pass.1
      else none

/-- `list_sort`.  The bound is one on the turns of every loop. -/
def listSort (bound : Nat) (links : Links Node) : Option (Links Node) :=
  sortPasses less list bound bound links

/-- The loop of `list_insert_ordered`. -/
def insertPoint (links : Links Node) (elem : Option Node) : Nat → Option Node → Option (Option Node)
  | 0, _ => none
  | fuel + 1, e =>
      if e = listEnd list then some e
      else do
        if ← lessAt less elem e then some e
        else insertPoint links elem fuel (← listNext links e)

/-- `list_insert_ordered`. -/
def listInsertOrdered (bound : Nat) (links : Links Node) (elem : Option Node) :
    Option (Links Node) :=
  if elem.isSome then do
    let e ← insertPoint less list links elem bound (listBegin links list)
    listInsert links e elem
  else none

/-- `list_insert_ordered` of one element after another. -/
def insertAllOrdered (bound : Nat) (links : Links Node) (elems : List Node) : Option (Links Node) :=
  elems.foldlM (fun links elem =>
    listInsertOrdered less list bound links (some elem)) links

/-- `list_push_back` of one element after another. -/
def pushAllBack (links : Links Node) (elems : List Node) : Option (Links Node) :=
  elems.foldlM (fun links elem => listPushBack links list (some elem)) links

end Code

/-! ## Pointers into a list -/

/-- Where the rest of a list begins: at its first element, or at the tail. -/
def pointerTo (header : ListHeader Node) (rest : List Node) : Option Node :=
  (rest ++ [header.tail]).head?

variable {links links' links'' : Links Node} {header : ListHeader Node}
variable {elems front back rest run : List Node} {a b elem : Node}

@[simp] theorem pointerTo_nil : pointerTo header [] = some header.tail := rfl

@[simp] theorem pointerTo_cons : pointerTo header (elem :: rest) = some elem := rfl

theorem pointerTo_isSome (header : ListHeader Node) (rest : List Node) :
    (pointerTo header rest).isSome = true := by
  cases rest <;> rfl

theorem ListSound.pointer_ne (sound : ListSound links header elems)
    (content : elems = front ++ elem :: (rest ++ back)) :
    some elem ≠ pointerTo header back := by
  rcases exists_right header.tail back with ⟨q, right⟩
  have distinct := sound.distinct
  rw [content, nodes_append, ← List.cons_append, List.append_assoc] at distinct
  have rear := (List.nodup_append.mp distinct).2.1
  rw [pointerTo, right]
  intro same
  cases same
  have later := List.mem_of_head? right
  exact (List.nodup_cons.mp rear).1 (List.mem_append_right rest later)

theorem ListSound.pointer_ne_end (sound : ListSound links header elems)
    (content : elems = front ++ elem :: rest) :
    some elem ≠ listEnd header := by
  rw [listEnd, ← pointerTo_nil]
  apply sound.pointer_ne
  rw [List.append_nil]
  exact content

theorem ListSound.around (sound : ListSound links header elems)
    (content : elems = front ++ elem :: back) :
    isInterior links (some elem) = true ∧
      links.next elem = pointerTo header back ∧
      ∀ q, pointerTo header back = some q → links.prev q = some elem := by
  have member : elem ∈ elems := by simp [content]
  have split : ListSound links header ((front ++ [elem]) ++ back) := by
    rw [List.append_assoc, List.singleton_append, ← content]
    exact sound
  have last : (header.head :: (front ++ [elem])).getLast? = some elem := by
    rw [← List.cons_append, List.getLast?_concat]
  rcases exists_right header.tail back with ⟨q, right⟩
  have beside := split.neighbours last right
  refine ⟨sound.isInterior_of_mem member, ?_, ?_⟩
  · rw [pointerTo, right]
    exact beside.1
  · intro other here
    rw [pointerTo, right] at here
    cases here
    exact beside.2

theorem ListSound.listNext_eq (sound : ListSound links header elems)
    (content : elems = front ++ elem :: back) :
    listNext links (some elem) = some (pointerTo header back) := by
  rcases sound.around content with ⟨interior, next, _⟩
  rw [listNext, interior, Bool.or_true, if_pos rfl, readNext, Option.map_some, next]

theorem ListSound.listPrev_eq (sound : ListSound links header elems)
    (content : elems = front ++ elem :: back) :
    listPrev links (pointerTo header back) = some (some elem) := by
  rcases sound.around content with ⟨_, _, before⟩
  rcases exists_right header.tail back with ⟨q, right⟩
  have here : pointerTo header back = some q := right
  have previous := before q here
  rw [here, listPrev, canFollow_of_prev previous, if_pos rfl, readPrev, Option.map_some, previous]

/-! ## Runs of a list -/

section Runs

variable [DecidableEq Node] {less : Node → Node → Bool} {fuel : Nat}

theorem isSortedLoop_eq (sound : ListSound links header elems)
    (content : elems = front ++ a :: (run ++ back)) (enough : run.length < fuel) :
    isSortedLoop less links (pointerTo header back) fuel (some a) =
      some (Kernel.isSorted less (a :: run)) := by
  induction run generalizing a front fuel with
  | nil =>
      cases fuel with
      | zero => exact absurd enough (Nat.not_lt_zero _)
      | succ fuel =>
          have next := sound.listNext_eq content
          rw [isSortedLoop, next, Option.bind_eq_bind, Option.bind_some,
            List.nil_append, if_pos rfl, Kernel.isSorted]
  | cons b rest inductionHypothesis =>
      cases fuel with
      | zero => exact absurd enough (Nat.not_lt_zero _)
      | succ fuel =>
          have split : elems = (front ++ [a]) ++ b :: (rest ++ back) := by
            rw [content]
            simp
          have next := sound.listNext_eq content
          have notEnd := sound.pointer_ne split
          have previous := sound.listPrev_eq content
          have later := inductionHypothesis split (Nat.lt_of_succ_lt_succ enough)
          rw [List.cons_append, pointerTo_cons] at next previous
          rw [isSortedLoop, next, Option.bind_eq_bind, Option.bind_some,
            if_neg notEnd, previous, Option.bind_some, lessAt, Kernel.isSorted]
          simp only [Option.bind_eq_bind, Option.bind_some]
          cases less b a with
          | true => rfl
          | false =>
              rw [if_neg Bool.false_ne_true, later, Bool.not_false, Bool.true_and]

theorem isSorted_eq (sound : ListSound links header elems)
    (content : elems = front ++ (run ++ back)) (enough : run.length < fuel) :
    isSorted less fuel links (pointerTo header (run ++ back))
        (pointerTo header back) = some (Kernel.isSorted less run) := by
  cases run with
  | nil => rw [List.nil_append, isSorted, if_pos rfl, Kernel.isSorted]
  | cons a rest =>
      have notEnd := sound.pointer_ne content
      rw [List.cons_append, pointerTo_cons, isSorted, if_neg notEnd]
      exact isSortedLoop_eq sound content (Nat.lt_of_succ_lt enough)

theorem findEndOfRunLoop_eq (sound : ListSound links header elems)
    (content : elems = front ++ a :: rest) (enough : rest.length < fuel) :
    findEndOfRunLoop less links (listEnd header) fuel (some a) =
      some (pointerTo header (Kernel.findEndOfRun less a rest).2) := by
  induction rest generalizing a front fuel with
  | nil =>
      cases fuel with
      | zero => exact absurd enough (Nat.not_lt_zero _)
      | succ fuel =>
          have next := sound.listNext_eq content
          rw [findEndOfRunLoop, next, Option.bind_eq_bind, Option.bind_some,
            pointerTo_nil, listEnd, if_pos rfl, Kernel.findEndOfRun,
            pointerTo_nil]
  | cons b rest inductionHypothesis =>
      cases fuel with
      | zero => exact absurd enough (Nat.not_lt_zero _)
      | succ fuel =>
          have split : elems = (front ++ [a]) ++ b :: rest := by
            rw [content]
            simp
          have next := sound.listNext_eq content
          have notEnd := sound.pointer_ne_end split
          have previous := sound.listPrev_eq content
          have later := inductionHypothesis split (Nat.lt_of_succ_lt_succ enough)
          rw [pointerTo_cons] at next previous
          rw [findEndOfRunLoop, next, Option.bind_eq_bind, Option.bind_some,
            if_neg notEnd, previous, Option.bind_some, lessAt,
            Kernel.findEndOfRun]
          simp only [Option.bind_eq_bind, Option.bind_some]
          cases less b a with
          | true => rfl
          | false =>
              rw [if_neg Bool.false_ne_true, if_neg Bool.false_ne_true, later]

theorem findEndOfRun_eq (sound : ListSound links header elems)
    (content : elems = front ++ a :: rest) (enough : rest.length < fuel) :
    findEndOfRun less fuel links (some a) (listEnd header) =
      some (pointerTo header (Kernel.findEndOfRun less a rest).2) := by
  have notEnd := sound.pointer_ne_end content
  have asserted : ((some a).isSome && (listEnd header).isSome &&
      some a != listEnd header) = true := by
    simp [listEnd] at notEnd ⊢
    exact notEnd
  rw [findEndOfRun, if_pos asserted]
  exact findEndOfRunLoop_eq sound content enough

end Runs

/-! ## Rearrangements -/

section Rearrangements

variable [DecidableEq Index]
variable {list : Index → ListHeader Node} {contents : Index → List Node}
variable {i : Index} {elems' : List Node}

/-- One list has another arrangement of its elements, and no other link has
changed. -/
structure Rearranges (links : Links Node) (list : Index → ListHeader Node)
    (contents : Index → List Node) (i : Index) (elems : List Node) (after : Links Node) : Prop where
  perm : elems.Perm (contents i)
  become : ListsBecome links list ((list i).nodes (contents i))
    (Function.update contents i elems) after

theorem Rearranges.refl (sound : ListsSound links list contents) (content : contents i = elems) :
    Rearranges links list contents i elems links := by
  rw [← content]
  constructor
  · exact List.Perm.refl _
  · rw [Function.update_eq_self]
    exact ⟨sound, sameOutside_self _ links⟩

theorem Rearranges.sound
    (first : Rearranges links list contents i elems links') :
    ListSound links' (list i) elems := by
  have one := first.become.sound.sound i
  rw [Function.update_self] at one
  exact one

theorem Rearranges.trans
    (first : Rearranges links list contents i elems links')
    (second : Rearranges links' list (Function.update contents i elems) i elems' links'') :
    Rearranges links list contents i elems' links'' := by
  have perm := second.perm
  have become := second.become
  rw [Function.update_self] at perm become
  rw [Function.update_idem] at become
  constructor
  · exact perm.trans first.perm
  · constructor
    · exact become.sound
    · intro node outside
      have apart : node ∉ (list i).nodes elems := by
        intro member
        apply outside
        have nodes : ((list i).nodes elems).Perm ((list i).nodes (contents i)) :=
          (first.perm.cons _).append_right _
        exact nodes.mem_iff.mp member
      have one := first.become.same node outside
      have two := become.same node apart
      exact ⟨two.1.trans one.1, two.2.trans one.2⟩

variable [DecidableEq Node]

/-- The second run gives its first element to the place before the first. -/
theorem splice_rearranges {x y : Node} {left right : List Node}
    (sound : ListsSound links list contents)
    (content : contents i = front ++ x :: (left ++ y :: (right ++ back))) :
    ∃ links',
      listSplice links (some x) (some y) (pointerTo (list i) (right ++ back)) = some links' ∧
      Rearranges links list contents i
        (front ++ y :: x :: (left ++ (right ++ back))) links' := by
  have split : contents i = (front ++ x :: left) ++ [y] ++ (right ++ back) := by
    rw [content]
    simp
  have target : Function.update contents i
      ((front ++ x :: left) ++ (right ++ back)) i = front ++ x :: (left ++ (right ++ back)) := by
    rw [Function.update_self]
    simp
  rcases listSplice_becomes sound split target with ⟨links', spliced, become⟩
  rw [Function.update_idem] at become
  refine ⟨links', spliced, ?_, ?_, ?_⟩
  · rw [content]
    apply List.Perm.append_left
    have moved : (y :: (x :: left ++ (right ++ back))).Perm
        (x :: left ++ y :: (right ++ back)) := List.perm_middle.symm
    exact moved
  · have sounds := become.sound
    rw [List.append_assoc, List.singleton_append] at sounds
    exact sounds
  · intro node outside
    apply become.same
    intro member
    rcases List.mem_append.mp member with here | here
    · exact outside here
    · exact outside here

variable {less : Node → Node → Bool} {fuel bound : Nat}
variable {left right : List Node}

theorem inplaceMergeLoop_rearranges (sound : ListsSound links list contents)
    (content : contents i = front ++ (left ++ (right ++ back)))
    (enough : left.length + right.length < fuel) :
    ∃ links',
      inplaceMergeLoop less (pointerTo (list i) back) fuel links
          (pointerTo (list i) (left ++ (right ++ back)))
          (pointerTo (list i) (right ++ back)) = some links' ∧
      Rearranges links list contents i
        (front ++ ((left.merge right fun a b => !less b a) ++ back)) links' := by
  induction fuel generalizing links contents front left right with
  | zero => exact absurd enough (Nat.not_lt_zero _)
  | succ fuel inductionHypothesis =>
      have one := sound.sound i
      cases left with
      | nil =>
          refine ⟨links, ?_, ?_⟩
          · simp [inplaceMergeLoop]
          · rw [List.nil_merge]
            exact Rearranges.refl sound content
      | cons x left =>
          cases right with
          | nil =>
              refine ⟨links, ?_, ?_⟩
              · simp [inplaceMergeLoop]
              · rw [List.merge_right]
                exact Rearranges.refl sound content
          | cons y right =>
              have second : contents i = (front ++ x :: left) ++ y :: (right ++ back) := by
                rw [content]
                simp
              have apart : some x ≠ some y := by
                have differ := one.pointer_ne content
                exact differ
              have inside := one.pointer_ne second
              have running : (some x != some y &&
                  some y != pointerTo (list i) back) = true := by
                rw [Bool.and_eq_true, bne_iff_ne, bne_iff_ne]
                exact ⟨apart, inside⟩
              rw [List.cons_append, List.cons_append, pointerTo_cons,
                pointerTo_cons, inplaceMergeLoop, if_pos running,
                List.cons_merge_cons]
              simp only [lessAt, Option.bind_eq_bind, Option.bind_some]
              cases smaller : less y x with
              | false =>
                  -- the first run is passed over by one element
                  have further : contents i = (front ++ [x]) ++ (left ++ (y :: right ++ back)) := by
                    rw [content]
                    simp
                  have shorter : left.length + (y :: right).length < fuel := by
                    rw [List.length_cons] at enough
                    omega
                  have next := one.listNext_eq content
                  rcases inductionHypothesis sound further shorter with ⟨links', merges, rearranges⟩
                  refine ⟨links', ?_, ?_⟩
                  · simp only [Bool.not_false, if_true, next, Option.bind_some]
                    exact merges
                  · simp only [Bool.not_false, if_true]
                    rw [List.append_assoc, List.singleton_append] at rearranges
                    exact rearranges
              | true =>
                  rcases splice_rearranges sound content with ⟨moved, spliced, first⟩
                  have further :
                      Function.update contents i
                          (front ++ y :: x :: (left ++ (right ++ back))) i =
                        (front ++ [y]) ++ ((x :: left) ++ (right ++ back)) := by
                    rw [Function.update_self]
                    simp
                  have shorter : (x :: left).length + right.length < fuel := by
                    rw [List.length_cons] at enough ⊢
                    rw [List.length_cons] at enough
                    omega
                  have next := one.listNext_eq second
                  have previous := one.listPrev_eq second
                  rcases inductionHypothesis first.become.sound further
                    shorter with ⟨links', merges, rest⟩
                  refine ⟨links', ?_, ?_⟩
                  · simp only [Bool.not_true, Bool.false_eq_true, if_false, next,
                      previous, Option.bind_some, spliced]
                    exact merges
                  · simp only [Bool.not_true, Bool.false_eq_true, if_false]
                    rw [List.append_assoc, List.singleton_append] at rest
                    exact first.trans rest

/-- The merge through links is the merge of the two runs. -/
theorem inplaceMerge_rearranges (sound : ListsSound links list contents)
    (content : contents i = front ++ (left ++ (right ++ back)))
    (enough : left.length + right.length < fuel) {merged : List Node}
    (merges : Kernel.inplaceMerge less left right = some merged) :
    ∃ links',
      inplaceMerge less fuel links
          (pointerTo (list i) (left ++ (right ++ back)))
          (pointerTo (list i) (right ++ back)) (pointerTo (list i) back) =
        some links' ∧
      Rearranges links list contents i (front ++ (merged ++ back)) links' := by
  have one := sound.sound i
  rw [Kernel.inplaceMerge] at merges
  split at merges
  · rename_i asserted
    cases merges
    have second : contents i = (front ++ left) ++ (right ++ back) := by
      rw [content, List.append_assoc]
    have firstRun := @isSorted_eq _ _ _ _ _ _ _ _ less _ one content
      (Nat.lt_of_le_of_lt (Nat.le_add_right _ _) enough)
    have secondRun := @isSorted_eq _ _ _ _ _ _ _ _ less _ one second
      (Nat.lt_of_le_of_lt (Nat.le_add_left _ _) enough)
    rcases inplaceMergeLoop_rearranges sound content enough with ⟨links', ends, rearranges⟩
    refine ⟨links', ?_, rearranges⟩
    rw [inplaceMerge]
    simp only [pointerTo_isSome, Bool.and_self, if_true, firstRun, secondRun,
      Option.bind_eq_bind, Option.bind_some, asserted]
    exact ends
  · cases merges

/-- A pass through links is the pass over the sequence. -/
theorem sortPass_rearranges {todo : List Node} {pass : List Node × Nat}
    {count : Nat} (sound : ListsSound links list contents)
    (content : contents i = front ++ todo) (bounded : todo.length < bound)
    (enough : todo.length < fuel) (passed : Kernel.sortPass less todo = some pass) :
    ∃ links',
      sortPass less (list i) bound fuel links (pointerTo (list i) todo) count =
        some (links', count + pass.2) ∧
      Rearranges links list contents i (front ++ pass.1) links' := by
  induction todo using Kernel.sortPass.induct less generalizing links contents
      front fuel count pass with
  | case1 =>
      rw [Kernel.sortPass] at passed
      cases passed
      cases fuel with
      | zero => exact absurd enough (Nat.not_lt_zero _)
      | succ fuel =>
          refine ⟨links, ?_, Rearranges.refl sound content⟩
          rw [sortPass, pointerTo_nil, listEnd, if_pos rfl, Nat.add_zero]
  | case2 a0 rest done =>
      have one := sound.sound i
      have notEnd := one.pointer_ne_end content
      have whole := (findEndOfRun_spec less a0 rest).1
      have found := @findEndOfRun_eq _ _ _ _ _ _ _ _ less _ one content (Nat.lt_of_succ_lt bounded)
      rw [done, pointerTo_nil] at found
      rw [done, List.append_nil] at whole
      rw [Kernel.sortPass] at passed
      split at passed
      · cases passed
        cases fuel with
        | zero => exact absurd enough (Nat.not_lt_zero _)
        | succ fuel =>
            refine ⟨links, ?_, ?_⟩
            · rw [sortPass, pointerTo_cons, if_neg notEnd, found,
                Option.bind_eq_bind, Option.bind_some, listEnd, if_pos rfl]
            · rw [whole]
              exact Rearranges.refl sound content
      · rename_i more
        rw [done] at more
        cases more
  | case3 a0 rest a1b0 rest1 more inductionHypothesis =>
      have one := sound.sound i
      have notEnd := one.pointer_ne_end content
      have whole := (findEndOfRun_spec less a0 rest).1
      have whole1 := (findEndOfRun_spec less a1b0 rest1).1
      have found := @findEndOfRun_eq _ _ _ _ _ _ _ _ less _ one content (Nat.lt_of_succ_lt bounded)
      rw [more, pointerTo_cons] at found
      rw [more] at whole
      have lengths := congrArg List.length whole
      have lengths1 := congrArg List.length whole1
      rw [List.length_append, List.length_cons] at lengths
      rw [List.length_append] at lengths1
      rw [List.length_cons] at bounded enough
      have second : contents i =
          (front ++ a0 :: (Kernel.findEndOfRun less a0 rest).1) ++
            a1b0 :: rest1 := by
        rw [content, List.append_assoc, List.cons_append, whole]
      have notEnd1 := one.pointer_ne_end second
      have found1 := @findEndOfRun_eq _ _ _ _ _ _ _ _ less bound one second (by omega)
      have runs : contents i =
          front ++ ((a0 :: (Kernel.findEndOfRun less a0 rest).1) ++
            ((a1b0 :: (Kernel.findEndOfRun less a1b0 rest1).1) ++
              (Kernel.findEndOfRun less a1b0 rest1).2)) := by
        rw [List.cons_append, List.cons_append, whole1, whole]
        exact content
      rw [Kernel.sortPass] at passed
      split at passed
      · rename_i done
        rw [more] at done
        cases done
      · rename_i first other again
        rw [more] at again
        cases again
        rcases Option.bind_eq_some_iff.mp passed with ⟨merged, merges, passed⟩
        rcases Option.map_eq_some_iff.mp passed with ⟨later, passes, outcome⟩
        cases outcome
        cases fuel with
        | zero => exact absurd enough (Nat.not_lt_zero _)
        | succ fuel =>
            rcases @inplaceMerge_rearranges _ _ _ _ _ _ _ _ _ _ _ bound _ _ sound
                runs
                (by rw [List.length_cons, List.length_cons]; omega) _ merges with
              ⟨middle, merging, first⟩
            have further :
                Function.update contents i
                    (front ++ (merged ++ (Kernel.findEndOfRun less a1b0 rest1).2)) i =
                  (front ++ merged) ++
                    (Kernel.findEndOfRun less a1b0 rest1).2 := by
              rw [Function.update_self, List.append_assoc]
            rcases inductionHypothesis first.become.sound
                further (by omega) (by omega : _ < fuel) passes with
              ⟨links', ends, rest2⟩
            refine ⟨links', ?_, ?_⟩
            · rw [List.cons_append, List.cons_append, pointerTo_cons, pointerTo_cons] at merging
              rw [sortPass, pointerTo_cons, if_neg notEnd, found]
              simp only [Option.bind_eq_bind, Option.bind_some]
              rw [if_neg notEnd1, found1]
              simp only [Option.bind_some]
              rw [merging]
              simp only [Option.bind_some]
              rw [ends, Nat.add_assoc, Nat.add_comm 1]
            · rw [List.append_assoc] at rest2
              exact first.trans rest2

/-- Sorting through links is sorting the sequence. -/
theorem sortPasses_rearranges {sorted : List Node} (sound : ListsSound links list contents)
    (bounded : (contents i).length < bound)
    (ends : Kernel.listSort less fuel (contents i) = some sorted) :
    ∃ links',
      sortPasses less (list i) bound fuel links = some links' ∧
      Rearranges links list contents i sorted links' := by
  induction fuel generalizing links contents with
  | zero => cases ends
  | succ fuel inductionHypothesis =>
      rw [Kernel.listSort] at ends
      rcases Option.bind_eq_some_iff.mp ends with ⟨pass, passed, rest⟩
      have content : contents i = [] ++ contents i := rfl
      rcases sortPass_rearranges sound content bounded bounded passed with ⟨middle, passes, first⟩
      rw [List.nil_append] at first
      rw [Nat.zero_add] at passes
      have begin : listBegin links (list i) =
          pointerTo (list i) (contents i) := (sound.sound i).begin
      have length := first.perm.length_eq
      rw [sortPasses, begin, passes, Option.bind_eq_bind, Option.bind_some]
      by_cases again : 1 < pass.2
      · rw [if_pos again] at rest ⊢
        have same : Function.update contents i pass.1 i = pass.1 := Function.update_self _ _ _
        rcases inductionHypothesis
            first.become.sound (by rw [same, length]; exact bounded)
            (by rw [same]; exact rest) with ⟨links', sorts, second⟩
        exact ⟨links', sorts, first.trans second⟩
      · rw [if_neg again] at rest ⊢
        split at rest
        · rename_i asserted
          cases rest
          have beginAgain : listBegin middle (list i) = pointerTo (list i) (pass.1 ++ []) := by
            rw [List.append_nil]
            exact first.sound.begin
          have inOrder := @isSorted_eq _ _ _ _ [] _ _ _ less _ first.sound
            (List.append_nil pass.1).symm (by rw [length]; exact bounded)
          refine ⟨middle, ?_, first⟩
          rw [beginAgain, listEnd, ← pointerTo_nil, inOrder, asserted]
          rfl
        · cases rest

theorem listSort_rearranges (order : StrictWeakOrder less)
    (sound : ListsSound links list contents) (bounded : (contents i).length < bound) :
    ∃ links' sorted,
      listSort less (list i) bound links = some links' ∧
      Rearranges links list contents i sorted links' ∧
      StableSort less (contents i) sorted := by
  rcases listSort_stable order bounded with ⟨sorted, ends, stable⟩
  rcases sortPasses_rearranges sound bounded ends with ⟨links', sorts, rearranges⟩
  exact ⟨links', sorted, sorts, rearranges, stable⟩

/-- `list_sort` ends without a failed assertion, with the only stable
arrangement of its elements. -/
theorem list_sort_is_stable (order : StrictWeakOrder less)
    (sound : ListsSound links list contents) (bounded : (contents i).length < bound) :
    ∃ links' sorted,
      listSort less (list i) bound links = some links' ∧
      ListsBecome links list ((list i).nodes (contents i))
        (Function.update contents i sorted) links' ∧
      StableSort less (contents i) sorted ∧
      ∀ other, StableSort less (contents i) other → other = sorted := by
  rcases listSort_rearranges order sound bounded with ⟨links', sorted, sorts, rearranges, stable⟩
  refine ⟨links', sorted, sorts, rearranges.become, stable, ?_⟩
  intro other again
  have distinct : (contents i).Nodup := by
    have nodes := (List.nodup_cons.mp (sound.sound i).distinct).2
    exact (List.nodup_append.mp nodes).1
  exact stable.unique order distinct again

end Rearrangements

/-- Even numbers come before odd ones. -/
def evenFirst (a b : Nat) : Bool := decide (a % 2 < b % 2)

theorem evenFirst_order : StrictWeakOrder evenFirst where
  irrefl a := by simp [evenFirst]
  trans a b c first second := by
    simp only [evenFirst, decide_eq_true_eq] at first second ⊢
    omega
  incomparable a b c := by
    simp only [evenFirst, decide_eq_false_iff_not]
    omega

theorem list_sort_is_stable_two : ∃ links' sorted,
      listSort evenFirst (twoHeaders false) 4 twoLists = some links' ∧
      ListsBecome twoLists twoHeaders ((twoHeaders false).nodes [4, 5, 6])
        (Function.update (fun second => if second then [7] else [4, 5, 6]) false
          sorted) links' ∧
      StableSort evenFirst [4, 5, 6] sorted ∧
      ∀ other, StableSort evenFirst [4, 5, 6] other → other = sorted :=
  list_sort_is_stable evenFirst_order twoLists_sound (by decide)

/-! ## Ordered insertion -/

section Insertion

variable [DecidableEq Node] [DecidableEq Index]
variable {list : Index → ListHeader Node} {contents : Index → List Node}
variable {i : Index} {less : Node → Node → Bool} {fuel bound : Nat}

theorem insertPoint_eq (sound : ListSound links header elems)
    (content : elems = front ++ rest) (enough : rest.length < fuel) :
    insertPoint less header links (some elem) fuel (pointerTo header rest) =
      some (pointerTo header (rest.dropWhile fun e => !less elem e)) := by
  induction rest generalizing front fuel with
  | nil =>
      cases fuel with
      | zero => exact absurd enough (Nat.not_lt_zero _)
      | succ fuel => rw [pointerTo_nil, insertPoint, listEnd, if_pos rfl]; rfl
  | cons e rest inductionHypothesis =>
      cases fuel with
      | zero => exact absurd enough (Nat.not_lt_zero _)
      | succ fuel =>
          have notEnd := sound.pointer_ne_end content
          have next := sound.listNext_eq content
          have split : elems = (front ++ [e]) ++ rest := by
            rw [content]
            simp
          have later := inductionHypothesis split (Nat.lt_of_succ_lt_succ enough)
          rw [pointerTo_cons, insertPoint, if_neg notEnd, lessAt, List.dropWhile_cons]
          simp only [Option.bind_eq_bind, Option.bind_some]
          cases less elem e with
          | true => rfl
          | false =>
              rw [if_neg Bool.false_ne_true, next, Option.bind_some, later,
                Bool.not_false, if_pos rfl]

theorem listInsertOrdered_becomes (sound : ListsSound links list contents)
    (unlisted : Unlisted list contents elem) (bounded : (contents i).length < bound) :
    ∃ links',
      listInsertOrdered less (list i) bound links (some elem) = some links' ∧
      ListsSound links' list (Function.update contents i
        ((contents i).orderedInsert (fun a b => less a b = true) elem)) := by
  have one := sound.sound i
  have begin : listBegin links (list i) = pointerTo (list i) (contents i) := one.begin
  have point := @insertPoint_eq _ _ _ _ [] _ elem _ less _ one rfl bounded
  have split : contents i = (contents i).takeWhile (fun e => !less elem e) ++
      (contents i).dropWhile fun e => !less elem e :=
    List.takeWhile_append_dropWhile.symm
  have placed : (contents i).orderedInsert (fun a b => less a b = true) elem =
      (contents i).takeWhile (fun e => !less elem e) ++
        elem :: (contents i).dropWhile fun e => !less elem e := by
    rw [List.orderedInsert_eq_take_drop]
    simp
  rcases listInsert_becomes sound split unlisted with ⟨links', inserts, become⟩
  refine ⟨links', ?_, ?_⟩
  · rw [listInsertOrdered, if_pos (Option.isSome_some), begin, point]
    exact inserts
  · rw [placed]
    exact become.sound

omit [DecidableEq Node] in
theorem Unlisted.insert {placed : List Node}
    (unlisted : Unlisted list contents b) (different : b ≠ elem)
    (perm : placed.Perm (elem :: contents i)) :
    Unlisted list (Function.update contents i placed) b := by
  intro k
  by_cases which : k = i
  · subst which
    rw [Function.update_self]
    intro member
    apply unlisted k
    simp only [ListHeader.nodes, List.mem_append, List.mem_cons, perm.mem_iff] at member ⊢
    tauto
  · rw [Function.update_of_ne which]
    exact unlisted k

omit [DecidableEq Node] in
/-- An insertion that is right for one element is right for one after
another. -/
theorem foldlM_inserts {insert : Links Node → Node → Option (Links Node)}
    {place : List Node → Node → List Node}
    (perm : ∀ elems elem, (place elems elem).Perm (elem :: elems))
    (inserts : ∀ links contents elem, ListsSound links list contents →
      Unlisted list contents elem → (contents i).length < bound →
      ∃ links', insert links elem = some links' ∧
        ListsSound links' list (Function.update contents i (place (contents i) elem)))
    (sound : ListsSound links list contents) (distinct : elems.Nodup)
    (unlisted : ∀ elem ∈ elems, Unlisted list contents elem)
    (bounded : (contents i).length + elems.length < bound) :
    ∃ links',
      elems.foldlM insert links = some links' ∧
      ListsSound links' list
        (Function.update contents i (elems.foldl place (contents i))) := by
  induction elems generalizing links contents with
  | nil =>
      refine ⟨links, rfl, ?_⟩
      rw [List.foldl_nil, Function.update_eq_self]
      exact sound
  | cons elem rest inductionHypothesis =>
      have once := List.nodup_cons.mp distinct
      rw [List.length_cons] at bounded
      rcases inserts links contents elem sound
        (unlisted elem List.mem_cons_self) (by omega) with
        ⟨middle, first, between⟩
      have here : Function.update contents i (place (contents i) elem) i =
          place (contents i) elem := Function.update_self _ _ _
      have length := (perm (contents i) elem).length_eq
      rw [List.length_cons] at length
      rcases inductionHypothesis between once.2
          (by
            intro other member
            apply Unlisted.insert _ _ (perm (contents i) elem)
            · exact unlisted other (List.mem_cons_of_mem _ member)
            · rintro rfl
              exact once.1 member)
          (by rw [here]; omega) with ⟨links', later, after⟩
      rw [here, Function.update_idem] at after
      refine ⟨links', ?_, after⟩
      rw [List.foldlM_cons, first]
      exact later

theorem insertAllOrdered_sound (sound : ListsSound links list contents)
    (empty : contents i = []) (distinct : elems.Nodup)
    (unlisted : ∀ elem ∈ elems, Unlisted list contents elem) (bounded : elems.length < bound) :
    ∃ links',
      insertAllOrdered less (list i) bound links elems = some links' ∧
      ListsSound links' list
        (Function.update contents i (insertSorted less elems)) := by
  have fits : (contents i).length + elems.length < bound := by
    rw [empty, List.length_nil, Nat.zero_add]
    exact bounded
  have inserted := foldlM_inserts
    (fun elems elem => List.perm_orderedInsert (fun a b => less a b = true)
      elem elems)
    (fun _ _ _ sound unlisted bounded =>
      listInsertOrdered_becomes sound unlisted bounded)
    sound distinct unlisted fits
  rw [empty] at inserted
  exact inserted

omit [DecidableEq Node] in
theorem foldl_append_singleton (front elems : List Node) :
    elems.foldl (fun front elem => front ++ [elem]) front = front ++ elems := by
  induction elems generalizing front with
  | nil => rw [List.foldl_nil, List.append_nil]
  | cons elem rest inductionHypothesis =>
      rw [List.foldl_cons, inductionHypothesis, List.append_assoc, List.singleton_append]

theorem pushAllBack_sound (sound : ListsSound links list contents)
    (empty : contents i = []) (distinct : elems.Nodup)
    (unlisted : ∀ elem ∈ elems, Unlisted list contents elem) :
    ∃ links',
      pushAllBack (list i) links elems = some links' ∧
      ListsSound links' list (Function.update contents i elems) := by
  have fits : (contents i).length + elems.length < elems.length + 1 := by
    rw [empty, List.length_nil]
    omega
  have pushed := foldlM_inserts
    (fun elems elem => List.perm_append_singleton elem elems)
    (fun links contents elem sound unlisted _ => by
      rcases listPushBack_becomes sound unlisted (i := i) with ⟨links', pushes, become⟩
      exact ⟨links', pushes, become.sound⟩)
    sound distinct unlisted fits
  rw [foldl_append_singleton, empty, List.nil_append] at pushed
  exact pushed

/-- Ordered insertion one after another and appending with a sort at the end
give the list the same sequence. -/
theorem ordered_insertion_is_sorting (order : StrictWeakOrder less)
    (sound : ListsSound links list contents) (empty : contents i = []) (distinct : elems.Nodup)
    (unlisted : ∀ elem ∈ elems, Unlisted list contents elem) (bounded : elems.length < bound) :
    ∃ inserted sorted result,
      insertAllOrdered less (list i) bound links elems = some inserted ∧
      (pushAllBack (list i) links elems).bind (listSort less (list i) bound) = some sorted ∧
      ListsSound inserted list (Function.update contents i result) ∧
      ListsSound sorted list (Function.update contents i result) := by
  rcases insertAllOrdered_sound sound empty distinct unlisted
    bounded with ⟨inserted, inserts, insertedSound⟩
  rcases pushAllBack_sound sound empty distinct unlisted with ⟨pushed, pushes, pushedSound⟩
  have here : Function.update contents i elems i = elems := Function.update_self _ _ _
  rcases listSort_rearranges (i := i) order pushedSound
      (by rw [here]; exact bounded) with
    ⟨sorted, result, sorts, rearranges, stable⟩
  rw [here] at stable
  have sortedSound := rearranges.become.sound
  rw [Function.update_idem] at sortedSound
  rw [insertSorted_eq order distinct stable] at insertedSound
  refine ⟨inserted, sorted, result, inserts, ?_, insertedSound, sortedSound⟩
  rw [pushes, Option.bind_some]
  exact sorts

end Insertion

/-- A heap with the header elements 0 and 1 of an empty list. -/
def emptyList : Links Nat := listInit ⟨fun _ => none, fun _ => none⟩ ⟨0, 1⟩

theorem ordered_insertion_is_sorting_five : ∃ inserted sorted result,
      insertAllOrdered evenFirst ⟨0, 1⟩ 4 emptyList [5, 2, 4] = some inserted ∧
      (pushAllBack ⟨0, 1⟩ emptyList [5, 2, 4]).bind (listSort evenFirst ⟨0, 1⟩ 4) = some sorted ∧
      ListsSound inserted (fun _ : Unit => ⟨0, 1⟩)
        (Function.update (fun _ => []) () result) ∧
      ListsSound sorted (fun _ : Unit => ⟨0, 1⟩)
        (Function.update (fun _ => []) () result) := by
  apply @ordered_insertion_is_sorting _ _ _ _ _ _ (fun _ : Unit => ⟨0, 1⟩) _ () _ _
    evenFirst_order
  · constructor
    · intro i
      exact (listInit_sound (by decide)).1
    · intro i j different
      exact absurd rfl different
  · rfl
  · decide
  · intro elem member i listed
    simp [ListHeader.nodes] at member listed
    omega
  · decide

end CS162.Kernel.LinkedList

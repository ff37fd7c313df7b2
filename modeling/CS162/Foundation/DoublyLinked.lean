import Mathlib.Data.List.Chain
import Mathlib.Data.List.Nodup
import Mathlib.Data.List.TakeWhile
import Mathlib.Logic.Function.Basic

/-!
# Doubly linked nodes

Nodes have a link to the next node and one to the previous node.  A list of
nodes is linked when its neighbours point to each other.  All changes of such
lists are made of one step that joins two nodes.
-/

namespace CS162.Foundation

universe u

/-- The links of all nodes; `none` is a null pointer. -/
@[ext]
structure Links (Node : Type u) where
  next : Node → Option Node
  prev : Node → Option Node

namespace Links

variable {Node : Type u}

/-- Neighbours in the list point to each other. -/
def Linked (links : Links Node) (nodes : List Node) : Prop :=
  nodes.IsChain fun a b => links.next a = some b ∧ links.prev b = some a

theorem linked_append {links : Links Node} {left right : List Node} :
    links.Linked (left ++ right) ↔
      links.Linked left ∧ links.Linked right ∧
        ∀ a ∈ left.getLast?, ∀ b ∈ right.head?, links.next a = some b ∧ links.prev b = some a :=
  List.isChain_append

theorem Linked.singleton {links : Links Node} (node : Node) : links.Linked [node] :=
  List.IsChain.singleton node

theorem Linked.neighbours {links : Links Node} {left right : List Node}
    {a b : Node} (linked : links.Linked (left ++ right))
    (last : left.getLast? = some a) (head : right.head? = some b) :
    links.next a = some b ∧ links.prev b = some a :=
  (linked_append.mp linked).2.2 a last b head

/-- Only the links between the nodes of the list matter. -/
theorem Linked.congr {links links' : Links Node} {nodes : List Node} (linked : links.Linked nodes)
    (sameNext : ∀ node ∈ nodes.dropLast, links'.next node = links.next node)
    (samePrev : ∀ node ∈ nodes.tail, links'.prev node = links.prev node) :
    links'.Linked nodes := by
  induction nodes with
  | nil => exact .nil
  | cons first rest inductionHypothesis =>
      cases rest with
      | nil => exact .singleton first
      | cons second rest =>
          have split := List.isChain_cons_cons.mp linked
          apply List.isChain_cons_cons.mpr
          constructor
          · rw [sameNext first (by simp), samePrev second (by simp)]
            exact split.1
          · apply inductionHypothesis split.2
            · intro node member
              apply sameNext
              rw [List.dropLast_cons_of_ne_nil (List.cons_ne_nil second rest)]
              exact List.mem_cons_of_mem first member
            · intro node member
              apply samePrev
              exact List.mem_cons_of_mem second member

/-- Exchanging the links of all nodes turns a list round. -/
theorem Linked.reverse {links links' : Links Node} {nodes : List Node} (linked : links.Linked nodes)
    (sameNext : ∀ node ∈ nodes, links'.next node = links.prev node)
    (samePrev : ∀ node ∈ nodes, links'.prev node = links.next node) :
    links'.Linked nodes.reverse := by
  apply List.isChain_reverse.mpr
  induction nodes with
  | nil => exact .nil
  | cons first rest inductionHypothesis =>
      cases rest with
      | nil => exact .singleton first
      | cons second rest =>
          have split := List.isChain_cons_cons.mp linked
          apply List.isChain_cons_cons.mpr
          constructor
          · rw [sameNext second (by simp), samePrev first (by simp)]
            exact ⟨split.1.2, split.1.1⟩
          · apply inductionHypothesis split.2
            · intro node member
              exact sameNext node (List.mem_cons_of_mem first member)
            · intro node member
              exact samePrev node (List.mem_cons_of_mem first member)

variable [DecidableEq Node]

def setNext (links : Links Node) (node : Node) (target : Option Node) : Links Node :=
  { links with next := Function.update links.next node target }

def setPrev (links : Links Node) (node : Node) (target : Option Node) : Links Node :=
  { links with prev := Function.update links.prev node target }

/-- One node becomes the neighbour of another. -/
def join (links : Links Node) (a b : Node) : Links Node :=
  (links.setNext a (some b)).setPrev b (some a)

/-- The two links of every listed node change places. -/
def exchange (links : Links Node) (nodes : List Node) : Links Node where
  next node := if node ∈ nodes then links.prev node else links.next node
  prev node := if node ∈ nodes then links.next node else links.prev node

variable {links : Links Node} {nodes left right : List Node} {a b node : Node}
variable {target : Option Node}

@[simp] theorem setNext_next :
    (links.setNext node target).next = Function.update links.next node target := rfl

@[simp] theorem setNext_prev : (links.setNext node target).prev = links.prev := rfl

@[simp] theorem setPrev_next : (links.setPrev node target).next = links.next := rfl

@[simp] theorem setPrev_prev :
    (links.setPrev node target).prev = Function.update links.prev node target := rfl

@[simp] theorem join_next : (links.join a b).next = Function.update links.next a (some b) := rfl

@[simp] theorem join_prev : (links.join a b).prev = Function.update links.prev b (some a) := rfl

theorem exchange_of_mem (links : Links Node) (member : node ∈ nodes) :
    (links.exchange nodes).next node = links.prev node ∧
      (links.exchange nodes).prev node = links.next node := by
  simp [exchange, member]

theorem exchange_of_not_mem (links : Links Node) (absent : node ∉ nodes) :
    (links.exchange nodes).next node = links.next node ∧
      (links.exchange nodes).prev node = links.prev node := by
  simp [exchange, absent]

theorem exchange_cons (absent : node ∉ nodes) :
    ((links.setPrev node (links.next node)).setNext node
        (links.prev node)).exchange nodes =
      links.exchange (node :: nodes) := by
  ext1
  all_goals
    funext other
    by_cases same : other = node
    · subst same
      simp [exchange, absent]
    · simp [exchange, same]

/-- Joining two nodes leaves a list alone that has the first at most as its
last node and the second at most as its first. -/
theorem Linked.join (linked : links.Linked nodes) (notFirst : a ∉ nodes.dropLast)
    (notSecond : b ∉ nodes.tail) : (links.join a b).Linked nodes := by
  apply linked.congr
  · intro node member
    rw [join_next, Function.update_of_ne]
    rintro rfl
    exact notFirst member
  · intro node member
    rw [join_prev, Function.update_of_ne]
    rintro rfl
    exact notSecond member

theorem Linked.join_apart (linked : links.Linked nodes) (first : a ∉ nodes)
    (second : b ∉ nodes) : (links.join a b).Linked nodes :=
  linked.join (fun member => first (List.dropLast_subset nodes member))
    fun member => second (List.mem_of_mem_tail member)

/-- Two lists become one when the last node of the first is joined to the first
node of the second. -/
theorem Linked.connect (first : links.Linked left) (second : links.Linked right)
    (last : left.getLast? = some a) (head : right.head? = some b)
    (distinct : (left ++ right).Nodup) :
    (links.join a b).Linked (left ++ right) := by
  rcases List.nodup_append.mp distinct with ⟨distinctLeft, distinctRight, apart⟩
  rcases List.getLast?_eq_some_iff.mp last with ⟨front, rfl⟩
  rcases List.head?_eq_some_iff.mp head with ⟨back, rfl⟩
  apply linked_append.mpr
  refine ⟨?_, ?_, ?_⟩
  · apply first.join
    · rw [List.dropLast_concat]
      intro member
      have once := (List.nodup_append.mp distinctLeft).2.2
      exact once a member a (by simp) rfl
    · intro member
      exact apart b (List.mem_of_mem_tail member) b (by simp) rfl
  · apply second.join
    · intro member
      exact apart a (by simp) a (List.dropLast_subset (b :: back) member) rfl
    · rw [List.tail_cons]
      exact (List.nodup_cons.mp distinctRight).1
  · intro x here y there
    rw [last] at here
    rw [head] at there
    cases here
    cases there
    simp

/-- A linked range comes between two lists. -/
theorem Linked.paste {range : List Node} {p q first last : Node}
    (linkedLeft : links.Linked left) (linkedRange : links.Linked range)
    (linkedRight : links.Linked right) (leftLast : left.getLast? = some p)
    (rangeHead : range.head? = some first) (rangeLast : range.getLast? = some last)
    (rightHead : right.head? = some q) (distinct : (left ++ range ++ right).Nodup) :
    ((links.join p first).join last q).Linked (left ++ range ++ right) := by
  rcases List.nodup_append.mp distinct with ⟨distinctFront, _, apart⟩
  have front : (links.join p first).Linked (left ++ range) :=
    linkedLeft.connect linkedRange leftLast rangeHead distinctFront
  have back : (links.join p first).Linked right := by
    apply linkedRight.join_apart
    · intro member
      have here := List.mem_of_getLast? leftLast
      exact apart p (List.mem_append_left range here) p member rfl
    · intro member
      have here := List.mem_of_head? rangeHead
      exact apart first (List.mem_append_right left here) first member rfl
  apply front.connect back _ rightHead distinct
  rw [List.getLast?_append, rangeLast]
  rfl

end Links

/-! ## Links of given lists -/

section Lists

variable {Node : Type u} {front back : List Node} {node next : Node}

/-- A search that can succeed in one place only. -/
theorem findSome?_range {find : Nat → Option Node} {count place : Nat} (inside : place < count)
    (others : ∀ other, other < count → other ≠ place → find other = none) :
    (List.range count).findSome? find = find place := by
  induction count with
  | zero => exact absurd inside (Nat.not_lt_zero _)
  | succ count inductionHypothesis =>
      rw [List.range_succ, List.findSome?_append]
      by_cases last : place = count
      · have before : (List.range count).findSome? find = none := by
          rw [List.findSome?_eq_none_iff]
          intro other member
          have smaller := List.mem_range.mp member
          exact others other (by omega) (by omega)
        rw [before, last]
        simp
      · have earlier := inductionHypothesis (by omega) fun other smaller different =>
          others other (by omega) different
        rw [earlier, List.findSome?_singleton, others count (by omega) (Ne.symm last)]
        simp

theorem absent_of_nodup (distinct : (front ++ node :: back).Nodup) : node ∉ front := by
  intro member
  exact (List.nodup_append.mp distinct).2.2 node member node List.mem_cons_self rfl

variable [DecidableEq Node]

/-- The node behind the first occurrence of a node. -/
def nodeAfter (nodes : List Node) (node : Node) : Option Node := (nodes.dropWhile (· ≠ node))[1]?

theorem dropWhile_ne (absent : node ∉ front) :
    (front ++ node :: back).dropWhile (· ≠ node) = node :: back := by
  induction front with
  | nil => simp
  | cons first rest inductionHypothesis =>
      rcases not_or.mp (fun found => absent (List.mem_cons.mpr found)) with
        ⟨different, absentRest⟩
      rw [List.cons_append, List.dropWhile_cons_of_pos, inductionHypothesis absentRest]
      exact decide_eq_true (Ne.symm different)

theorem nodeAfter_eq (distinct : (front ++ node :: next :: back).Nodup) :
    nodeAfter (front ++ node :: next :: back) node = some next := by
  rw [nodeAfter, dropWhile_ne (absent_of_nodup distinct)]
  rfl

theorem nodeAfter_last (distinct : (front ++ [node]).Nodup) :
    nodeAfter (front ++ [node]) node = none := by
  rw [nodeAfter, dropWhile_ne (absent_of_nodup distinct)]
  rfl

theorem nodeAfter_absent {nodes : List Node} (absent : node ∉ nodes) :
    nodeAfter nodes node = none := by
  have all : nodes.dropWhile (· ≠ node) = [] := by
    rw [List.dropWhile_eq_nil_iff]
    intro other member
    apply decide_eq_true
    rintro rfl
    exact absent member
  rw [nodeAfter, all]
  rfl

/-- The links of a number of lists. -/
def Links.ofLists (lists : Nat → List Node) (count : Nat) : Links Node where
  next node := (List.range count).findSome? fun place => nodeAfter (lists place) node
  prev node := (List.range count).findSome? fun place =>
    nodeAfter (lists place).reverse node

/-- Lists without a common node. -/
structure ListsApart (lists : Nat → List Node) (count : Nat) : Prop where
  distinct : ∀ place, place < count → (lists place).Nodup
  disjoint : ∀ place other, place < count → other < count → other ≠ place →
    List.Disjoint (lists place) (lists other)

namespace ListsApart

variable {lists : Nat → List Node} {count place : Nat}

/-- The list that a node is in decides the links of the node. -/
theorem ofLists_links (apart : ListsApart lists count) (inside : place < count)
    (member : node ∈ lists place) :
    (Links.ofLists lists count).next node = nodeAfter (lists place) node ∧
      (Links.ofLists lists count).prev node = nodeAfter (lists place).reverse node := by
  have absent : ∀ other, other < count → other ≠ place → node ∉ lists other :=
    fun other smaller different found =>
      apart.disjoint place other inside smaller different member found
  constructor
  · exact findSome?_range inside fun other smaller different =>
      nodeAfter_absent (absent other smaller different)
  · apply findSome?_range inside
    intro other smaller different
    apply nodeAfter_absent
    rw [List.mem_reverse]
    exact absent other smaller different

theorem ofLists_linked (apart : ListsApart lists count) (inside : place < count) :
    (Links.ofLists lists count).Linked (lists place) := by
  rw [Links.Linked, List.isChain_iff_forall_rel_of_append_cons_cons]
  intro a b front back split
  have distinct := apart.distinct place inside
  have reversed : (lists place).reverse = back.reverse ++ b :: a :: front.reverse := by
    rw [split]
    simp
  constructor
  · rw [(apart.ofLists_links inside (by rw [split]; simp)).1, split]
    rw [split] at distinct
    exact nodeAfter_eq distinct
  · rw [(apart.ofLists_links inside (by rw [split]; simp)).2, reversed]
    rw [← List.nodup_reverse, reversed] at distinct
    exact nodeAfter_eq distinct

theorem ofLists_first (apart : ListsApart lists count) (inside : place < count)
    (split : lists place = node :: back) : (Links.ofLists lists count).prev node = none := by
  have distinct := apart.distinct place inside
  rw [(apart.ofLists_links inside (by rw [split]; simp)).2]
  rw [← List.nodup_reverse] at distinct
  rw [split, List.reverse_cons] at distinct ⊢
  exact nodeAfter_last distinct

theorem ofLists_last (apart : ListsApart lists count) (inside : place < count)
    (split : lists place = front ++ [node]) :
    (Links.ofLists lists count).next node = none := by
  have distinct := apart.distinct place inside
  rw [(apart.ofLists_links inside (by rw [split]; simp)).1]
  rw [split] at distinct ⊢
  exact nodeAfter_last distinct

end ListsApart

end Lists

end CS162.Foundation

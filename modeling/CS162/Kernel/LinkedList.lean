import Mathlib.Data.List.Basic
import Mathlib.Data.List.Nodup
import Mathlib.Tactic.Basic
import CS162.Foundation.DoublyLinked

/-!
# Doubly linked lists

`lib/kernel/list.c` and its copy in `hw-list`.  A pointer to a list element is an optional node, and a
list is the pair of its two header elements.  A failed `ASSERT` and an access
through a null pointer are both `none`.

The operations are run write by write.  Each of them is then one or more joins
of two nodes, and the joins cut a range out of a list and paste it in again.
-/

namespace CS162.Kernel

open CS162.Foundation

universe u v

/-- `struct list`: where its two header elements are. -/
structure ListHeader (Node : Type u) where
  head : Node
  tail : Node
  deriving DecidableEq

/-- The header elements and what is between them. -/
def ListHeader.nodes {Node : Type u} (list : ListHeader Node) (elems : List Node) : List Node :=
  list.head :: elems ++ [list.tail]

namespace LinkedList

variable {Node : Type u}

/-- `elem->next` -/
def readNext (links : Links Node) (elem : Option Node) : Option (Option Node) := elem.map links.next

/-- `elem->prev` -/
def readPrev (links : Links Node) (elem : Option Node) : Option (Option Node) := elem.map links.prev

/-- `is_head`. -/
def isHead (links : Links Node) : Option Node → Bool
  | none => false
  | some elem => (links.prev elem).isNone && (links.next elem).isSome

/-- `is_interior`. -/
def isInterior (links : Links Node) : Option Node → Bool
  | none => false
  | some elem => (links.prev elem).isSome && (links.next elem).isSome

/-- `is_tail`. -/
def isTail (links : Links Node) : Option Node → Bool
  | none => false
  | some elem => (links.prev elem).isSome && (links.next elem).isNone

/-- `list_prev`. -/
def listPrev (links : Links Node) (elem : Option Node) : Option (Option Node) :=
  if isInterior links elem || isTail links elem then readPrev links elem
  else none

variable {links : Links Node}

theorem isInterior_of_neighbours {elem p q : Node}
    (prevEq : links.prev elem = some p) (nextEq : links.next elem = some q) :
    isInterior links (some elem) = true := by
  simp [isInterior, prevEq, nextEq]

/-- An element with one before it can stand after an insertion. -/
theorem canFollow_of_prev {elem p : Node} (prevEq : links.prev elem = some p) :
    (isInterior links (some elem) || isTail links (some elem)) = true := by
  cases nextEq : links.next elem with
  | none => simp [isInterior, isTail, prevEq, nextEq]
  | some q => simp [isInterior, prevEq, nextEq]

variable [DecidableEq Node]

/-- `elem->next = target` -/
def writeNext (links : Links Node) (elem target : Option Node) : Option (Links Node) :=
  elem.map fun node => links.setNext node target

/-- `elem->prev = target` -/
def writePrev (links : Links Node) (elem target : Option Node) : Option (Links Node) :=
  elem.map fun node => links.setPrev node target

/-- `list_init`. -/
def listInit (links : Links Node) (list : ListHeader Node) : Links Node :=
  (((links.setPrev list.head none).setNext list.head (some list.tail)).setPrev
    list.tail (some list.head)).setNext list.tail none

/-- `list_begin`. -/
def listBegin (links : Links Node) (list : ListHeader Node) : Option Node := links.next list.head

/-- `list_end`. -/
def listEnd (list : ListHeader Node) : Option Node := some list.tail

/-- `list_empty`. -/
def listEmpty (links : Links Node) (list : ListHeader Node) : Bool :=
  listBegin links list == listEnd list

/-- `list_insert`. -/
def listInsert (links : Links Node) (before elem : Option Node) : Option (Links Node) :=
  if (isInterior links before || isTail links before) && elem.isSome then do
    let links ← writePrev links elem (← readPrev links before)
    let links ← writeNext links elem before
    let links ← writeNext links (← readPrev links before) elem
    writePrev links before elem
  else none

/-- `list_splice`. -/
def listSplice (links : Links Node) (before first last : Option Node) : Option (Links Node) :=
  if isInterior links before || isTail links before then
    if first = last then some links
    else do
      let last ← listPrev links last
      if isInterior links first && isInterior links last then do
        -- the range leaves its list
        let links ← writeNext links (← readPrev links first) (← readNext links last)
        let links ← writePrev links (← readNext links last) (← readPrev links first)
        -- and goes before its new neighbour
        let links ← writePrev links first (← readPrev links before)
        let links ← writeNext links last before
        let links ← writeNext links (← readPrev links before) first
        writePrev links before last
      else none
  else none

/-- `list_push_front`. -/
def listPushFront (links : Links Node) (list : ListHeader Node)
    (elem : Option Node) : Option (Links Node) :=
  listInsert links (listBegin links list) elem

/-- `list_push_back`. -/
def listPushBack (links : Links Node) (list : ListHeader Node)
    (elem : Option Node) : Option (Links Node) :=
  listInsert links (listEnd list) elem

/-- `list_remove`, with the element it returns. -/
def listRemove (links : Links Node) (elem : Option Node) : Option (Links Node × Option Node) :=
  if isInterior links elem then do
    let links ← writeNext links (← readPrev links elem) (← readNext links elem)
    let links ← writePrev links (← readNext links elem) (← readPrev links elem)
    let next ← readNext links elem
    some (links, next)
  else none

/-- `list_front`. -/
def listFront (links : Links Node) (list : ListHeader Node) : Option (Option Node) :=
  if listEmpty links list then none else some (links.next list.head)

/-- `list_back`. -/
def listBack (links : Links Node) (list : ListHeader Node) : Option (Option Node) :=
  if listEmpty links list then none else some (links.prev list.tail)

/-- `list_pop_front`. -/
def listPopFront (links : Links Node) (list : ListHeader Node) :
    Option (Links Node × Option Node) := do
  let front ← listFront links list
  let (links, _) ← listRemove links front
  some (links, front)

/-- `list_pop_back`. -/
def listPopBack (links : Links Node) (list : ListHeader Node) :
    Option (Links Node × Option Node) := do
  let back ← listBack links list
  let (links, _) ← listRemove links back
  some (links, back)

/-- `swap`, of the link before one element and the link after another. -/
def swap (links : Links Node) (a b : Option Node) : Option (Links Node) := do
  let before ← readPrev links a
  let links ← writePrev links a (← readNext links b)
  writeNext links b before

/-- The loop of `list_reverse`.  It goes on through the link that was the next
one before the exchange. -/
def reverseLoop (list : ListHeader Node) : Nat → Links Node → Option Node → Option (Links Node)
  | 0, _, _ => none
  | fuel + 1, links, elem =>
      if elem = listEnd list then some links
      else do
        let links ← swap links elem elem
        reverseLoop list fuel links (← readPrev links elem)

/-- `list_reverse`. -/
def listReverse (fuel : Nat) (links : Links Node) (list : ListHeader Node) : Option (Links Node) :=
  if listEmpty links list then some links
  else do
    let links ← reverseLoop list fuel links (listBegin links list)
    let links ← swap links (some list.tail) (some list.head)
    swap links (links.next list.head) (links.prev list.tail)

/-! ## The writes of one operation -/

theorem listInsert_eq {before elem p : Node}
    (prevEq : links.prev before = some p) (notBefore : elem ≠ before) (notPrev : elem ≠ p) :
    listInsert links (some before) (some elem) = some ((links.join p elem).join elem before) := by
  have asserted := canFollow_of_prev prevEq
  rw [listInsert, asserted]
  simp only [Bool.and_self, Option.isSome_some, if_true, readPrev, writePrev,
    writeNext, Option.map_some, Option.bind_eq_bind, Option.bind_some, prevEq,
    Links.setPrev_prev, Links.setNext_prev, Function.update_of_ne notBefore.symm]
  congr 1
  ext1
  · simp [Function.update_comm notPrev]
  · simp

theorem listRemove_eq {elem p q : Node} (prevEq : links.prev elem = some p)
    (nextEq : links.next elem = some q) (notPrev : elem ≠ p) :
    listRemove links (some elem) = some (links.join p q, some q) := by
  rw [listRemove, isInterior_of_neighbours prevEq nextEq]
  simp [readPrev, readNext, writePrev, writeNext, prevEq, nextEq,
    Function.update_of_ne notPrev, Links.join]

theorem listSplice_eq {before first last p q r : Node} (firstPrev : links.prev first = some p)
    (firstInterior : isInterior links (some first) = true)
    (lastNext : links.next last = some q) (endPrev : links.prev q = some last)
    (lastInterior : isInterior links (some last) = true)
    (beforePrev : (links.join p q).prev before = some r) (nonempty : first ≠ q)
    (lastOutside : last ≠ p) (notFirst : before ≠ first) (notLast : last ≠ r) :
    listSplice links (some before) (some first) (some q) =
      some (((links.join p q).join r first).join last before) := by
  have beforeHas : ∃ node, links.prev before = some node := by
    by_cases same : before = q
    · exact ⟨last, by rw [same, endPrev]⟩
    · rw [Links.join_prev, Function.update_of_ne same] at beforePrev
      exact ⟨r, beforePrev⟩
  rcases beforeHas with ⟨node, has⟩
  have follow := canFollow_of_prev has
  have followEnd := canFollow_of_prev endPrev
  rw [Links.join_prev] at beforePrev
  have different : some first ≠ some q := by simpa using nonempty
  rw [listSplice, follow, if_pos rfl, if_neg different, listPrev, followEnd,
    if_pos rfl, readPrev, Option.map_some, endPrev, Option.bind_eq_bind,
    Option.bind_some, firstInterior, lastInterior, Bool.and_self, if_pos rfl]
  simp only [readPrev, readNext, writePrev, writeNext, Option.map_some,
    Option.bind_eq_bind, Option.bind_some, firstPrev, lastNext,
    Links.setPrev_prev, Links.setNext_prev, Links.setNext_next,
    Function.update_of_ne lastOutside, Function.update_of_ne notFirst,
    beforePrev]
  congr 1
  ext1
  · simp [Function.update_comm notLast]
  · simp

theorem swap_eq (a b : Node) :
    swap links (some a) (some b) =
      some ((links.setPrev a (links.next b)).setNext b (links.prev a)) := rfl

end LinkedList

end CS162.Kernel

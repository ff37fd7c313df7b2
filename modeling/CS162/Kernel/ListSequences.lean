import CS162.Kernel.LinkedList

/-!
# Linked lists represent sequences

Any number of lists share one heap of elements.  Each operation of
`lib/kernel/list.c` changes the sequences of the lists it is given as insertion,
deletion, move of a range or reversal, and no other element.
-/

namespace CS162.Kernel.LinkedList

open CS162.Foundation

universe u v

variable {Node : Type u} {Index : Type v}

/-- A list that represents a sequence of elements. -/
structure ListSound (links : Links Node) (list : ListHeader Node)
    (elems : List Node) : Prop where
  linked : links.Linked (list.nodes elems)
  headPrev : links.prev list.head = none
  tailNext : links.next list.tail = none
  distinct : (list.nodes elems).Nodup

/-- Disjoint lists that each represent a sequence. -/
structure ListsSound (links : Links Node) (list : Index → ListHeader Node)
    (elems : Index → List Node) : Prop where
  sound : ∀ i, ListSound links (list i) (elems i)
  apart : ∀ i j, i ≠ j → List.Disjoint ((list i).nodes (elems i)) ((list j).nodes (elems j))

/-- No list has the element. -/
def Unlisted (list : Index → ListHeader Node) (elems : Index → List Node) (elem : Node) : Prop :=
  ∀ i, elem ∉ (list i).nodes (elems i)

/-- The links of all other elements are as before. -/
def SameOutside (touched : List Node) (links links' : Links Node) : Prop :=
  ∀ node, node ∉ touched → links'.next node = links.next node ∧ links'.prev node = links.prev node

theorem nodes_append (list : ListHeader Node) (front back : List Node) :
    list.nodes (front ++ back) = (list.head :: front) ++ (back ++ [list.tail]) := by
  simp [ListHeader.nodes]

variable {links links' : Links Node} {header : ListHeader Node}
variable {elems front back range touched : List Node} {p q first last : Node}

theorem head_ne_right (distinct : (header.nodes (front ++ back)).Nodup)
    (right : (back ++ [header.tail]).head? = some q) : q ≠ header.head := by
  rw [nodes_append] at distinct
  intro same
  have member := List.mem_of_head? right
  exact (List.nodup_append.mp distinct).2.2 header.head (by simp) q member same.symm

theorem tail_ne_left (distinct : (header.nodes (front ++ back)).Nodup)
    (left : (header.head :: front).getLast? = some p) : p ≠ header.tail := by
  rw [nodes_append] at distinct
  intro same
  have member := List.mem_of_getLast? left
  exact (List.nodup_append.mp distinct).2.2 p member header.tail (by simp) same

theorem ListSound.congr (sound : ListSound links header elems)
    (same : SameOutside touched links links') (apart : List.Disjoint touched (header.nodes elems)) :
    ListSound links' header elems := by
  have kept : ∀ node ∈ header.nodes elems,
      links'.next node = links.next node ∧ links'.prev node = links.prev node := by
    intro node member
    apply same
    intro inTouched
    exact apart inTouched member
  constructor
  · apply sound.linked.congr
    · intro node member
      exact (kept node (List.dropLast_subset _ member)).1
    · intro node member
      exact (kept node (List.mem_of_mem_tail member)).2
  · rw [(kept header.head (by simp [ListHeader.nodes])).2]
    exact sound.headPrev
  · rw [(kept header.tail (by simp [ListHeader.nodes])).1]
    exact sound.tailNext
  · exact sound.distinct

theorem left_mem_nodes (left : (header.head :: front).getLast? = some p) :
    p ∈ header.nodes (front ++ back) := by
  rw [nodes_append]
  exact List.mem_append_left _ (List.mem_of_getLast? left)

theorem right_mem_nodes (right : (back ++ [header.tail]).head? = some q) :
    q ∈ header.nodes (front ++ back) := by
  rw [nodes_append]
  exact List.mem_append_right _ (List.mem_of_head? right)

theorem sameOutside_self (touched : List Node) (links : Links Node) :
    SameOutside touched links links := by
  intro node _
  constructor <;> rfl

/-- The elements left after a range is cut out. -/
theorem nodes_of_cut {node : Node} (member : node ∈ header.nodes (front ++ back)) :
    node ∈ header.nodes (front ++ range ++ back) := by
  simp only [ListHeader.nodes, List.mem_append, List.mem_cons] at member ⊢
  tauto

theorem range_mem_nodes {node : Node} (member : node ∈ range) :
    node ∈ header.nodes (front ++ range ++ back) := by
  rw [List.append_assoc, nodes_append, List.append_assoc]
  exact List.mem_append_right _ (List.mem_append_left _ member)

variable [DecidableEq Index] {list : Index → ListHeader Node}
variable {contents : Index → List Node} {i : Index}

/-- One list gets a new sequence, and no element of another list is touched. -/
theorem ListsSound.replace (sound : ListsSound links list contents)
    (one : ListSound links' (list i) elems) (same : SameOutside touched links links')
    (within : ∀ node ∈ (list i).nodes elems, node ∈ touched)
    (apart : ∀ k, k ≠ i → List.Disjoint touched ((list k).nodes (contents k))) :
    ListsSound links' list (Function.update contents i elems) := by
  have others : ∀ k, k ≠ i →
      List.Disjoint ((list i).nodes elems) ((list k).nodes (contents k)) := by
    intro k different node here there
    exact apart k different (within node here) there
  constructor
  · intro k
    by_cases which : k = i
    · subst which
      rw [Function.update_self]
      exact one
    · rw [Function.update_of_ne which]
      exact (sound.sound k).congr same (apart k which)
  · intro k m different
    by_cases first : k = i
    · subst first
      rw [Function.update_self, Function.update_of_ne different.symm]
      exact others m different.symm
    · by_cases second : m = i
      · subst second
        rw [Function.update_self, Function.update_of_ne different]
        exact fun node here there => others k different there here
      · rw [Function.update_of_ne first, Function.update_of_ne second]
        exact sound.apart k m different

/-- The elements of a range that is cut out are in no list. -/
theorem ListsSound.unlisted_of_cut (sound : ListsSound links list contents)
    (content : contents i = front ++ range ++ back) {node : Node} (member : node ∈ range) :
    Unlisted list (Function.update contents i (front ++ back)) node := by
  have listed : node ∈ (list i).nodes (contents i) := by
    simp [content, ListHeader.nodes, member]
  intro k
  by_cases which : k = i
  · subst which
    rw [Function.update_self, nodes_append, List.mem_append]
    have distinct := (sound.sound k).distinct
    rw [content, List.append_assoc, nodes_append, List.append_assoc] at distinct
    have apart := List.nodup_append.mp distinct
    have apartRear := List.nodup_append.mp apart.2.1
    rintro (inFront | inBack)
    · exact apart.2.2 node inFront node (List.mem_append_left _ member) rfl
    · exact apartRear.2.2 node member node inBack rfl
  · rw [Function.update_of_ne which]
    intro inOther
    exact sound.apart i k (Ne.symm which) listed inOther

/-- After a cut every list has only elements it had before. -/
theorem touched_of_cut {j : Index} {node : Node} (content : contents i = front ++ range ++ back)
    (member : node ∈ (list j).nodes (Function.update contents i (front ++ back) j)) :
    node ∈ (list i).nodes (contents i) ++ (list j).nodes (contents j) := by
  by_cases same : j = i
  · subst same
    rw [Function.update_self] at member
    rw [content]
    exact List.mem_append_left _ (nodes_of_cut member)
  · rw [Function.update_of_ne same] at member
    exact List.mem_append_right _ member

section Joins

variable [DecidableEq Node]

theorem SameOutside.join
    (same : SameOutside touched links links') (left : p ∈ touched)
    (right : q ∈ touched) : SameOutside touched links (links'.join p q) := by
  intro node outside
  have notLeft : node ≠ p := fun same => outside (same ▸ left)
  have notRight : node ≠ q := fun same => outside (same ▸ right)
  rw [Links.join_next, Links.join_prev, Function.update_of_ne notLeft,
    Function.update_of_ne notRight]
  exact same node outside

/-- A join inside a list leaves its ends alone. -/
theorem ListSound.ends_join
    (sound : ListSound links header elems) (notHead : q ≠ header.head) (notTail : p ≠ header.tail) :
    (links.join p q).prev header.head = none ∧
      (links.join p q).next header.tail = none := by
  rw [Links.join_prev, Links.join_next, Function.update_of_ne notHead.symm,
    Function.update_of_ne notTail.symm]
  exact ⟨sound.headPrev, sound.tailNext⟩

/-- The range between two joined elements is cut out of the list. -/
theorem ListSound.cut
    (sound : ListSound links header (front ++ range ++ back))
    (left : (header.head :: front).getLast? = some p)
    (right : (back ++ [header.tail]).head? = some q) :
    ListSound (links.join p q) header (front ++ back) := by
  have linked := sound.linked
  have distinct := sound.distinct
  rw [List.append_assoc, nodes_append, List.append_assoc] at linked distinct
  have parts := Links.linked_append.mp linked
  have rear := Links.linked_append.mp parts.2.1
  have remains : (header.nodes (front ++ back)).Nodup := by
    rw [nodes_append]
    apply List.Nodup.sublist _ distinct
    apply List.Sublist.append_left
    exact List.sublist_append_right range (back ++ [header.tail])
  have ends := sound.ends_join (head_ne_right remains right) (tail_ne_left remains left)
  constructor
  · rw [nodes_append] at remains ⊢
    exact parts.1.connect rear.2.1 left right remains
  · exact ends.1
  · exact ends.2
  · exact remains

/-- The range that is cut out stays linked. -/
theorem ListSound.cut_range
    (sound : ListSound links header (front ++ range ++ back))
    (left : (header.head :: front).getLast? = some p)
    (right : (back ++ [header.tail]).head? = some q) :
    (links.join p q).Linked range := by
  have linked := sound.linked
  have distinct := sound.distinct
  rw [List.append_assoc, nodes_append, List.append_assoc] at linked distinct
  have parts := Links.linked_append.mp linked
  have rear := Links.linked_append.mp parts.2.1
  have apart := List.nodup_append.mp distinct
  have apartRear := List.nodup_append.mp apart.2.1
  apply rear.1.join_apart
  · intro member
    exact apart.2.2 p (List.mem_of_getLast? left) p (List.mem_append_left _ member) rfl
  · intro member
    exact apartRear.2.2 q member q (List.mem_of_head? right) rfl

/-- A linked range of other elements is pasted into the list. -/
theorem ListSound.paste (sound : ListSound links header (front ++ back))
    (linked : links.Linked range) (distinct : (header.nodes (front ++ range ++ back)).Nodup)
    (left : (header.head :: front).getLast? = some p) (rangeHead : range.head? = some first)
    (rangeLast : range.getLast? = some last) (right : (back ++ [header.tail]).head? = some q) :
    ListSound ((links.join p first).join last q) header
      (front ++ range ++ back) := by
  have parts := sound.linked
  rw [nodes_append] at parts
  have split := Links.linked_append.mp parts
  have whole := distinct
  rw [nodes_append] at whole
  have apart := List.nodup_append.mp whole
  have inRange := List.mem_of_head? rangeHead
  have lastInRange := List.mem_of_getLast? rangeLast
  have firstNotHead : first ≠ header.head := by
    rintro rfl
    have once := (List.nodup_cons.mp apart.1).1
    exact once (List.mem_append_right front inRange)
  have lastNotTail : last ≠ header.tail := by
    intro same
    exact apart.2.2 last (by simp [lastInRange]) header.tail (by simp) same
  have leftNotTail : p ≠ header.tail := tail_ne_left sound.distinct left
  have rightNotHead : q ≠ header.head := head_ne_right sound.distinct right
  constructor
  · rw [nodes_append]
    exact split.1.paste linked split.2.1 left rangeHead rangeLast right whole
  · rw [Links.join_prev, Function.update_of_ne rightNotHead.symm]
    exact (sound.ends_join firstNotHead leftNotTail).1
  · rw [Links.join_next, Function.update_of_ne lastNotTail.symm]
    exact (sound.ends_join firstNotHead leftNotTail).2
  · exact distinct

theorem ListsSound.cut (sound : ListsSound links list contents)
    (content : contents i = front ++ range ++ back)
    (left : ((list i).head :: front).getLast? = some p)
    (right : (back ++ [(list i).tail]).head? = some q) :
    ListsSound (links.join p q) list
      (Function.update contents i (front ++ back)) := by
  have one := sound.sound i
  rw [content] at one
  have same : SameOutside ((list i).nodes (contents i)) links
      (links.join p q) := by
    rw [content]
    exact (sameOutside_self _ links).join (nodes_of_cut (left_mem_nodes left))
      (nodes_of_cut (right_mem_nodes right))
  apply sound.replace (one.cut left right) same
  · intro node member
    rw [content]
    exact nodes_of_cut member
  · intro k different
    exact sound.apart i k different.symm

theorem ListsSound.paste (sound : ListsSound links list contents)
    (content : contents i = front ++ back) (linked : links.Linked range)
    (distinct : range.Nodup) (unlisted : ∀ node ∈ range, Unlisted list contents node)
    (left : ((list i).head :: front).getLast? = some p) (rangeHead : range.head? = some first)
    (rangeLast : range.getLast? = some last) (right : (back ++ [(list i).tail]).head? = some q) :
    ListsSound ((links.join p first).join last q) list
        (Function.update contents i (front ++ range ++ back)) ∧
      SameOutside (range ++ (list i).nodes (contents i)) links
        ((links.join p first).join last q) := by
  have one := sound.sound i
  rw [content] at one
  have outside : ∀ node ∈ range, node ∉ (list i).nodes (front ++ back) := by
    intro node member
    rw [← content]
    exact unlisted node member i
  have whole : ((list i).nodes (front ++ range ++ back)).Nodup := by
    have distinctOne := one.distinct
    rw [nodes_append] at distinctOne outside
    rw [List.append_assoc, nodes_append, List.append_assoc]
    have apart := List.nodup_append.mp distinctOne
    apply List.nodup_append.mpr
    refine ⟨apart.1, ?_, ?_⟩
    · apply List.nodup_append.mpr
      refine ⟨distinct, apart.2.1, ?_⟩
      rintro node member other inBack rfl
      exact outside node member (List.mem_append_right _ inBack)
    · rintro node inFront other inRest rfl
      rcases List.mem_append.mp inRest with inRange | inBack
      · exact outside node inRange (List.mem_append_left _ inFront)
      · exact apart.2.2 node inFront node inBack rfl
  have inRange := List.mem_of_head? rangeHead
  have lastInRange := List.mem_of_getLast? rangeLast
  have leftListed : p ∈ (list i).nodes (contents i) := by
    rw [content]
    exact left_mem_nodes left
  have rightListed : q ∈ (list i).nodes (contents i) := by
    rw [content]
    exact right_mem_nodes right
  have same : SameOutside (range ++ (list i).nodes (contents i)) links
      ((links.join p first).join last q) := by
    apply SameOutside.join
    · apply (sameOutside_self _ links).join
      · exact List.mem_append_right range leftListed
      · exact List.mem_append_left _ inRange
    · exact List.mem_append_left _ lastInRange
    · exact List.mem_append_right range rightListed
  constructor
  · apply sound.replace (one.paste linked whole left rangeHead rangeLast right) same
    · intro node member
      rw [content]
      simp only [ListHeader.nodes, List.mem_append, List.mem_cons] at member ⊢
      tauto
    · intro k different node inTouched inOther
      rcases List.mem_append.mp inTouched with inRange | inList
      · exact unlisted node inRange k inOther
      · exact sound.apart i k different.symm inList inOther
  · exact same

end Joins

/-! ## The operations -/

section Operations

theorem exists_left (head : Node) (front : List Node) : ∃ p, (head :: front).getLast? = some p :=
  ⟨_, List.getLast?_eq_some_getLast (List.cons_ne_nil head front)⟩

theorem exists_right (tail : Node) (back : List Node) : ∃ q, (back ++ [tail]).head? = some q := by
  cases back with
  | nil => exact ⟨tail, rfl⟩
  | cons first rest => exact ⟨first, rfl⟩

theorem ListSound.neighbours
    (sound : ListSound links header (front ++ back))
    (left : (header.head :: front).getLast? = some p)
    (right : (back ++ [header.tail]).head? = some q) :
    links.next p = some q ∧ links.prev q = some p := by
  have linked := sound.linked
  rw [nodes_append] at linked
  exact linked.neighbours left right

theorem ListSound.begin (sound : ListSound links header elems) :
    links.next header.head = (elems ++ [header.tail]).head? := by
  rcases exists_right header.tail elems with ⟨q, right⟩
  have whole : ListSound links header ([] ++ elems) := sound
  rw [right]
  exact (whole.neighbours rfl right).1

theorem ListSound.rbegin (sound : ListSound links header elems) :
    links.prev header.tail = (header.head :: elems).getLast? := by
  rcases exists_left header.head elems with ⟨p, left⟩
  rw [left]
  have whole : ListSound links header (elems ++ []) := by
    rw [List.append_nil]
    exact sound
  exact (whole.neighbours left rfl).2

theorem ListSound.head_apart (sound : ListSound links header elems) : header.head ∉ elems := by
  have once := (List.nodup_cons.mp sound.distinct).1
  intro member
  exact once (List.mem_append_left _ member)

theorem ListSound.tail_apart (sound : ListSound links header elems) : header.tail ∉ elems := by
  have once := (List.nodup_cons.mp sound.distinct).2
  intro member
  exact (List.nodup_append.mp once).2.2 header.tail member header.tail (by simp) rfl

theorem ListSound.head_ne_tail (sound : ListSound links header elems) :
    header.head ≠ header.tail := by
  have once := (List.nodup_cons.mp sound.distinct).1
  intro same
  apply once
  rw [same]
  exact List.mem_append_right elems (List.mem_singleton_self header.tail)

theorem ListSound.not_empty [DecidableEq Node] (sound : ListSound links header elems) {elem : Node}
    (member : elem ∈ elems) : listEmpty links header = false := by
  cases elems with
  | nil => cases member
  | cons first rest =>
      have begin : links.next header.head = some first := sound.begin
      have notTail : first ≠ header.tail := by
        rintro rfl
        exact sound.tail_apart List.mem_cons_self
      simp [listEmpty, listBegin, listEnd, begin, notTail]

/-- The three assertions tell the header elements from the others. -/
theorem ListSound.isHead_head (sound : ListSound links header elems) :
    isHead links (some header.head) = true := by
  rcases exists_right header.tail elems with ⟨q, right⟩
  have first := sound.begin
  rw [right] at first
  simp [isHead, sound.headPrev, first]

theorem ListSound.isTail_tail (sound : ListSound links header elems) :
    isTail links (some header.tail) = true := by
  rcases exists_left header.head elems with ⟨p, left⟩
  have last := sound.rbegin
  rw [left] at last
  simp [isTail, sound.tailNext, last]

theorem ListSound.isInterior_of_mem (sound : ListSound links header elems)
    {elem : Node} (member : elem ∈ elems) :
    isInterior links (some elem) = true := by
  rcases List.append_of_mem member with ⟨front, back, rfl⟩
  rcases exists_left header.head front with ⟨p, left⟩
  rcases exists_right header.tail back with ⟨q, right⟩
  have before := sound.neighbours left rfl
  have split : ListSound links header ((front ++ [elem]) ++ back) := by
    rw [List.append_assoc]
    exact sound
  have last : (header.head :: (front ++ [elem])).getLast? = some elem := by
    rw [← List.cons_append, List.getLast?_concat]
  have after := split.neighbours last right
  exact isInterior_of_neighbours before.2 after.1

variable [DecidableEq Node]

/-- What an operation leaves behind: the lists have new sequences, and only the
links of certain elements have changed. -/
structure ListsBecome (links : Links Node) (list : Index → ListHeader Node)
    (touched : List Node) (contents : Index → List Node) (after : Links Node) : Prop where
  sound : ListsSound after list contents
  same : SameOutside touched links after

theorem listInsert_becomes (sound : ListsSound links list contents)
    (content : contents i = front ++ back) {elem : Node} (unlisted : Unlisted list contents elem) :
    ∃ after,
      listInsert links (back ++ [(list i).tail]).head? (some elem) = some after ∧
      ListsBecome links list (elem :: (list i).nodes (contents i))
        (Function.update contents i (front ++ elem :: back)) after := by
  have one := sound.sound i
  rw [content] at one
  rcases exists_left (list i).head front with ⟨p, left⟩
  rcases exists_right (list i).tail back with ⟨q, right⟩
  have outside : elem ∉ (list i).nodes (front ++ back) := by
    rw [← content]
    exact unlisted i
  have notPrev : elem ≠ p := fun same =>
    outside (same ▸ left_mem_nodes left)
  have notBefore : elem ≠ q := fun same =>
    outside (same ▸ right_mem_nodes right)
  have pasted := sound.paste content (Links.Linked.singleton elem)
    (List.nodup_singleton elem)
    (by simpa using unlisted) left rfl rfl right
  rw [List.append_assoc] at pasted
  refine ⟨_, ?_, pasted.1, pasted.2⟩
  rw [right]
  exact listInsert_eq (one.neighbours left right).2 notBefore notPrev

theorem listRemove_becomes (sound : ListsSound links list contents)
    {elem : Node} (content : contents i = front ++ elem :: back) :
    ∃ after,
      listRemove links (some elem) = some (after, (back ++ [(list i).tail]).head?) ∧
      ListsBecome links list ((list i).nodes (contents i))
        (Function.update contents i (front ++ back)) after := by
  have split : contents i = front ++ [elem] ++ back := by
    rw [content, List.append_assoc]
    rfl
  have one := sound.sound i
  rw [split] at one
  rcases exists_left (list i).head front with ⟨p, left⟩
  rcases exists_right (list i).tail back with ⟨q, right⟩
  have last : ((list i).head :: (front ++ [elem])).getLast? = some elem := by
    rw [← List.cons_append, List.getLast?_concat]
  have after := one.neighbours last right
  have before : links.next p = some elem ∧ links.prev elem = some p := by
    rw [List.append_assoc] at one
    exact one.neighbours left rfl
  have notPrev : elem ≠ p := by
    rintro rfl
    apply sound.unlisted_of_cut split (List.mem_singleton_self elem) i
    rw [Function.update_self]
    exact left_mem_nodes left
  have touched : SameOutside ((list i).nodes (contents i)) links
      (links.join p q) := by
    rw [split]
    exact (sameOutside_self _ links).join (nodes_of_cut (left_mem_nodes left))
      (nodes_of_cut (right_mem_nodes right))
  refine ⟨_, ?_, sound.cut split left right, touched⟩
  rw [right]
  exact listRemove_eq before.2 after.1 notPrev

theorem listSplice_self {before : Option Node} (elem : Option Node)
    (follow : (isInterior links before || isTail links before) = true) :
    listSplice links before elem elem = some links := by
  rw [listSplice, if_pos follow, if_pos rfl]

/-- A range moves within a list or from one list to another. -/
theorem listSplice_becomes (sound : ListsSound links list contents)
    {j : Index} {before after : List Node} (content : contents i = front ++ range ++ back)
    (target : Function.update contents i (front ++ back) j = before ++ after) :
    ∃ links',
      listSplice links (after ++ [(list j).tail]).head?
          (range ++ (back ++ [(list i).tail])).head?
          (back ++ [(list i).tail]).head? = some links' ∧
      ListsBecome links list
        ((list i).nodes (contents i) ++ (list j).nodes (contents j))
        (Function.update (Function.update contents i (front ++ back)) j
          (before ++ range ++ after)) links' := by
  rcases exists_left (list j).head before with ⟨r, leftTarget⟩
  rcases exists_right (list j).tail after with ⟨b, rightTarget⟩
  cases range with
  | nil =>
      have unchanged : Function.update contents i (front ++ back) = contents := by
        rw [List.append_nil] at content
        rw [← content, Function.update_eq_self]
      rw [unchanged] at target ⊢
      have there := sound.sound j
      rw [target] at there
      have around := there.neighbours leftTarget rightTarget
      rw [List.append_nil, ← target, Function.update_eq_self]
      refine ⟨links, ?_, sound, sameOutside_self _ links⟩
      rw [rightTarget]
      exact listSplice_self _ (canFollow_of_prev around.2)
  | cons first rest =>
      rcases exists_left first rest with ⟨last, rangeLast⟩
      have firstMember : first ∈ first :: rest := List.mem_cons_self
      have lastMember := List.mem_of_getLast? rangeLast
      rcases exists_left (list i).head front with ⟨p, left⟩
      rcases exists_right (list i).tail back with ⟨q, right⟩
      have one := sound.sound i
      rw [content] at one
      have removed := sound.cut content left right
      have there := removed.sound j
      rw [target] at there
      have around := there.neighbours leftTarget rightTarget
      have gone : ∀ node ∈ first :: rest,
          Unlisted list (Function.update contents i (front ++ back)) node :=
        fun node member => sound.unlisted_of_cut content member
      have firstPrev : links.prev first = some p := by
        have split := one
        rw [List.append_assoc] at split
        exact (split.neighbours left rfl).2
      have rangeEnd : ((list i).head :: (front ++ first :: rest)).getLast? = some last := by
        rw [← List.cons_append, List.getLast?_append, rangeLast]
        rfl
      have lastNext := one.neighbours rangeEnd right
      have interior : ∀ node ∈ first :: rest, isInterior links (some node) = true := by
        intro node member
        apply one.isInterior_of_mem
        exact List.mem_append_left _ (List.mem_append_right _ member)
      have nonempty : first ≠ q := by
        rintro rfl
        apply gone first firstMember i
        rw [Function.update_self]
        exact right_mem_nodes right
      have lastOutside : last ≠ p := by
        rintro rfl
        apply gone last lastMember i
        rw [Function.update_self]
        exact left_mem_nodes left
      have notFirst : b ≠ first := by
        rintro rfl
        apply gone b firstMember j
        rw [target]
        exact right_mem_nodes rightTarget
      have notLast : last ≠ r := by
        rintro rfl
        apply gone last lastMember j
        rw [target]
        exact left_mem_nodes leftTarget
      have spliced := listSplice_eq firstPrev (interior first firstMember)
        lastNext.1 lastNext.2 (interior last lastMember) around.2 nonempty
        lastOutside notFirst notLast
      have rangeDistinct : (first :: rest).Nodup := by
        apply List.Nodup.sublist _ one.distinct
        apply List.sublist_append_of_sublist_left
        apply List.sublist_cons_of_sublist
        apply List.sublist_append_of_sublist_left
        exact List.sublist_append_right front (first :: rest)
      have pasted := removed.paste target (one.cut_range left right)
        rangeDistinct gone leftTarget rfl rangeLast rightTarget
      have moved : ∀ node ∈ first :: rest,
          node ∈ (list i).nodes (contents i) ++
            (list j).nodes (contents j) := by
        intro node member
        apply List.mem_append_left
        rw [content]
        exact range_mem_nodes member
      have touched : ∀ node,
          node ∈ (list j).nodes (Function.update contents i (front ++ back) j) →
          node ∈ (list i).nodes (contents i) ++ (list j).nodes (contents j) :=
        fun node => touched_of_cut content
      have neighbour : ∀ node, node ∈ (list i).nodes (front ++ back) →
          node ∈ (list i).nodes (contents i) ++ (list j).nodes (contents j) := by
        intro node member
        apply List.mem_append_left
        rw [content]
        exact nodes_of_cut member
      rw [target] at touched
      refine ⟨_, ?_, pasted.1, ?_⟩
      · rw [rightTarget, right]
        exact spliced
      · apply SameOutside.join
        · apply SameOutside.join
          · apply (sameOutside_self _ links).join
            · exact neighbour p (left_mem_nodes left)
            · exact neighbour q (right_mem_nodes right)
          · exact touched r (left_mem_nodes leftTarget)
          · exact moved first firstMember
        · exact moved last lastMember
        · exact touched b (right_mem_nodes rightTarget)

theorem reverseLoop_eq {rest : List Node} {fuel : Nat}
    (linked : links.Linked (rest ++ [header.tail]))
    (distinct : (rest ++ [header.tail]).Nodup) (enough : rest.length < fuel) :
    reverseLoop header fuel links (rest ++ [header.tail]).head? = some (links.exchange rest) := by
  induction rest generalizing links fuel with
  | nil =>
      cases fuel with
      | zero => simp at enough
      | succ fuel => simp [reverseLoop, listEnd, Links.exchange]
  | cons elem rest inductionHypothesis =>
      cases fuel with
      | zero => simp at enough
      | succ fuel =>
          rw [List.cons_append] at linked distinct
          rw [List.length_cons] at enough
          have once := List.nodup_cons.mp distinct
          have notTail : elem ≠ header.tail := by
            rintro rfl
            exact once.1 (by simp)
          have absent : elem ∉ rest := fun member =>
            once.1 (List.mem_append_left _ member)
          have split : links.Linked ([elem] ++ (rest ++ [header.tail])) := linked
          have following : links.next elem = (rest ++ [header.tail]).head? := by
            rcases exists_right header.tail rest with ⟨q, right⟩
            rw [right]
            exact (split.neighbours rfl right).1
          have step : reverseLoop header (fuel + 1) links (some elem) =
              reverseLoop header fuel
                ((links.setPrev elem (links.next elem)).setNext elem
                  (links.prev elem)) (rest ++ [header.tail]).head? := by
            simp [reverseLoop, listEnd, notTail, swap_eq, readPrev, following]
          rw [List.cons_append, List.head?_cons, step, inductionHypothesis,
            Links.exchange_cons absent]
          · apply (Links.linked_append.mp split).2.1.congr
            · intro node member
              have listed := List.dropLast_subset _ member
              rw [Links.setNext_next, Links.setPrev_next, Function.update_of_ne]
              rintro rfl
              exact once.1 listed
            · intro node member
              rw [Links.setNext_prev, Links.setPrev_prev, Function.update_of_ne]
              rintro rfl
              exact once.1 (List.mem_of_mem_tail member)
          · exact once.2
          · omega

/-- The reversal of a list that has elements: the loop and two exchanges at the
ends join the reversed elements to the header elements. -/
theorem listReverse_eq {fuel : Nat} {first last : Node}
    (sound : ListSound links header elems) (enough : elems.length < fuel)
    (head : elems.head? = some first) (final : elems.getLast? = some last) :
    listReverse fuel links header =
      some (((links.exchange elems).join header.head last).join first
        header.tail) := by
  have firstMember := List.mem_of_head? head
  have lastMember := List.mem_of_getLast? final
  have distinct := (List.nodup_cons.mp sound.distinct).2
  have headApart := sound.head_apart
  have tailApart := sound.tail_apart
  have firstNotHead : first ≠ header.head := fun same =>
    headApart (same ▸ firstMember)
  have lastNotTail : last ≠ header.tail := fun same =>
    tailApart (same ▸ lastMember)
  have right : (elems ++ [header.tail]).head? = some first := by
    rw [List.head?_append, head]
    rfl
  have left : (header.head :: elems).getLast? = some last := by
    rw [List.getLast?_cons, final]
    rfl
  have front : ListSound links header ([] ++ elems) := sound
  have back : ListSound links header (elems ++ []) := by
    rw [List.append_nil]
    exact sound
  have entry : links.next header.head = some first ∧
      links.prev first = some header.head := front.neighbours rfl right
  have exit : links.next last = some header.tail ∧
      links.prev header.tail = some last := back.neighbours left rfl
  have inner : links.Linked (elems ++ [header.tail]) := by
    have split : links.Linked ([header.head] ++ (elems ++ [header.tail])) := sound.linked
    exact (Links.linked_append.mp split).2.1
  have loop := reverseLoop_eq inner distinct enough
  rw [right] at loop
  have notEmpty := sound.not_empty firstMember
  have atHead := Links.exchange_of_not_mem links headApart
  have atTail := Links.exchange_of_not_mem links tailApart
  have atFirst := Links.exchange_of_mem links firstMember
  have atLast := Links.exchange_of_mem links lastMember
  rw [listReverse, notEmpty, listBegin, entry.1, loop]
  simp only [Bool.false_eq_true, if_false, Option.bind_eq_bind,
    Option.bind_some, swap_eq, Links.setNext_next, Links.setPrev_next,
    Links.setNext_prev, Links.setPrev_prev, Function.update_self, atHead.1,
    atTail.2, entry.1, exit.2, Function.update_of_ne firstNotHead,
    Function.update_of_ne lastNotTail, atFirst.1, atLast.2, entry.2, exit.1]
  congr 1
  ext1
  · simp
  · simp [Function.update_comm lastNotTail]

theorem reverse_sound {first last : Node}
    (sound : ListSound links header elems) (head : elems.head? = some first)
    (final : elems.getLast? = some last) :
    ListSound (((links.exchange elems).join header.head last).join first
      header.tail) header elems.reverse := by
  have distinct : (header.nodes elems.reverse).Nodup := by
    apply List.Perm.nodup _ sound.distinct
    apply List.Perm.append_right
    apply List.Perm.cons
    exact (List.reverse_perm elems).symm
  have headApart := sound.head_apart
  have tailApart := sound.tail_apart
  have headNotTail := sound.head_ne_tail
  have turned : (links.exchange elems).Linked elems.reverse := by
    have inner := sound.linked
    rw [← List.nil_append elems, nodes_append] at inner
    have parts := Links.linked_append.mp (Links.linked_append.mp inner).2.1
    apply parts.1.reverse
    · intro node member
      exact (Links.exchange_of_mem links member).1
    · intro node member
      exact (Links.exchange_of_mem links member).2
  constructor
  · apply (Links.Linked.singleton header.head).paste turned
      (Links.Linked.singleton header.tail) rfl _ _ rfl distinct
    · rw [List.head?_reverse, final]
    · rw [List.getLast?_reverse, head]
  · rw [Links.join_prev, Links.join_prev, Function.update_of_ne headNotTail, Function.update_of_ne,
      (Links.exchange_of_not_mem links headApart).2, sound.headPrev]
    rintro rfl
    exact headApart (List.mem_of_getLast? final)
  · rw [Links.join_next, Links.join_next, Function.update_of_ne,
      Function.update_of_ne headNotTail.symm,
      (Links.exchange_of_not_mem links tailApart).1, sound.tailNext]
    rintro rfl
    exact tailApart (List.mem_of_head? head)
  · exact distinct

theorem listReverse_becomes (sound : ListsSound links list contents)
    {fuel : Nat} (enough : (contents i).length < fuel) :
    ∃ links',
      listReverse fuel links (list i) = some links' ∧
      ListsBecome links list ((list i).nodes (contents i))
        (Function.update contents i (contents i).reverse) links' := by
  have one := sound.sound i
  cases content : contents i with
  | nil =>
      have begin := one.begin
      rw [content] at begin
      refine ⟨links, ?_, ?_, sameOutside_self _ links⟩
      · simp [listReverse, listEmpty, listBegin, listEnd, begin]
      · rw [List.reverse_nil, ← content, Function.update_eq_self]
        exact sound
  | cons first rest =>
      rw [← content]
      have head : (contents i).head? = some first := by rw [content]; rfl
      rcases exists_left first rest with ⟨last, final⟩
      rw [← content] at final
      have reversed := listReverse_eq one enough head final
      have turned := reverse_sound one head final
      have inList : ∀ node ∈ contents i, node ∈ (list i).nodes (contents i) :=
        fun node member =>
          List.mem_append_left _ (List.mem_cons_of_mem _ member)
      have headIn : (list i).head ∈ (list i).nodes (contents i) := by
        simp [ListHeader.nodes]
      have tailIn : (list i).tail ∈ (list i).nodes (contents i) := by
        simp [ListHeader.nodes]
      have firstIn := inList first (List.mem_of_head? head)
      have lastIn := inList last (List.mem_of_getLast? final)
      have exchanged : SameOutside ((list i).nodes (contents i)) links
          (links.exchange (contents i)) := by
        intro node outside
        apply Links.exchange_of_not_mem
        intro member
        exact outside (inList node member)
      have same := (exchanged.join headIn lastIn).join firstIn tailIn
      refine ⟨_, reversed, ?_, same⟩
      apply sound.replace turned same
      · intro node member
        simp only [ListHeader.nodes, List.mem_append, List.mem_cons, List.mem_reverse] at member ⊢
        exact member
      · intro k different
        exact sound.apart i k different.symm

end Operations

/-- A list that is made empty, of two header elements no list has. -/
theorem listInit_sound [DecidableEq Node] {list : ListHeader Node}
    (different : list.head ≠ list.tail) :
    ListSound (listInit links list) list [] ∧
      SameOutside [list.head, list.tail] links (listInit links list) := by
  have linked : (listInit links list).Linked [list.head, list.tail] := by
    apply List.isChain_pair.mpr
    simp [listInit, different]
  constructor
  · constructor
    · exact linked
    · simp [listInit, different]
    · simp [listInit]
    · simp [ListHeader.nodes, different]
  · intro node outside
    have apart : node ≠ list.head ∧ node ≠ list.tail := by
      simpa using outside
    simp [listInit, apart.1, apart.2]

/-! ## The guarantee -/

/-- What holds of every heap of disjoint lists. -/
structure ListGuarantee [DecidableEq Node]
    (links : Links Node) (list : Index → ListHeader Node)
    (contents : Index → List Node) : Prop where
  isHead : ∀ i, isHead links (some (list i).head) = true
  isInterior : ∀ i, ∀ elem ∈ contents i, isInterior links (some elem) = true
  isTail : ∀ i, isTail links (some (list i).tail) = true
  insert : ∀ i front back elem, contents i = front ++ back →
    Unlisted list contents elem →
    ∃ links',
      listInsert links (back ++ [(list i).tail]).head? (some elem) = some links' ∧
      ListsBecome links list (elem :: (list i).nodes (contents i))
        (Function.update contents i (front ++ elem :: back)) links'
  pushFront : ∀ i elem, Unlisted list contents elem →
    ∃ links',
      listPushFront links (list i) (some elem) = some links' ∧
      ListsBecome links list (elem :: (list i).nodes (contents i))
        (Function.update contents i (elem :: contents i)) links'
  pushBack : ∀ i elem, Unlisted list contents elem →
    ∃ links',
      listPushBack links (list i) (some elem) = some links' ∧
      ListsBecome links list (elem :: (list i).nodes (contents i))
        (Function.update contents i (contents i ++ [elem])) links'
  remove : ∀ i front elem back, contents i = front ++ elem :: back →
    ∃ links',
      listRemove links (some elem) = some (links', (back ++ [(list i).tail]).head?) ∧
      ListsBecome links list ((list i).nodes (contents i))
        (Function.update contents i (front ++ back)) links'
  popFront : ∀ i elem rest, contents i = elem :: rest →
    ∃ links',
      listPopFront links (list i) = some (links', some elem) ∧
      ListsBecome links list ((list i).nodes (contents i)) (Function.update contents i rest) links'
  popBack : ∀ i front elem, contents i = front ++ [elem] →
    ∃ links',
      listPopBack links (list i) = some (links', some elem) ∧
      ListsBecome links list ((list i).nodes (contents i)) (Function.update contents i front) links'
  splice : ∀ i j front range back before after,
    contents i = front ++ range ++ back →
    Function.update contents i (front ++ back) j = before ++ after →
    ∃ links',
      listSplice links (after ++ [(list j).tail]).head?
          (range ++ (back ++ [(list i).tail])).head?
          (back ++ [(list i).tail]).head? = some links' ∧
      ListsBecome links list
        ((list i).nodes (contents i) ++ (list j).nodes (contents j))
        (Function.update (Function.update contents i (front ++ back)) j
          (before ++ range ++ after)) links'
  reverse : ∀ i fuel, (contents i).length < fuel →
    ∃ links',
      listReverse fuel links (list i) = some links' ∧
      ListsBecome links list ((list i).nodes (contents i))
        (Function.update contents i (contents i).reverse) links'

section Guarantee

variable [DecidableEq Node] {elem : Node}

theorem listPushFront_becomes (sound : ListsSound links list contents)
    (unlisted : Unlisted list contents elem) :
    ∃ links',
      listPushFront links (list i) (some elem) = some links' ∧
      ListsBecome links list (elem :: (list i).nodes (contents i))
        (Function.update contents i (elem :: contents i)) links' := by
  have inserted := listInsert_becomes sound (List.nil_append (contents i)).symm unlisted
  rw [← (sound.sound i).begin, List.nil_append] at inserted
  exact inserted

theorem listPushBack_becomes (sound : ListsSound links list contents)
    (unlisted : Unlisted list contents elem) :
    ∃ links',
      listPushBack links (list i) (some elem) = some links' ∧
      ListsBecome links list (elem :: (list i).nodes (contents i))
        (Function.update contents i (contents i ++ [elem])) links' :=
  listInsert_becomes sound (List.append_nil (contents i)).symm unlisted

theorem listPopFront_becomes (sound : ListsSound links list contents)
    {rest : List Node} (content : contents i = elem :: rest) :
    ∃ links',
      listPopFront links (list i) = some (links', some elem) ∧
      ListsBecome links list ((list i).nodes (contents i))
        (Function.update contents i rest) links' := by
  have one := sound.sound i
  rw [content] at one
  have first : links.next (list i).head = some elem := one.begin
  have notEmpty := one.not_empty List.mem_cons_self
  have front : listFront links (list i) = some (some elem) := by
    simp [listFront, notEmpty, first]
  have split : contents i = [] ++ elem :: rest := content
  rcases listRemove_becomes sound split with ⟨links', removed, become⟩
  refine ⟨links', ?_, become⟩
  rw [listPopFront, front, Option.bind_eq_bind, Option.bind_some, removed]
  rfl

theorem listPopBack_becomes (sound : ListsSound links list contents)
    {front : List Node} (content : contents i = front ++ [elem]) :
    ∃ links',
      listPopBack links (list i) = some (links', some elem) ∧
      ListsBecome links list ((list i).nodes (contents i))
        (Function.update contents i front) links' := by
  have one := sound.sound i
  rw [content] at one
  have last : links.prev (list i).tail = some elem := by
    rw [one.rbegin, ← List.cons_append, List.getLast?_concat]
  have notEmpty := one.not_empty (List.mem_append_right front List.mem_cons_self)
  have back : listBack links (list i) = some (some elem) := by
    simp [listBack, notEmpty, last]
  rcases listRemove_becomes sound content with ⟨links', removed, become⟩
  rw [List.append_nil] at become
  refine ⟨links', ?_, become⟩
  rw [listPopBack, back, Option.bind_eq_bind, Option.bind_some, removed]
  rfl

theorem lists_represent_sequences (sound : ListsSound links list contents) :
    ListGuarantee links list contents where
  isHead i := (sound.sound i).isHead_head
  isInterior i _ member := (sound.sound i).isInterior_of_mem member
  isTail i := (sound.sound i).isTail_tail
  insert _ _ _ _ content unlisted := listInsert_becomes sound content unlisted
  pushFront _ _ unlisted := listPushFront_becomes sound unlisted
  pushBack _ _ unlisted := listPushBack_becomes sound unlisted
  remove _ _ _ _ content := listRemove_becomes sound content
  popFront _ _ _ content := listPopFront_becomes sound content
  popBack _ _ _ content := listPopBack_becomes sound content
  splice _ _ _ _ _ _ _ content target := listSplice_becomes sound content target
  reverse _ _ enough := listReverse_becomes sound enough

end Guarantee

/-- Two lists with the header elements 0, 1 and 2, 3. -/
def twoHeaders (second : Bool) : ListHeader Nat :=
  if second then ⟨2, 3⟩ else ⟨0, 1⟩

/-- The first list has three elements and the second has one. -/
def twoLists : Links Nat where
  next node := [some 4, none, some 7, none, some 5, some 6, some 1, some 3].getD node none
  prev node := [none, some 6, none, some 7, some 0, some 4, some 5, some 2].getD node none

theorem twoLists_sound :
    ListsSound twoLists twoHeaders
      fun second => if second then [7] else [4, 5, 6] := by
  constructor
  · intro second
    constructor
    · cases second <;> simp [twoLists, twoHeaders, Links.Linked, ListHeader.nodes]
    · cases second <;> rfl
    · cases second <;> rfl
    · cases second <;> decide
  · intro first second different
    cases first <;> cases second <;>
      first
      | exact (different rfl).elim
      | simp [List.Disjoint, twoHeaders, ListHeader.nodes]

theorem lists_represent_sequences_two :
    ListGuarantee twoLists twoHeaders
      fun second => if second then [7] else [4, 5, 6] :=
  lists_represent_sequences twoLists_sound

end CS162.Kernel.LinkedList

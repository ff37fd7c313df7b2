import CS162.Kernel.HashSet
import CS162.Kernel.ListOrdering

/-!
# Iterating over a hash table

`hash_apply` and the iterator of `lib/kernel/hash.c`, on the links of the list
elements in the buckets.  A `struct hash_elem` begins with its `struct list_elem`, so
the conversion between pointers to them changes no pointer, be it to an element or to
a header element of a list.
-/

namespace CS162.Kernel

open CS162.Foundation LinkedList

variable {Elem : Type}

/-- What a pointer to a list element can point to: a header element of a bucket, or an
element of the table. -/
inductive BucketNode (Elem : Type) where
  | head (bucket : Nat)
  | elem (e : Elem)
  | tail (bucket : Nat)
  deriving DecidableEq

/-- `&h->buckets[bucket]` -/
def bucketList (bucket : Nat) : ListHeader (BucketNode Elem) where
  head := .head bucket
  tail := .tail bucket

/-- The links represent the buckets of the table. -/
def Represents (links : Links (BucketNode Elem)) (h : HashTable Elem) : Prop :=
  ∀ bucket elems, h.buckets[bucket]? = some elems →
    ListSound links (bucketList bucket) (elems.map .elem)

/-- `struct hash_iterator`, with the index of its bucket. -/
structure HashIterator (Elem : Type) where
  bucket : Nat
  elem : Option (BucketNode Elem)

/-- `hash_first`. -/
def hashFirst : HashIterator Elem where
  bucket := 0
  elem := some (.head 0)

/-- `hash_cur`. -/
def hashCur (i : HashIterator Elem) : Option (BucketNode Elem) := i.elem

section Code

variable [DecidableEq Elem] (links : Links (BucketNode Elem)) (h : HashTable Elem)

/-- The loop of `hash_next`. -/
def skipBuckets (i : HashIterator Elem) : HashIterator Elem :=
  if i.elem = listEnd (bucketList i.bucket) then
    if h.bucketCnt ≤ i.bucket + 1 then { bucket := i.bucket + 1, elem := none }
    else
      skipBuckets
        { bucket := i.bucket + 1
          elem := listBegin links (bucketList (i.bucket + 1)) }
  else i
termination_by h.bucketCnt - i.bucket

/-- `hash_next`, with what it returns. -/
def hashNext (i : HashIterator Elem) : Option (HashIterator Elem × Option (BucketNode Elem)) :=
  (listNext links i.elem).map fun elem =>
    let i := skipBuckets links h { i with elem := elem }
    (i, hashCur i)

/-- Calls of `hash_next` one after another. -/
def hashNexts : Nat → HashIterator Elem →
    Option (HashIterator Elem × List (Option (BucketNode Elem)))
  | 0, i => some (i, [])
  | calls + 1, i =>
      (hashNext links h i).bind fun first =>
        (hashNexts calls first.1).map fun rest => (rest.1, first.2 :: rest.2)

/-- The inner loop of `hash_apply`: the elements that the action is called for. -/
def applyBucket (bucket : Nat) : Nat → Option (BucketNode Elem) → Option (List (BucketNode Elem))
  | 0, _ => none
  | fuel + 1, elem =>
      if elem = listEnd (bucketList bucket) then some []
      else
        (listNext links elem).bind fun next =>
          elem.bind fun node => (applyBucket bucket fuel next).map (node :: ·)

/-- The outer loop of `hash_apply`, for a number of buckets from an index on. -/
def applyBuckets (fuel bucket : Nat) : Nat → Option (List (BucketNode Elem))
  | 0 => some []
  | buckets + 1 =>
      (applyBucket links bucket fuel (listBegin links (bucketList bucket))).bind
        fun here => (applyBuckets fuel (bucket + 1) buckets).map (here ++ ·)

/-- `hash_apply`. -/
def hashApply (fuel : Nat) : Option (List (BucketNode Elem)) :=
  applyBuckets links fuel 0 h.bucketCnt

end Code

/-! ## The elements that are left -/

/-- The iterator stands in front of these elements: of the rest of its bucket and of
all later buckets. -/
structure InFrontOf (links : Links (BucketNode Elem)) (h : HashTable Elem)
    (i : HashIterator Elem) (elems : List Elem) : Prop where
  split : ∃ before front rest after,
    h.buckets = before ++ (front ++ rest) :: after ∧ i.bucket = before.length ∧
      listNext links i.elem = some (pointerTo (bucketList i.bucket) (rest.map .elem)) ∧
        elems = rest ++ after.flatten

section Steps

variable {links : Links (BucketNode Elem)} {h : HashTable Elem}
variable {before after : List (List Elem)} {whole front rest : List Elem}

theorem Represents.bucket (represents : Represents links h)
    (split : h.buckets = before ++ whole :: after) :
    ListSound links (bucketList before.length) (whole.map .elem) := by
  apply represents
  rw [split, List.getElem?_append_right (Nat.le_refl _), Nat.sub_self]
  rfl

theorem bucketCnt_of_split (split : h.buckets = before ++ whole :: after) :
    h.bucketCnt = before.length + 1 + after.length := by
  rw [← h.sized, split, List.length_append, List.length_cons]
  omega

/-- The link of an element goes to the rest of its bucket. -/
theorem Represents.listNext_elem (represents : Represents links h) {e : Elem}
    (split : h.buckets = before ++ (front ++ e :: rest) :: after) :
    listNext links (some (.elem e)) =
      some (pointerTo (bucketList before.length) (rest.map .elem)) := by
  apply (represents.bucket split).listNext_eq
  rw [List.map_append, List.map_cons]

/-- The list of a bucket begins with its first element. -/
theorem Represents.listBegin_eq (represents : Represents links h)
    (split : h.buckets = before ++ whole :: after) :
    listBegin links (bucketList before.length) =
      pointerTo (bucketList before.length) (whole.map .elem) :=
  (represents.bucket split).begin

/-- An iterator whose pointer has gone to the rest of its bucket. -/
def place (before : List (List Elem)) (rest : List Elem) : HashIterator Elem where
  bucket := before.length
  elem := pointerTo (bucketList before.length) (rest.map .elem)

theorem place_end (before : List (List Elem)) :
    (place before []).elem = listEnd (bucketList (place before []).bucket) :=
  rfl

/-- An iterator at an element is in front of what comes behind it. -/
theorem inFrontOf_place (represents : Represents links h) {e : Elem}
    (split : h.buckets = before ++ (front ++ e :: rest) :: after) :
    InFrontOf links h (place before (e :: rest)) (rest ++ after.flatten) := by
  refine ⟨before, front ++ [e], rest, after, ?_, rfl, ?_, rfl⟩
  · rw [List.append_assoc]
    exact split
  · exact represents.listNext_elem split

/-- `hash_first` stands in front of all elements. -/
theorem inFrontOf_hashFirst (represents : Represents links h)
    (positive : 0 < h.bucketCnt) : InFrontOf links h hashFirst h.buckets.flatten := by
  cases buckets : h.buckets with
  | nil =>
      rw [← h.sized, buckets] at positive
      exact absurd positive (Nat.lt_irrefl 0)
  | cons first after =>
      have split : h.buckets = [] ++ first :: after := buckets
      have sound := represents.bucket split
      have isHead : isHead links (some (.head 0)) = true := sound.isHead_head
      refine ⟨[], [], first, after, buckets, rfl, ?_, rfl⟩
      rw [hashFirst, listNext, isHead, Bool.true_or, if_pos rfl]
      exact congrArg some sound.begin

variable [DecidableEq Elem]

/-- At an element the loop stops. -/
theorem skipBuckets_elem (before : List (List Elem)) (e : Elem) (rest : List Elem) :
    skipBuckets links h (place before (e :: rest)) = place before (e :: rest) := by
  have notEnd : (place before (e :: rest)).elem ≠
      listEnd (bucketList (place before (e :: rest)).bucket) := by
    intro same
    cases same
  rw [skipBuckets, if_neg notEnd]

/-- At the end of a bucket it goes on to the next one. -/
theorem skipBuckets_end (represents : Represents links h)
    {next : List Elem} (split : h.buckets = before ++ whole :: next :: after) :
    skipBuckets links h (place before []) =
      skipBuckets links h (place (before ++ [whole]) next) := by
  have more : ¬h.bucketCnt ≤ (place before ([] : List Elem)).bucket + 1 := by
    rw [bucketCnt_of_split split, List.length_cons]
    change ¬before.length + 1 + (after.length + 1) ≤ before.length + 1
    omega
  have regrouped : h.buckets = (before ++ [whole]) ++ next :: after := by
    rw [split, List.append_assoc]
    rfl
  have start := represents.listBegin_eq regrouped
  rw [List.length_append, List.length_singleton] at start
  rw [skipBuckets, if_pos (place_end before), if_neg more]
  change skipBuckets links h
    { bucket := before.length + 1
      elem := listBegin links (bucketList (before.length + 1)) } = _
  rw [start, place, List.length_append, List.length_singleton]

/-- Behind the last bucket it stops with a null pointer. -/
theorem skipBuckets_last (split : h.buckets = before ++ [whole]) :
    (skipBuckets links h (place before [])).elem = none := by
  have last : h.bucketCnt ≤ (place before ([] : List Elem)).bucket + 1 := by
    rw [bucketCnt_of_split split]
    exact Nat.le_refl _
  rw [skipBuckets, if_pos (place_end before), if_pos last]

/-- When no element is left, the loop stops with a null pointer. -/
theorem skipBuckets_none (represents : Represents links h)
    (split : h.buckets = before ++ whole :: after) (none_left : after.flatten = []) :
    (skipBuckets links h (place before [])).elem = none := by
  induction after generalizing before whole with
  | nil => exact skipBuckets_last split
  | cons next after inductionHypothesis =>
      rw [List.flatten_cons, List.append_eq_nil_iff] at none_left
      rcases none_left with ⟨rfl, none_later⟩
      have regrouped : h.buckets = (before ++ [whole]) ++ [] :: after := by
        rw [split, List.append_assoc]
        rfl
      rw [skipBuckets_end represents split]
      exact inductionHypothesis regrouped none_later

/-- The loop stops at the first element that is left. -/
theorem skipBuckets_some (represents : Represents links h) {e : Elem}
    {more : List Elem} (split : h.buckets = before ++ (front ++ rest) :: after)
    (left : rest ++ after.flatten = e :: more) :
    (skipBuckets links h (place before rest)).elem = some (.elem e) ∧
      InFrontOf links h (skipBuckets links h (place before rest)) more := by
  induction after generalizing before front rest with
  | nil =>
      rw [List.flatten_nil, List.append_nil] at left
      rw [left] at split ⊢
      have ahead := inFrontOf_place represents split
      rw [List.flatten_nil, List.append_nil] at ahead
      rw [skipBuckets_elem]
      exact ⟨rfl, ahead⟩
  | cons next after inductionHypothesis =>
      cases rest with
      | nil =>
          have regrouped : h.buckets = (before ++ [front ++ []]) ++ ([] ++ next) :: after := by
            rw [split, List.append_assoc]
            rfl
          rw [List.nil_append, List.flatten_cons] at left
          rw [skipBuckets_end represents split]
          exact inductionHypothesis regrouped left
      | cons first rest =>
          rw [List.cons_append] at left
          rcases List.cons.inj left with ⟨rfl, rfl⟩
          rw [skipBuckets_elem]
          exact ⟨rfl, inFrontOf_place represents split⟩

variable {i : HashIterator Elem} {elems : List Elem}

/-- `hash_next` in front of no element returns a null pointer. -/
theorem hashNext_none (represents : Represents links h) (ahead : InFrontOf links h i []) :
    ∃ last, hashNext links h i = some (last, none) := by
  rcases ahead.split with ⟨before, front, rest, after, split, bucket, next, left⟩
  rcases List.append_eq_nil_iff.mp left.symm with ⟨rfl, none_left⟩
  have stopped := skipBuckets_none represents split none_left
  refine ⟨skipBuckets links h (place before []), ?_⟩
  rw [hashNext, next, Option.map_some, bucket]
  exact congrArg some (Prod.ext rfl stopped)

/-- `hash_next` returns the first element that is left. -/
theorem hashNext_some (represents : Represents links h) {e : Elem} {more : List Elem}
    (ahead : InFrontOf links h i (e :: more)) :
    ∃ after, hashNext links h i = some (after, some (.elem e)) ∧
      InFrontOf links h after more := by
  rcases ahead.split with ⟨before, front, rest, after, split, bucket, next, left⟩
  rcases skipBuckets_some represents split left.symm with ⟨here, later⟩
  refine ⟨skipBuckets links h (place before rest), ?_, later⟩
  rw [hashNext, next, Option.map_some, bucket]
  exact congrArg some (Prod.ext rfl here)

/-- The calls of `hash_next` return the elements one after another, and then a null
pointer. -/
theorem hashNexts_eq (represents : Represents links h) (ahead : InFrontOf links h i elems) :
    ∃ last, hashNexts links h (elems.length + 1) i =
      some (last, elems.map (fun e => some (.elem e)) ++ [none]) := by
  induction elems generalizing i with
  | nil =>
      rcases hashNext_none represents ahead with ⟨last, returned⟩
      refine ⟨last, ?_⟩
      rw [List.length_nil, hashNexts, returned, Option.bind_some]
      rfl
  | cons e more inductionHypothesis =>
      rcases hashNext_some represents ahead with ⟨after, returned, later⟩
      rcases inductionHypothesis later with ⟨last, rest⟩
      refine ⟨last, ?_⟩
      rw [List.length_cons, hashNexts, returned, Option.bind_some, rest]
      rfl

/-! ## `hash_apply` -/

/-- The inner loop calls the action for the rest of its bucket. -/
theorem applyBucket_eq (represents : Represents links h) {fuel : Nat}
    (split : h.buckets = before ++ (front ++ rest) :: after) (enough : rest.length < fuel) :
    applyBucket links before.length fuel
        (pointerTo (bucketList before.length) (rest.map .elem)) =
      some (rest.map .elem) := by
  induction rest generalizing front fuel with
  | nil =>
      cases fuel with
      | zero => exact absurd enough (Nat.not_lt_zero _)
      | succ fuel =>
          rw [applyBucket, if_pos]
          · rfl
          · rfl
  | cons e rest inductionHypothesis =>
      cases fuel with
      | zero => exact absurd enough (Nat.not_lt_zero _)
      | succ fuel =>
          have notEnd : some (BucketNode.elem e) ≠ listEnd (bucketList before.length) := by
            intro same
            cases same
          have regrouped : h.buckets = before ++ ((front ++ [e]) ++ rest) :: after := by
            rw [List.append_assoc]
            exact split
          have later := inductionHypothesis regrouped (Nat.lt_of_succ_lt_succ enough)
          rw [List.map_cons, pointerTo_cons, applyBucket, if_neg notEnd,
            represents.listNext_elem split, Option.bind_some, Option.bind_some, later]
          rfl

/-- The outer loop goes over the buckets from an index on. -/
theorem applyBuckets_eq (represents : Represents links h) {fuel : Nat}
    (split : h.buckets = before ++ after) (enough : after.flatten.length < fuel) :
    applyBuckets links fuel before.length after.length = some (after.flatten.map .elem) := by
  induction after generalizing before with
  | nil => rfl
  | cons whole after inductionHypothesis =>
      rw [List.flatten_cons, List.length_append] at enough
      have regrouped : h.buckets = (before ++ [whole]) ++ after := by
        rw [split, List.append_assoc]
        rfl
      have here := @applyBucket_eq _ links h before after [] whole _ represents fuel split
        (by omega)
      have later := inductionHypothesis regrouped (by omega)
      rw [List.length_append, List.length_singleton] at later
      rw [List.length_cons, applyBuckets, represents.listBegin_eq split, here,
        Option.bind_some, later, List.flatten_cons, List.map_append]
      rfl

end Steps

/-! ## Links for a table -/

section TableLinks

variable {h : HashTable Elem}

/-- The nodes of a bucket. -/
def bucketNodes (h : HashTable Elem) (bucket : Nat) : List (BucketNode Elem) :=
  (bucketList bucket).nodes ((h.buckets[bucket]?.getD []).map .elem)

theorem bucketNodes_apart [DecidableEq Elem] (distinct : h.buckets.flatten.Nodup) :
    ListsApart (bucketNodes h) h.bucketCnt := by
  rcases List.nodup_flatten.mp distinct with ⟨once, disjoint⟩
  have inTable : ∀ bucket, bucket < h.bucketCnt →
      ∃ elems, h.buckets[bucket]? = some elems := by
    intro bucket inside
    rw [← h.sized] at inside
    exact ⟨h.buckets[bucket], List.getElem?_eq_getElem inside⟩
  constructor
  · intro bucket inside
    rcases inTable bucket inside with ⟨elems, found⟩
    have nodes : (elems.map BucketNode.elem).Nodup :=
      (once elems (List.mem_of_getElem? found)).map fun a b same =>
        BucketNode.elem.inj same
    rw [bucketNodes, found, ListHeader.nodes, bucketList]
    simp [List.nodup_append, nodes]
  · intro bucket other inside otherInside different node first second
    rcases inTable bucket inside with ⟨elems, found⟩
    rcases inTable other otherInside with ⟨others, foundOther⟩
    simp only [bucketNodes, found, foundOther, ListHeader.nodes, bucketList,
      List.cons_append, List.mem_cons, List.mem_append, List.mem_map,
      List.not_mem_nil, or_false, Option.getD_some] at first second
    rcases first with rfl | ⟨e, inBucket, rfl⟩ | rfl
    · simp [Ne.symm different] at second
    · simp only [reduceCtorEq, BucketNode.elem.injEq, exists_eq_right, or_false, false_or] at second
      rcases List.getElem?_eq_some_iff.mp found with ⟨here, rfl⟩
      rcases List.getElem?_eq_some_iff.mp foundOther with ⟨there, rfl⟩
      have pairs := List.pairwise_iff_getElem.mp disjoint
      rcases Nat.lt_or_gt_of_ne different with before | behind
      · exact pairs other bucket there here before second inBucket
      · exact pairs bucket other here there behind inBucket second
    · simp [Ne.symm different] at second

/-- Links that represent the buckets. -/
def tableLinks [DecidableEq Elem] (h : HashTable Elem) : Links (BucketNode Elem) :=
  Links.ofLists (bucketNodes h) h.bucketCnt

theorem represents_tableLinks [DecidableEq Elem] (distinct : h.buckets.flatten.Nodup) :
    Represents (tableLinks h) h := by
  intro bucket elems found
  have apart := bucketNodes_apart distinct
  have inside : bucket < h.bucketCnt := by
    rw [← h.sized]
    exact (List.getElem?_eq_some_iff.mp found).1
  have nodes : bucketNodes h bucket = (bucketList bucket).nodes (elems.map .elem) := by
    rw [bucketNodes, found]
    rfl
  constructor
  · rw [← nodes]
    exact apart.ofLists_linked inside
  · exact apart.ofLists_first inside nodes
  · exact apart.ofLists_last inside nodes
  · rw [← nodes]
    exact apart.distinct bucket inside

end TableLinks

/-- Every table that calls have made of a new one has links that represent its buckets.
For all such links there is one order of the elements in which `hash_next` returns
them, each once and followed by a null pointer, and in which `hash_apply` calls its
action. -/
theorem hash_iteration_once [DecidableEq Elem] (key : HashKey Elem)
    (start h : HashTable Elem) (calls : List (HashCall Elem × Bool))
    (results : List (HashResult Elem)) (init : HashTable.hashInit true = some start)
    (ran : start.run key calls = some (h, results)) :
    (∃ links, Represents links h) ∧
      ∃ order : List Elem, order.Nodup ∧ order.toFinset = h.contents ∧
        order.length = h.elemCnt ∧
        ∀ links, Represents links h →
          (∃ last, hashNexts links h (h.elemCnt + 1) hashFirst =
            some (last, order.map (fun e => some (.elem e)) ++ [none])) ∧
          ∀ fuel, h.elemCnt < fuel →
            hashApply links h fuel = some (order.map .elem) := by
  have started : HashSound key start := (hashInit_sound init).1
  rcases started.run calls with ⟨after, others, same, sound, _⟩
  rw [ran] at same
  cases same
  have positive : 0 < h.bucketCnt := by
    rcases sound.power with ⟨k, power⟩
    rw [power]
    exact Nat.two_pow_pos _
  have count := sound.count
  refine ⟨⟨tableLinks h, represents_tableLinks sound.distinct⟩, h.buckets.flatten,
    sound.distinct, rfl, count.symm, ?_⟩
  intro links represents
  constructor
  · rw [count]
    exact hashNexts_eq represents (inFrontOf_hashFirst represents positive)
  · intro fuel enough
    have split : h.buckets = [] ++ h.buckets := rfl
    rw [count] at enough
    rw [hashApply, ← h.sized]
    exact applyBuckets_eq represents split enough

/-- Two elements with equal last digits, of which one has taken the place of the other,
and a third one. -/
theorem hash_iteration_once_two :
    ∃ h results, ∃ start : HashTable Nat, HashTable.hashInit true = some start ∧
      start.run lastDigit [(.insert 3, true), (.insert 8, true), (.replace 13, true)] =
        some (h, results) ∧
      ∃ order : List Nat, order.Nodup ∧ order.length = h.elemCnt ∧
        ∃ links, Represents links h ∧
          ∃ last, hashNexts links h (h.elemCnt + 1) hashFirst =
            some (last, order.map (fun e => some (.elem e)) ++ [none]) := by
  rcases hash_refines_set lastDigit _ rfl [(.insert 3, true), (.insert 8, true),
    (.replace 13, true)] with ⟨h, results, ran, _⟩
  rcases hash_iteration_once lastDigit _ h _ results rfl ran with
    ⟨⟨links, represents⟩, order, once, _, count, iterated⟩
  exact ⟨h, results, _, rfl, ran, order, once, count, links, represents,
    (iterated links represents).1⟩

end CS162.Kernel

import Mathlib.Data.Finset.Dedup
import Mathlib.Data.Finset.Card
import CS162.Kernel.Hash

/-!
# A hash table is a finite set

The calls of `lib/kernel/hash.c` act on the set of elements in the table, which
has at most one element of each class of equal elements.  How many buckets
there are, and whether `rehash` gets its memory, does not show.
-/

namespace CS162.Kernel

universe u

variable {Elem : Type u}

/-! ## Numbers of buckets -/

theorem two_pow_le_turnOffLeast1bit {k x : Nat} (lower : 2 ^ k ≤ x)
    (upper : x < 2 ^ (k + 1)) (different : x ≠ 2 ^ k) :
    2 ^ k ≤ turnOffLeast1bit x := by
  have topBit : ∀ y, 2 ^ k ≤ y → y < 2 ^ (k + 1) → y.testBit k = true := by
    intro y low high
    have quotient : y / 2 ^ k = 1 := by
      apply Nat.div_eq_of_lt_le
      · omega
      · rw [pow_succ] at high
        omega
    rw [Nat.testBit_eq_decide_div_mod_eq, quotient]
    rfl
  apply Nat.ge_two_pow_of_testBit
  rw [turnOffLeast1bit, Nat.testBit_and, topBit x lower upper, topBit (x - 1) (by omega) (by omega)]
  rfl

theorem exists_two_pow_interval {x : Nat} (large : 4 ≤ x) :
    ∃ k, 2 ≤ k ∧ 2 ^ k ≤ x ∧ x < 2 ^ (k + 1) := by
  have positive : x ≠ 0 := by omega
  refine ⟨x.log2, ?_, ?_, ?_⟩
  · exact (Nat.le_log2 positive).mpr large
  · exact Nat.log2_self_le positive
  · exact Nat.lt_log2_self

/-- The number of buckets that `rehash` asks for is a power of 2 of at least
four. -/
theorem clearLowBits_eq {x : Nat} (large : 4 ≤ x) : ∃ k, clearLowBits x = some (2 ^ (k + 2)) := by
  induction x using Nat.strong_induction_on with
  | _ x inductionHypothesis =>
      rcases exists_two_pow_interval large with ⟨k, two, lower, upper⟩
      rw [clearLowBits]
      by_cases power : isPowerOf2 x = true
      · rw [if_pos power]
        refine ⟨k - 2, ?_⟩
        rw [Nat.sub_add_cancel two]
        congr 1
        by_contra different
        have positive := two_pow_le_turnOffLeast1bit lower upper different
        have zero : turnOffLeast1bit x = 0 := by
          simp only [isPowerOf2, Bool.and_eq_true, beq_iff_eq] at power
          exact power.2
        have some := Nat.two_pow_pos k
        omega
      · have different : x ≠ 2 ^ k := by
          rintro rfl
          apply power
          have cleared : 2 ^ k &&& (2 ^ k - 1) = 0 := by
            rw [Nat.and_two_pow_sub_one_eq_mod, Nat.mod_self]
          simp [isPowerOf2, turnOffLeast1bit, cleared]
        rw [if_neg power, if_neg (by omega)]
        apply inductionHypothesis
        · have below : x &&& (x - 1) ≤ x - 1 := Nat.and_le_right
          rw [turnOffLeast1bit]
          omega
        · have four : 2 ^ 2 ≤ 2 ^ k := Nat.pow_le_pow_right (by omega) two
          exact le_trans four (two_pow_le_turnOffLeast1bit lower upper different)

/-! ## Sequences of buckets -/

theorem flatten_modify_perm {buckets : List (List Elem)} {bucket : Nat}
    (inside : bucket < buckets.length) (e : Elem) :
    (buckets.modify bucket (e :: ·)).flatten.Perm (e :: buckets.flatten) := by
  induction buckets generalizing bucket with
  | nil => simp at inside
  | cons first rest inductionHypothesis =>
      cases bucket with
      | zero => simp
      | succ bucket =>
          rw [List.length_cons] at inside
          rw [List.modify_succ_cons, List.flatten_cons, List.flatten_cons]
          have later := inductionHypothesis (by omega : bucket < rest.length)
          exact (later.append_left first).trans List.perm_middle

theorem flatten_map_erase [DecidableEq Elem] {buckets : List (List Elem)}
    (distinct : buckets.flatten.Nodup) (e : Elem) :
    (buckets.map (·.erase e)).flatten = buckets.flatten.erase e := by
  induction buckets with
  | nil => rfl
  | cons first rest inductionHypothesis =>
      rw [List.flatten_cons] at distinct
      rcases List.nodup_append.mp distinct with ⟨_, distinctRest, apart⟩
      rw [List.map_cons, List.flatten_cons, List.flatten_cons, inductionHypothesis distinctRest]
      by_cases member : e ∈ first
      · rw [List.erase_append_left _ member]
        congr 1
        apply List.erase_of_not_mem
        intro later
        exact apart e member e later rfl
      · rw [List.erase_append_right _ member, List.erase_of_not_mem member]

/-! ## Finite sets with one element of each class -/

def OnePerClass (key : HashKey Elem) (set : Finset Elem) : Prop :=
  ∀ a ∈ set, ∀ b ∈ set, key.equal a b = true → a = b

/-- No element of the set is equal to the given one. -/
def NoneEqual (key : HashKey Elem) (set : Finset Elem) (e : Elem) : Prop :=
  ∀ a ∈ set, key.equal a e = false

section Sets

variable [DecidableEq Elem]

/-- What a call does to a set and what it gives back. -/
inductive SetStep (key : HashKey Elem) (set : Finset Elem) :
    HashCall Elem → HashResult Elem → Finset Elem → Prop
  | insertPresent {e old : Elem} : old ∈ set → key.equal old e = true →
      SetStep key set (.insert e) (.elem (some old)) set
  | insertNew {e : Elem} : NoneEqual key set e →
      SetStep key set (.insert e) (.elem none) (insert e set)
  | replacePresent {e old : Elem} : old ∈ set → key.equal old e = true →
      SetStep key set (.replace e) (.elem (some old)) (insert e (set.erase old))
  | replaceNew {e : Elem} : NoneEqual key set e →
      SetStep key set (.replace e) (.elem none) (insert e set)
  | findPresent {e old : Elem} : old ∈ set → key.equal old e = true →
      SetStep key set (.find e) (.elem (some old)) set
  | findNone {e : Elem} : NoneEqual key set e →
      SetStep key set (.find e) (.elem none) set
  | deletePresent {e old : Elem} : old ∈ set → key.equal old e = true →
      SetStep key set (.delete e) (.elem (some old)) (set.erase old)
  | deleteNone {e : Elem} : NoneEqual key set e →
      SetStep key set (.delete e) (.elem none) set
  | clear : SetStep key set (.clear false) (.destroyed []) ∅
  | destroy {elems : List Elem} : elems.Nodup → elems.toFinset = set →
      SetStep key set (.clear true) (.destroyed elems) ∅

/-- Calls on a set one after another. -/
inductive SetRun (key : HashKey Elem) :
    Finset Elem → List (HashCall Elem) → List (HashResult Elem) →
      Finset Elem → Prop
  | nil {set : Finset Elem} : SetRun key set [] [] set
  | cons {set next last : Finset Elem} {call : HashCall Elem}
      {result : HashResult Elem} {calls : List (HashCall Elem)}
      {results : List (HashResult Elem)} :
      SetStep key set call result next → SetRun key next calls results last →
      SetRun key set (call :: calls) (result :: results) last

variable {key : HashKey Elem} {set next : Finset Elem}

theorem OnePerClass.erase (once : OnePerClass key set) (old : Elem) :
    OnePerClass key (set.erase old) := by
  intro a first b second
  exact once a (Finset.mem_of_mem_erase first) b (Finset.mem_of_mem_erase second)

theorem OnePerClass.insert (once : OnePerClass key set) {e : Elem}
    (fresh : NoneEqual key set e) : OnePerClass key (insert e set) := by
  intro a first b second same
  rcases Finset.mem_insert.mp first with rfl | inSet
  · rcases Finset.mem_insert.mp second with rfl | other
    · rfl
    · have unequal := fresh b other
      rw [key.equal_symm same] at unequal
      cases unequal
  · rcases Finset.mem_insert.mp second with rfl | other
    · have unequal := fresh a inSet
      rw [same] at unequal
      cases unequal
    · exact once a inSet b other same

/-- Without the one element equal to it, nothing in the set is equal to an
element. -/
theorem OnePerClass.noneEqual_erase (once : OnePerClass key set) {e old : Elem}
    (member : old ∈ set) (same : key.equal old e = true) :
    NoneEqual key (set.erase old) e := by
  intro a other
  rcases Finset.mem_erase.mp other with ⟨different, inSet⟩
  by_contra unequal
  have equal : key.equal a e = true := by simpa using unequal
  apply different
  apply once a inSet old member
  exact key.equal_trans a e old equal (key.equal_symm same)

theorem SetStep.onePerClass {call : HashCall Elem} {result : HashResult Elem}
    (step : SetStep key set call result next) (once : OnePerClass key set) :
    OnePerClass key next := by
  cases step with
  | insertPresent _ _ => exact once
  | insertNew fresh => exact once.insert fresh
  | replacePresent member same =>
      exact (once.erase _).insert (once.noneEqual_erase member same)
  | replaceNew fresh => exact once.insert fresh
  | findPresent _ _ => exact once
  | findNone _ => exact once
  | deletePresent _ _ => exact once.erase _
  | deleteNone _ => exact once
  | clear =>
      intro a member
      exact absurd member (Finset.notMem_empty a)
  | destroy _ _ =>
      intro a member
      exact absurd member (Finset.notMem_empty a)

end Sets

/-! ## The buckets of a table -/

/-- The elements in the buckets, each in the bucket that its hash says. -/
structure BucketsSound (key : HashKey Elem) (h : HashTable Elem)
    (elems : List Elem) : Prop where
  contents : h.buckets.flatten.Perm elems
  placed : ∀ bucket inBucket, h.buckets[bucket]? = some inBucket →
    ∀ e ∈ inBucket, h.findBucket key e = bucket
  power : ∃ k, h.bucketCnt = 2 ^ (k + 2)

namespace BucketsSound

variable {key : HashKey Elem} {h : HashTable Elem} {elems : List Elem}

theorem findBucket_lt (sound : BucketsSound key h elems) (e : Elem) :
    h.findBucket key e < h.buckets.length := by
  rcases sound.power with ⟨k, count⟩
  rw [h.sized, HashTable.findBucket, count, Nat.and_two_pow_sub_one_eq_mod]
  exact Nat.mod_lt _ (Nat.two_pow_pos (k + 2))

theorem empty {bucketCnt elemCnt : Nat}
    (sized : (HashTable.emptyBuckets bucketCnt : List (List Elem)).length = bucketCnt)
    (power : ∃ k, bucketCnt = 2 ^ (k + 2)) :
    BucketsSound key
      { elemCnt := elemCnt
        bucketCnt := bucketCnt
        buckets := HashTable.emptyBuckets bucketCnt
        sized := sized } [] := by
  constructor
  · exact List.Perm.of_eq List.flatten_replicate_nil
  · intro bucket inBucket at_
    rcases List.mem_replicate.mp (List.mem_of_getElem? at_) with ⟨_, rfl⟩
    simp
  · exact power

/-- An element goes to the front of the bucket it belongs in. -/
theorem pushFront (sound : BucketsSound key h elems) (e : Elem) :
    ∃ after, h.pushFront (h.findBucket key e) e = some after ∧
      BucketsSound key after (e :: elems) ∧ after.elemCnt = h.elemCnt := by
  have inside := sound.findBucket_lt e
  have bound := inside
  rw [h.sized] at bound
  refine ⟨_, if_pos bound, ?_, rfl⟩
  constructor
  · exact (flatten_modify_perm inside e).trans (sound.contents.cons e)
  · intro bucket inBucket at_ x member
    rw [List.getElem?_modify, Option.map_eq_map] at at_
    rcases Option.map_eq_some_iff.mp at_ with ⟨old, was, rfl⟩
    by_cases here : h.findBucket key e = bucket
    · rw [if_pos here] at member
      rcases List.mem_cons.mp member with rfl | inOld
      · exact here
      · exact sound.placed bucket old was x inOld
    · rw [if_neg here] at member
      exact sound.placed bucket old was x member
  · exact sound.power

theorem moveElems (sound : BucketsSound key h elems) (old : List Elem) :
    ∃ after, h.moveElems key old = some after ∧
      BucketsSound key after (old ++ elems) ∧ after.elemCnt = h.elemCnt := by
  induction old generalizing h elems with
  | nil => exact ⟨h, rfl, sound, rfl⟩
  | cons e rest inductionHypothesis =>
      rcases sound.pushFront e with ⟨middle, pushed, soundMiddle, sameMiddle⟩
      rcases inductionHypothesis soundMiddle with ⟨after, moved, soundAfter, sameAfter⟩
      refine ⟨after, ?_, ?_, sameAfter.trans sameMiddle⟩
      · rw [HashTable.moveElems, List.foldlM_cons, pushed]
        exact moved
      · exact
          { soundAfter with
            contents := soundAfter.contents.trans List.perm_middle }

theorem moveBuckets (sound : BucketsSound key h elems) (old : List (List Elem)) :
    ∃ after, old.foldlM (HashTable.moveElems key) h = some after ∧
      BucketsSound key after (old.flatten ++ elems) ∧
      after.elemCnt = h.elemCnt := by
  induction old generalizing h elems with
  | nil => exact ⟨h, rfl, sound, rfl⟩
  | cons bucket rest inductionHypothesis =>
      rcases sound.moveElems bucket with ⟨middle, pushed, soundMiddle, sameMiddle⟩
      rcases inductionHypothesis soundMiddle with ⟨after, moved, soundAfter, sameAfter⟩
      refine ⟨after, ?_, ?_, sameAfter.trans sameMiddle⟩
      · rw [List.foldlM_cons, pushed]
        exact moved
      · have order : (rest.flatten ++ (bucket ++ elems)).Perm
            ((bucket :: rest).flatten ++ elems) := by
          rw [List.flatten_cons, ← List.append_assoc]
          exact List.perm_append_comm.append_right elems
        exact { soundAfter with contents := soundAfter.contents.trans order }

/-- Whether or not there is memory for them, the elements are in the right
buckets afterwards. -/
theorem rehash (sound : BucketsSound key h elems) (malloc : Bool) :
    ∃ after, h.rehash key malloc = some after ∧
      BucketsSound key after elems ∧ after.elemCnt = h.elemCnt := by
  rcases clearLowBits_eq (Nat.le_max_right (h.elemCnt / 2) 4) with ⟨k, ideal⟩
  rw [HashTable.rehash, ideal, Option.bind_some]
  by_cases same : 2 ^ (k + 2) = h.bucketCnt
  · rw [if_pos same]
    exact ⟨h, rfl, sound, rfl⟩
  · rw [if_neg same]
    cases malloc with
    | false => exact ⟨h, rfl, sound, rfl⟩
    | true =>
        have fresh : BucketsSound key
            { elemCnt := h.elemCnt
              bucketCnt := 2 ^ (k + 2)
              buckets := HashTable.emptyBuckets (2 ^ (k + 2))
              sized := List.length_replicate } [] := empty _ ⟨k, rfl⟩
        rcases fresh.moveBuckets h.buckets with ⟨after, moved, placed, count⟩
        rw [List.append_nil] at placed
        refine ⟨after, ?_, ?_, count⟩
        · rw [if_pos rfl]
          exact moved
        · exact { placed with contents := placed.contents.trans sound.contents }

/-- The search of one bucket decides for the whole table. -/
theorem findElem (sound : BucketsSound key h elems) (e : Elem) :
    (∃ old, h.findElem key (h.findBucket key e) e = some (some old) ∧
        old ∈ elems ∧ key.equal old e = true) ∨
      (h.findElem key (h.findBucket key e) e = some none ∧
        ∀ a ∈ elems, key.equal a e = false) := by
  have inside := sound.findBucket_lt e
  have at_ := List.getElem?_eq_getElem inside
  rw [HashTable.findElem, at_, Option.map_some]
  have listed : ∀ a, a ∈ h.buckets[h.findBucket key e] →
      a ∈ h.buckets.flatten := fun a member =>
    List.mem_flatten_of_mem (List.getElem_mem inside) member
  cases search : h.buckets[h.findBucket key e].find? (key.equal · e) with
  | some old =>
      left
      refine ⟨old, rfl, ?_, ?_⟩
      · apply sound.contents.mem_iff.mp
        exact listed old (List.mem_of_find?_eq_some search)
      · have found := List.find?_some search
        exact found
  | none =>
      right
      refine ⟨rfl, ?_⟩
      intro a member
      by_contra unequal
      have equal : key.equal a e = true := by simpa using unequal
      rcases List.mem_flatten.mp (sound.contents.mem_iff.mpr member) with
        ⟨inBucket, isBucket, inside_⟩
      rcases List.getElem?_of_mem isBucket with ⟨bucket, was⟩
      have place := sound.placed bucket inBucket was a inside_
      have sameBucket : h.findBucket key a = h.findBucket key e := by
        rw [HashTable.findBucket, HashTable.findBucket, key.hash_equal a e equal]
      rw [← place, sameBucket, at_] at was
      cases was
      have missed := List.find?_eq_none.mp search a inside_
      exact missed equal

theorem removeElem [DecidableEq Elem] (sound : BucketsSound key h elems)
    (distinct : elems.Nodup) {e : Elem} (member : e ∈ elems) :
    ∃ after, h.removeElem e = some after ∧
      BucketsSound key after (elems.erase e) ∧
      after.elemCnt = h.elemCnt - 1 ∧ after.bucketCnt = h.bucketCnt := by
  have distinctBuckets := sound.contents.nodup_iff.mpr distinct
  refine ⟨_, if_pos (sound.contents.mem_iff.mpr member), ?_, rfl, rfl⟩
  constructor
  · have flat := flatten_map_erase distinctBuckets e
    exact (List.Perm.of_eq flat).trans (sound.contents.erase e)
  · intro bucket inBucket at_ x inside
    rw [List.getElem?_map] at at_
    rcases Option.map_eq_some_iff.mp at_ with ⟨old, was, rfl⟩
    exact sound.placed bucket old was x (List.mem_of_mem_erase inside)
  · exact sound.power

/-- A new element goes in, and the table is given its ideal size. -/
theorem insertRehash (sound : BucketsSound key h elems)
    (counted : h.elemCnt = elems.length) (distinct : elems.Nodup) {e : Elem}
    (absent : e ∉ elems) (malloc : Bool) :
    ∃ after, ((h.insertElem (h.findBucket key e) e).bind
          (·.rehash key malloc)) = some after ∧
      BucketsSound key after (e :: elems) ∧
      after.elemCnt = (e :: elems).length ∧ (e :: elems).Nodup := by
  have counting : BucketsSound key { h with elemCnt := h.elemCnt + 1 } elems :=
    ⟨sound.contents, sound.placed, sound.power⟩
  rcases counting.pushFront e with ⟨middle, pushed, placed, sameCount⟩
  rcases placed.rehash malloc with ⟨after, rehashed, soundAfter, sameAfter⟩
  refine ⟨after, ?_, soundAfter, ?_, ?_⟩
  · have inserted : h.insertElem (h.findBucket key e) e = some middle := pushed
    rw [inserted]
    exact rehashed
  · rw [sameAfter, sameCount, List.length_cons, ← counted]
  · exact List.nodup_cons.mpr ⟨absent, distinct⟩

theorem absent_of_noneEqual {e : Elem} (none : ∀ a ∈ elems, key.equal a e = false) : e ∉ elems := by
  intro member
  have unequal := none e member
  rw [key.equal_refl] at unequal
  cases unequal

end BucketsSound

/-! ## The calls -/

variable [DecidableEq Elem]

/-- The elements in a table. -/
def HashTable.contents (h : HashTable Elem) : Finset Elem := h.buckets.flatten.toFinset

/-- The invariant of a hash table. -/
structure HashSound (key : HashKey Elem) (h : HashTable Elem) : Prop where
  counted : h.elemCnt = h.contents.card
  power : ∃ k, h.bucketCnt = 2 ^ (k + 2)
  placed : ∀ bucket inBucket, h.buckets[bucket]? = some inBucket →
    ∀ e, e ∈ inBucket → key.hash e &&& (h.bucketCnt - 1) = bucket
  distinct : h.buckets.flatten.Nodup
  once : OnePerClass key h.contents

variable {key : HashKey Elem} {h : HashTable Elem} {elems : List Elem}

theorem HashSound.buckets (sound : HashSound key h) : BucketsSound key h h.buckets.flatten :=
  ⟨List.Perm.refl _, sound.placed, sound.power⟩

theorem BucketsSound.contents_eq (sound : BucketsSound key h elems) : h.contents = elems.toFinset :=
  List.toFinset_eq_of_perm _ _ sound.contents

theorem BucketsSound.hashSound (sound : BucketsSound key h elems)
    (counted : h.elemCnt = elems.length) (distinct : elems.Nodup)
    (once : OnePerClass key h.contents) : HashSound key h := by
  constructor
  · rw [counted, sound.contents_eq, List.toFinset_card_of_nodup distinct]
  · exact sound.power
  · exact sound.placed
  · exact sound.contents.nodup_iff.mpr distinct
  · exact once

theorem HashSound.count (sound : HashSound key h) : h.elemCnt = h.buckets.flatten.length := by
  rw [sound.counted, HashTable.contents, List.toFinset_card_of_nodup sound.distinct]

/-- What one call does, on the table and on its set of elements. -/
def CallSound (key : HashKey Elem) (h : HashTable Elem) (malloc : Bool)
    (call : HashCall Elem) : Prop :=
  ∃ after result, h.call key malloc call = some (after, result) ∧
    HashSound key after ∧
    SetStep key h.contents call result after.contents

/-- The simulation: whatever the table does, the step of the set leads to the
table's elements. -/
theorem callSound_of_step (sound : HashSound key h) {malloc : Bool}
    {call : HashCall Elem} {after : HashTable Elem} {result : HashResult Elem}
    (returns : h.call key malloc call = some (after, result))
    (buckets : BucketsSound key after elems)
    (counted : after.elemCnt = elems.length) (distinct : elems.Nodup)
    (step : SetStep key h.contents call result elems.toFinset) :
    CallSound key h malloc call := by
  rw [← buckets.contents_eq] at step
  have once := step.onePerClass sound.once
  exact ⟨after, result, returns, buckets.hashSound counted distinct once, step⟩

theorem HashSound.noneEqual {e : Elem} (none : ∀ a ∈ h.buckets.flatten, key.equal a e = false) :
    NoneEqual key h.contents e := fun a member =>
  none a (List.mem_toFinset.mp member)

theorem HashSound.insert (sound : HashSound key h) (malloc : Bool) (e : Elem) :
    CallSound key h malloc (.insert e) := by
  rcases sound.buckets.findElem e with ⟨old, found, member, same⟩ | ⟨missing, none⟩
  · rcases sound.buckets.rehash malloc with ⟨after, rehashed, buckets, count⟩
    have returns : h.call key malloc (.insert e) = some (after, .elem (some old)) := by
      simp [HashTable.call, HashTable.hashInsert, found, rehashed]
    apply callSound_of_step sound returns buckets (count.trans sound.count) sound.distinct
    exact .insertPresent (List.mem_toFinset.mpr member) same
  · rcases sound.buckets.insertRehash sound.count sound.distinct
      (BucketsSound.absent_of_noneEqual none) malloc with
      ⟨after, inserted, buckets, count, distinct⟩
    have returns : h.call key malloc (.insert e) = some (after, .elem .none) := by
      rw [Option.bind_eq_some_iff] at inserted
      rcases inserted with ⟨middle, first, second⟩
      simp [HashTable.call, HashTable.hashInsert, missing, first, second]
    apply callSound_of_step sound returns buckets count distinct
    rw [List.toFinset_cons]
    exact .insertNew (HashSound.noneEqual none)

theorem toFinset_erase_contents (sound : HashSound key h) (old : Elem) :
    (h.buckets.flatten.erase old).toFinset = h.contents.erase old := by
  ext a
  simp [HashTable.contents, sound.distinct.mem_erase_iff]

theorem HashSound.replace (sound : HashSound key h) (malloc : Bool) (e : Elem) :
    CallSound key h malloc (.replace e) := by
  rcases sound.buckets.findElem e with ⟨old, found, member, same⟩ | ⟨missing, none⟩
  · rcases sound.buckets.removeElem sound.distinct member with
      ⟨middle, removed, buckets, count, sameBuckets⟩
    have inSet : old ∈ h.contents := List.mem_toFinset.mpr member
    have sameIndex : h.findBucket key e = middle.findBucket key e := by
      rw [HashTable.findBucket, HashTable.findBucket, sameBuckets]
    have counted : middle.elemCnt = (h.buckets.flatten.erase old).length := by
      rw [count, sound.count, List.length_erase_of_mem member]
    have absent : e ∉ h.buckets.flatten.erase old := by
      intro inRest
      have inErased : e ∈ h.contents.erase old := by
        rw [← toFinset_erase_contents sound]
        exact List.mem_toFinset.mpr inRest
      have unequal := sound.once.noneEqual_erase inSet same e inErased
      rw [key.equal_refl] at unequal
      cases unequal
    rcases buckets.insertRehash counted (sound.distinct.erase old) absent malloc
      with ⟨after, inserted, bucketsAfter, countAfter, distinct⟩
    have returns : h.call key malloc (.replace e) = some (after, .elem (some old)) := by
      rw [Option.bind_eq_some_iff] at inserted
      rcases inserted with ⟨next, first, second⟩
      rw [← sameIndex] at first
      simp [HashTable.call, HashTable.hashReplace, found, removed, first, second]
    apply callSound_of_step sound returns bucketsAfter countAfter distinct
    rw [List.toFinset_cons, toFinset_erase_contents sound]
    exact .replacePresent inSet same
  · rcases sound.buckets.insertRehash sound.count sound.distinct
      (BucketsSound.absent_of_noneEqual none) malloc with
      ⟨after, inserted, buckets, count, distinct⟩
    have returns : h.call key malloc (.replace e) = some (after, .elem .none) := by
      rw [Option.bind_eq_some_iff] at inserted
      rcases inserted with ⟨middle, first, second⟩
      simp [HashTable.call, HashTable.hashReplace, missing, first, second]
    apply callSound_of_step sound returns buckets count distinct
    rw [List.toFinset_cons]
    exact .replaceNew (HashSound.noneEqual none)

theorem HashSound.find (sound : HashSound key h) (malloc : Bool) (e : Elem) :
    CallSound key h malloc (.find e) := by
  rcases sound.buckets.findElem e with ⟨old, found, member, same⟩ | ⟨missing, none⟩
  · have returns : h.call key malloc (.find e) = some (h, .elem (some old)) := by
      simp [HashTable.call, HashTable.hashFind, found]
    apply callSound_of_step sound returns sound.buckets sound.count sound.distinct
    exact .findPresent (List.mem_toFinset.mpr member) same
  · have returns : h.call key malloc (.find e) = some (h, .elem .none) := by
      simp [HashTable.call, HashTable.hashFind, missing]
    apply callSound_of_step sound returns sound.buckets sound.count sound.distinct
    exact .findNone (HashSound.noneEqual none)

theorem HashSound.delete (sound : HashSound key h) (malloc : Bool) (e : Elem) :
    CallSound key h malloc (.delete e) := by
  rcases sound.buckets.findElem e with ⟨old, found, member, same⟩ | ⟨missing, none⟩
  · rcases sound.buckets.removeElem sound.distinct member with ⟨middle, removed, buckets, count, _⟩
    have counted : middle.elemCnt = (h.buckets.flatten.erase old).length := by
      rw [count, sound.count, List.length_erase_of_mem member]
    rcases buckets.rehash malloc with ⟨after, rehashed, bucketsAfter, countAfter⟩
    have returns : h.call key malloc (.delete e) = some (after, .elem (some old)) := by
      simp [HashTable.call, HashTable.hashDelete, found, removed, rehashed]
    apply callSound_of_step sound returns bucketsAfter
      (countAfter.trans counted) (sound.distinct.erase old)
    rw [toFinset_erase_contents sound]
    exact .deletePresent (List.mem_toFinset.mpr member) same
  · have returns : h.call key malloc (.delete e) = some (h, .elem .none) := by
      simp [HashTable.call, HashTable.hashDelete, missing]
    apply callSound_of_step sound returns sound.buckets sound.count sound.distinct
    exact .deleteNone (HashSound.noneEqual none)

theorem HashSound.clear (sound : HashSound key h) (malloc destructor : Bool) :
    CallSound key h malloc (.clear destructor) := by
  have buckets : BucketsSound key (h.hashClear destructor).1 [] := .empty _ sound.power
  apply callSound_of_step sound rfl buckets rfl List.nodup_nil
  rw [List.toFinset_nil]
  cases destructor with
  | false => exact .clear
  | true => exact .destroy sound.distinct rfl

/-- Every call returns, keeps the invariant and acts on the set. -/
theorem HashSound.call (sound : HashSound key h) (malloc : Bool)
    (next : HashCall Elem) : CallSound key h malloc next := by
  cases next with
  | insert e => exact sound.insert malloc e
  | replace e => exact sound.replace malloc e
  | find e => exact sound.find malloc e
  | delete e => exact sound.delete malloc e
  | clear destructor => exact sound.clear malloc destructor

theorem HashSound.run (sound : HashSound key h) (calls : List (HashCall Elem × Bool)) :
    ∃ after results, h.run key calls = some (after, results) ∧
      HashSound key after ∧
      SetRun key h.contents (calls.map Prod.fst) results after.contents := by
  induction calls generalizing h with
  | nil => exact ⟨h, [], rfl, sound, .nil⟩
  | cons first rest inductionHypothesis =>
      rcases first with ⟨next, malloc⟩
      rcases sound.call malloc next with ⟨middle, result, returns, soundMiddle, step⟩
      rcases inductionHypothesis soundMiddle with ⟨after, results, ran, soundAfter, steps⟩
      refine ⟨after, result :: results, ?_, soundAfter, .cons step steps⟩
      simp [HashTable.run, returns, ran]

theorem hashInit_sound (init : HashTable.hashInit true = some h) :
    HashSound key h ∧ h.contents = ∅ := by
  cases init
  have buckets : BucketsSound key
      { elemCnt := 0
        bucketCnt := 4
        buckets := HashTable.emptyBuckets 4
        sized := List.length_replicate } [] := .empty _ ⟨0, rfl⟩
  have contents := buckets.contents_eq
  refine ⟨buckets.hashSound rfl List.nodup_nil ?_, contents⟩
  rw [contents]
  intro a member
  cases member

/-- Every sequence of calls on a new table gives the results of the set and
keeps the invariant, whichever allocations fail. -/
theorem hash_refines_set (key : HashKey Elem) (h : HashTable Elem)
    (init : HashTable.hashInit true = some h) (calls : List (HashCall Elem × Bool)) :
    ∃ after results, h.run key calls = some (after, results) ∧
      HashSound key after ∧
      SetRun key ∅ (calls.map Prod.fst) results after.contents := by
  rcases hashInit_sound init with ⟨sound, empty⟩
  rw [← empty]
  exact sound.run calls

theorem lastDigit_trans (a b c : Nat) (first : decide (a % 10 < b % 10) = true)
    (second : decide (b % 10 < c % 10) = true) : decide (a % 10 < c % 10) = true := by
  simp only [decide_eq_true_eq] at first second ⊢
  omega

theorem lastDigit_irrefl (a : Nat) : decide (a % 10 < a % 10) = false :=
  decide_eq_false (Nat.lt_irrefl (a % 10))

theorem lastDigit_equal (a b : Nat)
    (same : equalElems (fun a b : Nat => decide (a % 10 < b % 10)) a b = true) :
    a % 10 = b % 10 := by
  simp only [equalElems, Bool.and_eq_true, Bool.not_eq_true', decide_eq_false_iff_not] at same
  omega

theorem lastDigit_equal_trans (a b c : Nat)
    (first : equalElems (fun a b : Nat => decide (a % 10 < b % 10)) a b = true)
    (second : equalElems (fun a b : Nat => decide (a % 10 < b % 10)) b c = true) :
    equalElems (fun a b : Nat => decide (a % 10 < b % 10)) a c = true := by
  simp only [equalElems, Bool.and_eq_true, Bool.not_eq_true',
    decide_eq_false_iff_not] at first second ⊢
  omega

/-- Numbers are told apart by their last digit. -/
def lastDigit : HashKey Nat where
  hash n := n % 10
  less a b := a % 10 < b % 10
  less_irrefl := lastDigit_irrefl
  less_trans := lastDigit_trans
  equal_trans := lastDigit_equal_trans
  hash_equal := lastDigit_equal

theorem hash_refines_set_lastDigit :
    ∃ h after results, HashTable.hashInit true = some h ∧
      h.run lastDigit [(.insert 3, true), (.insert 13, false),
        (.replace 23, true), (.delete 33, true)] = some (after, results) ∧
      HashSound lastDigit after ∧
      SetRun lastDigit ∅ [.insert 3, .insert 13, .replace 23, .delete 33]
        results after.contents := by
  rcases hash_refines_set lastDigit _ rfl [(.insert 3, true),
    (.insert 13, false), (.replace 23, true), (.delete 33, true)] with
    ⟨after, results, runs, sound, steps⟩
  exact ⟨_, after, results, rfl, runs, sound, steps⟩

end CS162.Kernel

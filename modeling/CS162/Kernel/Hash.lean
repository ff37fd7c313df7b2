import Mathlib.Algebra.Order.Ring.Nat
import Mathlib.Data.Nat.Bitwise
import Mathlib.Data.List.Basic

/-!
# Hash tables

`lib/kernel/hash.c`.  A bucket is the sequence of elements that its list
represents, and an element is its address.  An access outside the array of
buckets, the removal of an element that is in no list and a loop that does not
end are `none`.
-/

namespace CS162.Kernel

universe u

/-- Neither of two elements is less than the other. -/
def equalElems {Elem : Type u} (less : Elem → Elem → Bool) (a b : Elem) : Bool :=
  !less a b && !less b a

/-- A hash function and a comparison: a strict weak order with equal hashes for
equal elements. -/
structure HashKey (Elem : Type u) where
  hash : Elem → Nat
  less : Elem → Elem → Bool
  less_irrefl : ∀ a, less a a = false
  less_trans : ∀ a b c, less a b = true → less b c = true → less a c = true
  equal_trans : ∀ a b c, equalElems less a b = true →
    equalElems less b c = true → equalElems less a c = true
  hash_equal : ∀ a b, equalElems less a b = true → hash a = hash b

namespace HashKey

variable {Elem : Type u}

/-- The test of `find_elem`. -/
def equal (key : HashKey Elem) (a b : Elem) : Bool := equalElems key.less a b

theorem equal_refl (key : HashKey Elem) (a : Elem) : key.equal a a = true := by
  simp [equal, equalElems, key.less_irrefl]

theorem equal_symm (key : HashKey Elem) {a b : Elem}
    (same : key.equal a b = true) : key.equal b a = true := by
  simp only [equal, equalElems, Bool.and_eq_true] at same ⊢
  exact same.symm

end HashKey

/-- `turn_off_least_1bit`. -/
def turnOffLeast1bit (x : Nat) : Nat := x &&& (x - 1)

/-- `is_power_of_2`. -/
def isPowerOf2 (x : Nat) : Bool := x != 0 && turnOffLeast1bit x == 0

/-- The loop of `rehash` that makes a number of buckets a power of 2. -/
def clearLowBits (x : Nat) : Option Nat :=
  if isPowerOf2 x then some x
  else if x = 0 then none
  else clearLowBits (turnOffLeast1bit x)
termination_by x
decreasing_by
  have below : x &&& (x - 1) ≤ x - 1 := Nat.and_le_right
  rw [turnOffLeast1bit]
  omega

/-- `struct hash`, with as many buckets as `bucket_cnt` says. -/
structure HashTable (Elem : Type u) where
  elemCnt : Nat
  bucketCnt : Nat
  buckets : List (List Elem)
  sized : buckets.length = bucketCnt

namespace HashTable

variable {Elem : Type u}

/-- The lists that `list_init` makes in a new array of buckets. -/
def emptyBuckets (bucketCnt : Nat) : List (List Elem) := List.replicate bucketCnt []

/-- `hash_clear`, with the elements that a destructor is called for. -/
def hashClear (h : HashTable Elem) (destructor : Bool) : HashTable Elem × List Elem :=
  ({ elemCnt := 0
     bucketCnt := h.bucketCnt
     buckets := emptyBuckets h.bucketCnt
     sized := List.length_replicate },
    if destructor then h.buckets.flatten else [])

/-- `hash_init`, with the outcome of its allocation. -/
def hashInit (malloc : Bool) : Option (HashTable Elem) :=
  if malloc then
    some
      { elemCnt := 0
        bucketCnt := 4
        buckets := emptyBuckets 4
        sized := List.length_replicate }
  else none

/-- `find_bucket`: the index of the bucket that an element belongs in. -/
def findBucket (key : HashKey Elem) (h : HashTable Elem) (e : Elem) : Nat :=
  key.hash e &&& (h.bucketCnt - 1)

/-- `find_elem`. -/
def findElem (key : HashKey Elem) (h : HashTable Elem) (bucket : Nat)
    (e : Elem) : Option (Option Elem) :=
  h.buckets[bucket]?.map fun elems => elems.find? (key.equal · e)

/-- `list_push_front` on a bucket. -/
def pushFront (h : HashTable Elem) (bucket : Nat) (e : Elem) : Option (HashTable Elem) :=
  if bucket < h.bucketCnt then
    some
      { h with
        buckets := h.buckets.modify bucket (e :: ·)
        sized := by rw [List.length_modify, h.sized] }
  else none

/-- `insert_elem`. -/
def insertElem (h : HashTable Elem) (bucket : Nat) (e : Elem) : Option (HashTable Elem) :=
  pushFront { h with elemCnt := h.elemCnt + 1 } bucket e

/-- The loop of `rehash` that moves the elements of the old buckets. -/
def moveElems (key : HashKey Elem) (h : HashTable Elem) (old : List Elem) :
    Option (HashTable Elem) :=
  old.foldlM (fun h elem => h.pushFront (findBucket key h elem) elem) h

/-- `rehash`, with the outcome of its allocation. -/
def rehash (key : HashKey Elem) (h : HashTable Elem) (malloc : Bool) : Option (HashTable Elem) :=
  (clearLowBits (max (h.elemCnt / 2) 4)).bind fun newBucketCnt =>
    if newBucketCnt = h.bucketCnt then some h
    else if malloc then
      h.buckets.foldlM (moveElems key)
        { elemCnt := h.elemCnt
          bucketCnt := newBucketCnt
          buckets := emptyBuckets newBucketCnt
          sized := List.length_replicate }
    else some h

variable [DecidableEq Elem]

/-- `remove_elem`. -/
def removeElem (h : HashTable Elem) (e : Elem) : Option (HashTable Elem) :=
  if e ∈ h.buckets.flatten then
    some
      { elemCnt := h.elemCnt - 1
        bucketCnt := h.bucketCnt
        buckets := h.buckets.map (·.erase e)
        sized := by rw [List.length_map, h.sized] }
  else none

/-- `hash_insert`. -/
def hashInsert (key : HashKey Elem) (h : HashTable Elem) (e : Elem)
    (malloc : Bool) : Option (HashTable Elem × Option Elem) := do
  let bucket := findBucket key h e
  let old ← findElem key h bucket e
  let h ← if old.isNone then h.insertElem bucket e else some h
  let h ← h.rehash key malloc
  some (h, old)

/-- `hash_replace`. -/
def hashReplace (key : HashKey Elem) (h : HashTable Elem) (e : Elem)
    (malloc : Bool) : Option (HashTable Elem × Option Elem) := do
  let bucket := findBucket key h e
  let old ← findElem key h bucket e
  let h ← match old with
    | some found => h.removeElem found
    | none => some h
  let h ← h.insertElem bucket e
  let h ← h.rehash key malloc
  some (h, old)

/-- `hash_find`. -/
def hashFind (key : HashKey Elem) (h : HashTable Elem) (e : Elem) : Option (Option Elem) :=
  findElem key h (findBucket key h e) e

/-- `hash_delete`. -/
def hashDelete (key : HashKey Elem) (h : HashTable Elem) (e : Elem)
    (malloc : Bool) : Option (HashTable Elem × Option Elem) := do
  let found ← findElem key h (findBucket key h e) e
  match found with
  | some old => do
      let h ← h.removeElem old
      let h ← h.rehash key malloc
      some (h, found)
  | none => some (h, found)

end HashTable

/-- The calls on a hash table. -/
inductive HashCall (Elem : Type u) where
  | insert (e : Elem)
  | replace (e : Elem)
  | find (e : Elem)
  | delete (e : Elem)
  | clear (destructor : Bool)

/-- What a call gives back: an element or a null pointer, or the elements that
were destroyed. -/
inductive HashResult (Elem : Type u) where
  | elem (found : Option Elem)
  | destroyed (elems : List Elem)

namespace HashTable

variable {Elem : Type u} [DecidableEq Elem]

/-- One call, with the outcome of an allocation in it. -/
def call (key : HashKey Elem) (h : HashTable Elem) (malloc : Bool) :
    HashCall Elem → Option (HashTable Elem × HashResult Elem)
  | .insert e =>
      (h.hashInsert key e malloc).map fun (h, old) => (h, .elem old)
  | .replace e =>
      (h.hashReplace key e malloc).map fun (h, old) => (h, .elem old)
  | .find e => (h.hashFind key e).map fun found => (h, .elem found)
  | .delete e =>
      (h.hashDelete key e malloc).map fun (h, found) => (h, .elem found)
  | .clear destructor =>
      some ((h.hashClear destructor).1, .destroyed (h.hashClear destructor).2)

/-- Calls one after another, with their results. -/
def run (key : HashKey Elem) (h : HashTable Elem) :
    List (HashCall Elem × Bool) →
      Option (HashTable Elem × List (HashResult Elem))
  | [] => some (h, [])
  | (next, malloc) :: rest => do
      let (h, result) ← h.call key malloc next
      let (h, results) ← h.run key rest
      some (h, result :: results)

end HashTable

end CS162.Kernel

import Mathlib.Data.List.Basic
import Mathlib.Logic.Function.Basic

/-!
# Ring buffers

A circular buffer of `size` slots with a position to write at and a position to
read at.  It is empty when the two are equal, so one slot is never in use.  Its
contents are a queue.
-/

namespace CS162.Foundation

universe u

/-- Slots, and the positions of the next write and of the next read. -/
structure RingBuffer (Item : Type u) (size : Nat) where
  buf : Nat → Item
  head : Nat
  tail : Nat
  head_lt : head < size
  tail_lt : tail < size

namespace RingBuffer

variable {Item : Type u} {size : Nat}

/-- The position after another. -/
def next (size pos : Nat) : Nat := (pos + 1) % size

theorem next_lt {pos : Nat} (bound : pos < size) : next size pos < size :=
  Nat.mod_lt _ (Nat.zero_lt_of_lt bound)

/-- The position is one more, or starts again at zero. -/
theorem next_eq {pos : Nat} (bound : pos < size) :
    next size pos = if pos + 1 = size then 0 else pos + 1 := by
  rw [next]
  by_cases last : pos + 1 = size
  · rw [if_pos last, last, Nat.mod_self]
  · rw [if_neg last, Nat.mod_eq_of_lt (by omega)]

def clear (buf : Nat → Item) (positive : 0 < size) : RingBuffer Item size where
  buf := buf
  head := 0
  tail := 0
  head_lt := positive
  tail_lt := positive

def isEmpty (ring : RingBuffer Item size) : Bool := ring.head = ring.tail

def isFull (ring : RingBuffer Item size) : Bool := next size ring.head = ring.tail

/-- Write one item. -/
def put (ring : RingBuffer Item size) (item : Item) : RingBuffer Item size where
  buf := Function.update ring.buf ring.head item
  head := next size ring.head
  tail := ring.tail
  head_lt := next_lt ring.head_lt
  tail_lt := ring.tail_lt

/-- The item that is read next. -/
def first (ring : RingBuffer Item size) : Item := ring.buf ring.tail

/-- Read one item. -/
def drop (ring : RingBuffer Item size) : RingBuffer Item size where
  buf := ring.buf
  head := ring.head
  tail := next size ring.tail
  head_lt := ring.head_lt
  tail_lt := next_lt ring.tail_lt

/-- How many items there are. -/
def length (ring : RingBuffer Item size) : Nat :=
  if ring.tail ≤ ring.head then ring.head - ring.tail
  else ring.head + size - ring.tail

/-- The slot that is some positions after the next one to read. -/
def slot (ring : RingBuffer Item size) (offset : Nat) : Nat :=
  if ring.tail + offset < size then ring.tail + offset
  else ring.tail + offset - size

/-- The items in the order in which they will be read. -/
def contents (ring : RingBuffer Item size) : List Item :=
  (List.range ring.length).map fun offset => ring.buf (ring.slot offset)

theorem length_contents (ring : RingBuffer Item size) : ring.contents.length = ring.length := by
  rw [contents, List.length_map, List.length_range]

theorem length_lt (ring : RingBuffer Item size) : ring.length < size := by
  have headBound := ring.head_lt
  have tailBound := ring.tail_lt
  rw [length]
  split <;> omega

theorem isEmpty_iff (ring : RingBuffer Item size) : ring.isEmpty = true ↔ ring.contents = [] := by
  have headBound := ring.head_lt
  have tailBound := ring.tail_lt
  rw [isEmpty, decide_eq_true_eq, ← List.length_eq_zero_iff, length_contents, length]
  constructor
  · intro same
    rw [if_pos (by omega)]
    omega
  · intro zero
    split at zero <;> omega

theorem isFull_iff (ring : RingBuffer Item size) : ring.isFull = true ↔ ring.length + 1 = size := by
  have headBound := ring.head_lt
  have tailBound := ring.tail_lt
  rw [isFull, decide_eq_true_eq, next_eq headBound, length]
  constructor
  · intro same
    split at same <;> split <;> omega
  · intro full
    split at full <;> split <;> omega

/-- A slot in use is not the one that is written next. -/
theorem slot_ne_head {ring : RingBuffer Item size} {offset : Nat}
    (inUse : offset < ring.length) : ring.slot offset ≠ ring.head := by
  have headBound := ring.head_lt
  have tailBound := ring.tail_lt
  rw [length] at inUse
  rw [slot]
  split at inUse <;> split <;> omega

theorem slot_length (ring : RingBuffer Item size) : ring.slot ring.length = ring.head := by
  have headBound := ring.head_lt
  have tailBound := ring.tail_lt
  rw [slot, length]
  split
  · split <;> omega
  · split <;> omega

theorem length_put {ring : RingBuffer Item size} (room : ring.isFull = false)
    (item : Item) : (ring.put item).length = ring.length + 1 := by
  have headBound := ring.head_lt
  have tailBound := ring.tail_lt
  rw [isFull, decide_eq_false_iff_not, next_eq headBound] at room
  change (if ring.tail ≤ next size ring.head then
    next size ring.head - ring.tail else
      next size ring.head + size - ring.tail) = _
  rw [next_eq headBound, length]
  by_cases last : ring.head + 1 = size
  · rw [if_pos last] at room ⊢
    split <;> split <;> omega
  · rw [if_neg last] at room ⊢
    split <;> split <;> omega

/-- An item is written behind the others. -/
theorem contents_put {ring : RingBuffer Item size} (room : ring.isFull = false)
    (item : Item) : (ring.put item).contents = ring.contents ++ [item] := by
  rw [contents, length_put room, List.range_succ, List.map_append, contents]
  congr 1
  · apply List.map_congr_left
    intro offset inUse
    exact Function.update_of_ne (slot_ne_head (List.mem_range.mp inUse)) _ _
  · change [Function.update ring.buf ring.head item (ring.slot ring.length)] = _
    rw [slot_length, Function.update_self]

theorem length_drop {ring : RingBuffer Item size}
    (some : ring.isEmpty = false) : ring.drop.length + 1 = ring.length := by
  have headBound := ring.head_lt
  have tailBound := ring.tail_lt
  rw [isEmpty, decide_eq_false_iff_not] at some
  change (if next size ring.tail ≤ ring.head then
    ring.head - next size ring.tail else
      ring.head + size - next size ring.tail) + 1 = _
  rw [next_eq tailBound, length]
  split <;> split <;> split <;> omega

/-- The first item is read, and the others remain. -/
theorem contents_drop {ring : RingBuffer Item size} (some : ring.isEmpty = false) :
    ring.contents = ring.first :: ring.drop.contents := by
  have tailBound := ring.tail_lt
  have less := length_drop some
  have bound := ring.length_lt
  rw [contents, ← less, List.range_succ_eq_map, List.map_cons, List.map_map]
  congr 1
  · rw [slot, Nat.add_zero, if_pos tailBound]
    rfl
  · apply List.map_congr_left
    intro offset inUse
    have inUse := List.mem_range.mp inUse
    change ring.buf (ring.slot (offset + 1)) = ring.buf (ring.drop.slot offset)
    congr 1
    change _ = if next size ring.tail + offset < size then
      next size ring.tail + offset else next size ring.tail + offset - size
    rw [slot, next_eq tailBound]
    split <;> split <;> split <;> omega

end RingBuffer

end CS162.Foundation

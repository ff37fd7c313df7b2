import Mathlib.Data.List.GetD
import CS162.Foundation.Memory

/-!
# Byte strings

Strings of bytes as `pack` makes them, and the contents of a file or a disk that
they are written to.
-/

namespace CS162.Foundation

/-- `pack ("C", value)` -/
def packC (value : Nat) : UInt8 := UInt8.ofNat value

/-- `pack ("v", value)` -/
def packShort (value : Nat) : List UInt8 := [Memory.byteOf value 0, Memory.byteOf value 1]

/-- `pack ("V", value)` -/
def packV (value : Nat) : List UInt8 :=
  [Memory.byteOf value 0, Memory.byteOf value 1, Memory.byteOf value 2, Memory.byteOf value 3]

/-- `pack ("a<size>", bytes)` -/
def packA (size : Nat) (bytes : List UInt8) : List UInt8 :=
  (bytes ++ List.replicate size 0).take size

theorem length_packA (size : Nat) (bytes : List UInt8) : (packA size bytes).length = size := by
  rw [packA, List.length_take, List.length_append, List.length_replicate]
  omega

/-- Bytes that fit are followed by null bytes. -/
theorem packA_of_le {size : Nat} {bytes : List UInt8} (fits : bytes.length ≤ size) :
    packA size bytes = bytes ++ List.replicate (size - bytes.length) 0 := by
  rw [packA, List.take_append, List.take_of_length_le fits, List.take_replicate,
    Nat.min_eq_left (Nat.sub_le _ _)]

namespace Memory

/-- A disk that begins with these bytes and is zero behind them. -/
def ofBytes (bytes : List UInt8) : Memory := fun place => bytes.getD place 0

variable {left right : List UInt8}

theorem ofBytes_append_agreeOn (left right : List UInt8) :
    (ofBytes (left ++ right)).AgreeOn (ofBytes left) 0 left.length := by
  intro place _ inside
  rw [ofBytes, ofBytes, List.getD_append _ _ _ _ inside]

theorem ofBytes_append_drop (left right : List UInt8) :
    (ofBytes (left ++ right)).drop left.length = ofBytes right := by
  funext place
  rw [drop, ofBytes, ofBytes, List.getD_append_right _ _ _ _ (Nat.le_add_right _ _),
    Nat.add_sub_cancel_left]

/-- What is behind a first part of known length. -/
theorem ofBytes_drop_of_length {start : Nat} (length : left.length = start) :
    (ofBytes (left ++ right)).drop start = ofBytes right := by
  rw [← length]
  exact ofBytes_append_drop left right

theorem ofBytes_replicate (size : Nat) : ofBytes (List.replicate size 0) = fun _ => 0 := by
  funext place
  rw [ofBytes, List.getD_eq_getElem?_getD, List.getElem?_replicate]
  split
  · rfl
  · rfl

theorem byteOf_toNat (value index : Nat) :
    (byteOf value index).toNat = value / 256 ^ index % 256 := by
  rw [byteOf, UInt8.toNat_ofNat']

/-- A byte of the word at an address. -/
theorem byteOf_load32 (memory : Memory) (address : Nat) {index : Nat} (inWord : index < 4) :
    byteOf (memory.load32 address) index = memory (address + index) := by
  have first := (memory address).toNat_lt
  have second := (memory (address + 1)).toNat_lt
  have third := (memory (address + 2)).toNat_lt
  have fourth := (memory (address + 3)).toNat_lt
  apply UInt8.toNat.inj
  rw [byteOf_toNat, load32]
  have cases : index = 0 ∨ index = 1 ∨ index = 2 ∨ index = 3 := by omega
  rcases cases with zero | one | two | three
  · subst zero
    simp only [Nat.pow_zero, Nat.div_one, Nat.add_zero]
    omega
  · subst one
    simp only [Nat.pow_one]
    omega
  · subst two
    simp only [Nat.reducePow]
    omega
  · subst three
    simp only [Nat.reducePow]
    omega

/-- A packed word is read back. -/
theorem load32_of_packed {memory : Memory} {place value : Nat} (small : value < unsignedModulus)
    (packed : ∀ index, index < 4 → memory (place + index) = byteOf value index) :
    memory.load32 place = value := by
  have first := packed 0 (by omega)
  have second := packed 1 (by omega)
  have third := packed 2 (by omega)
  have fourth := packed 3 (by omega)
  rw [Nat.add_zero] at first
  rw [load32, first, second, third, fourth, byteOf_toNat, byteOf_toNat, byteOf_toNat, byteOf_toNat]
  unfold unsignedModulus at small
  simp only [Nat.pow_zero, Nat.div_one, Nat.reducePow]
  omega

/-- What is read from each of equally long strings that follow each other. -/
theorem map_range_flatten {Value : Type} {width : Nat} {read : Memory → Value}
    (ofFirst : ∀ memory other : Memory, memory.AgreeOn other 0 width → read memory = read other)
    {blocks : List (List UInt8)} (widths : ∀ block ∈ blocks, block.length = width)
    (tail : List UInt8) :
    ((List.range blocks.length).map fun i =>
        read ((ofBytes (blocks.flatten ++ tail)).drop (width * i))) =
      blocks.map fun block => read (ofBytes block) := by
  induction blocks with
  | nil => rfl
  | cons block rest inductionHypothesis =>
      have here := widths block List.mem_cons_self
      have later := inductionHypothesis
        (fun other member => widths other (List.mem_cons_of_mem block member))
      rw [List.length_cons, List.range_succ_eq_map, List.map_cons, List.map_map,
        List.map_cons, ← later]
      congr 1
      · rw [Nat.mul_zero, List.flatten_cons, List.append_assoc]
        apply ofFirst
        intro place lower upper
        rw [drop, Nat.zero_add]
        apply ofBytes_append_agreeOn block _ place lower
        omega
      · apply List.map_congr_left
        intro i _
        change read ((ofBytes ((block :: rest).flatten ++ tail)).drop (width * (i + 1))) = _
        rw [Nat.mul_add, Nat.mul_one, Nat.add_comm, ← drop_drop,
          List.flatten_cons, List.append_assoc, ofBytes_drop_of_length here]

end Memory

end CS162.Foundation

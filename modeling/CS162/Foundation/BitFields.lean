import Mathlib.Data.List.Basic
import Mathlib.Algebra.Order.Ring.Nat

/-!
# Fields of a machine word

A field is given by its mask.  Setting or clearing one field leaves every field
alone whose mask has no bit in common with it.
-/

namespace CS162.Foundation.BitFields

variable {width : Nat}

theorem or_and_apart (word : BitVec width) {field mask : BitVec width}
    (apart : field &&& mask = BitVec.ofNat width 0) :
    (word ||| field) &&& mask = word &&& mask := by
  rw [BitVec.and_or_distrib_right, apart, BitVec.or_zero]

theorem compl_and_of_apart {field mask : BitVec width}
    (apart : field &&& mask = BitVec.ofNat width 0) : ~~~field &&& mask = mask := by
  calc
    ~~~field &&& mask = (field &&& mask) ||| (~~~field &&& mask) := by
      rw [apart, BitVec.zero_or]
    _ = (field ||| ~~~field) &&& mask := BitVec.and_or_distrib_right.symm
    _ = mask := by
      rw [BitVec.or_not_self, BitVec.allOnes_and]

theorem clear_and_apart (word : BitVec width) {field mask : BitVec width}
    (apart : field &&& mask = BitVec.ofNat width 0) :
    (word &&& ~~~field) &&& mask = word &&& mask := by
  rw [BitVec.and_assoc, compl_and_of_apart apart]

theorem or_and_self (word field : BitVec width) : (word ||| field) &&& field = field := by
  ext place inWord
  rw [BitVec.getElem_and, BitVec.getElem_or]
  cases field[place] <;> cases word[place] <;> rfl

theorem clear_and_self (word field : BitVec width) :
    (word &&& ~~~field) &&& field = BitVec.ofNat width 0 := by
  rw [BitVec.and_assoc, BitVec.not_and_self]
  exact BitVec.and_zero

/-- A word that has no bit in a mask is what remains of it outside of the mask. -/
theorem and_compl_of_apart {word mask : BitVec width}
    (apart : word &&& mask = BitVec.ofNat width 0) : word &&& ~~~mask = word := by
  rw [BitVec.and_comm] at apart ⊢
  exact compl_and_of_apart apart

theorem toNat_and_low (word : BitVec width) {bits : Nat} (fits : bits < width) :
    (word &&& BitVec.ofNat width (2 ^ bits - 1)).toNat = word.toNat % 2 ^ bits := by
  have small : 2 ^ bits - 1 < 2 ^ width := by
    have less : 2 ^ bits < 2 ^ width := Nat.pow_lt_pow_right Nat.one_lt_two fits
    exact Nat.lt_of_le_of_lt (Nat.sub_le _ 1) less
  rw [BitVec.toNat_and, BitVec.toNat_ofNat, Nat.mod_eq_of_lt small, Nat.and_two_pow_sub_one_eq_mod]

theorem and_low_eq_zero_iff (word : BitVec width) {bits : Nat} (fits : bits < width) :
    word &&& BitVec.ofNat width (2 ^ bits - 1) = BitVec.ofNat width 0 ↔
      word.toNat % 2 ^ bits = 0 := by
  rw [← toNat_and_low word fits]
  constructor
  · intro zero
    rw [zero]
    exact BitVec.toNat_zero
  · intro zero
    apply BitVec.eq_of_toNat_eq
    rw [zero]
    exact BitVec.toNat_zero.symm

/-- What remains of a word outside of a mask. -/
theorem toNat_and_compl (word mask : BitVec width) :
    (word &&& ~~~mask).toNat = word.toNat - (word &&& mask).toNat := by
  have apart : (word &&& mask) &&& (word &&& ~~~mask) = BitVec.ofNat width 0 := by
    calc
      (word &&& mask) &&& (word &&& ~~~mask) =
          word &&& (mask &&& (word &&& ~~~mask)) := BitVec.and_assoc word mask _
      _ = word &&& ((word &&& ~~~mask) &&& mask) := by rw [BitVec.and_comm mask]
      _ = BitVec.ofNat width 0 := by
        rw [clear_and_self, BitVec.and_zero]
  have whole : (word &&& mask) + (word &&& ~~~mask) = word := by
    rw [BitVec.add_eq_or_of_and_eq_zero _ _ apart, ← BitVec.and_or_distrib_left,
      BitVec.or_not_self, BitVec.and_allOnes]
  have sum := BitVec.toNat_add_of_and_eq_zero apart
  rw [whole] at sum
  omega

end CS162.Foundation.BitFields

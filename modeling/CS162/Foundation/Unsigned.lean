import Mathlib.Algebra.Order.Ring.Nat
import Mathlib.Data.Nat.ModEq

/-!
# Unsigned machine arithmetic

`unsigned` and `size_t` are 32 bits wide; sums and products wrap around.
-/

namespace CS162.Foundation

/-- The number of values of `unsigned` and of `size_t`. -/
def unsignedModulus : Nat := 2 ^ 32

/-- The value that a mathematical result has in 32 bits. -/
def wrap (value : Nat) : Nat := value % unsignedModulus

theorem wrap_of_lt {value : Nat} (small : value < unsignedModulus) : wrap value = value :=
  Nat.mod_eq_of_lt small

theorem wrap_lt (value : Nat) : wrap value < unsignedModulus := Nat.mod_lt value (by decide)

theorem wrap_le (value : Nat) : wrap value ≤ value := Nat.mod_le value unsignedModulus

/-- The value that a mathematical result has in 32 bits with a sign. -/
def wrapSigned (value : Int) : Int := (value + 2147483648) % 4294967296 - 2147483648

theorem wrapSigned_of_lt {value : Int} (lower : -2147483648 ≤ value)
    (upper : value < 2147483648) : wrapSigned value = value := by
  unfold wrapSigned
  omega

theorem wrapSigned_lt (value : Int) : wrapSigned value < 2147483648 := by
  unfold wrapSigned
  omega

/-- The bits of a signed value as an unsigned one. -/
def toUnsigned (value : Int) : Nat := (value % 4294967296).toNat

/-- `DIV_ROUND_UP`, where the sum does not wrap around. -/
def divRoundUp (value step : Nat) : Nat := (value + step - 1) / step

section DivRoundUp

variable {value step : Nat}

theorem le_divRoundUp_mul (value : Nat) (positive : 0 < step) :
    value ≤ divRoundUp value step * step := by
  have remainder := Nat.mod_add_div (value + step - 1) step
  have small := Nat.mod_lt (value + step - 1) positive
  have commuted : step * divRoundUp value step = divRoundUp value step * step := Nat.mul_comm _ _
  unfold divRoundUp at *
  omega

theorem divRoundUp_mul_lt (value : Nat) (positive : 0 < step) :
    divRoundUp value step * step < value + step := by
  have bound := Nat.div_mul_le_self (value + step - 1) step
  unfold divRoundUp
  omega

end DivRoundUp

end CS162.Foundation

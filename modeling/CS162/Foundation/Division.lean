import Mathlib.Tactic.Ring
import Mathlib.Tactic.Linarith

/-!
# Division by the leading digits of the divisor

A quotient of two numbers of two words each is estimated from a division of two
words by one: half of the dividend is divided by the leading bits of the divisor.
The estimate is the quotient or one more.
-/

namespace CS162.Foundation

/-- The leading bits of the divisor, and the divisor without the others. -/
theorem leading_bounds (d k : Nat) :
    d / 2 ^ (k + 1) * 2 ^ (k + 1) ≤ d ∧
      d ≤ d / 2 ^ (k + 1) * 2 ^ (k + 1) + (2 ^ (k + 1) - 1) := by
  have positive : 0 < 2 ^ (k + 1) := Nat.two_pow_pos (k + 1)
  have whole := Nat.div_add_mod' d (2 ^ (k + 1))
  have rest := Nat.mod_lt d positive
  omega

/-- The dividend is halved before it is divided. -/
theorem estimate_eq (n v k : Nat) : n / 2 / v / 2 ^ k = n / (v * 2 ^ (k + 1)) := by
  rw [Nat.div_div_eq_div_mul, Nat.div_div_eq_div_mul]
  congr 1
  ring

section Estimate

variable {n d w k : Nat}

theorem quotient_le_estimate (leading : 0 < d / 2 ^ (k + 1)) :
    n / d ≤ n / 2 / (d / 2 ^ (k + 1)) / 2 ^ k := by
  rw [estimate_eq]
  apply Nat.div_le_div_left (leading_bounds d k).1
  exact Nat.mul_pos leading (Nat.two_pow_pos (k + 1))

/-- Where the leading bits fill a word, the error of the estimate, times the
divisor, is at most the divisor. -/
theorem estimate_mul_le (twoWords : n < 2 ^ (2 * w)) (normal : 2 ^ w ≤ d / 2 ^ (k + 1) * 2) :
    n / (d / 2 ^ (k + 1) * 2 ^ (k + 1)) * (2 ^ (k + 1) - 1) ≤ d := by
  have bounds := leading_bounds d k
  generalize d / 2 ^ (k + 1) = v at *
  generalize estimate : n / (v * 2 ^ (k + 1)) = q
  have product : q * (v * 2 ^ (k + 1)) ≤ n := by
    rw [← estimate]
    exact Nat.div_mul_le_self n _
  have square : 2 ^ (2 * w) = 2 ^ w * 2 ^ w := by
    rw [Nat.two_mul, Nat.pow_add]
  have small : q * 2 ^ k < 2 ^ w := by
    by_contra large
    have least : 2 ^ w * 2 ^ w ≤ q * 2 ^ k * (v * 2) := Nat.mul_le_mul (not_lt.mp large) normal
    have same : q * 2 ^ k * (v * 2) = q * (v * 2 ^ (k + 1)) := by ring
    omega
  have whole : 2 ^ w * 2 ^ k ≤ v * 2 ^ (k + 1) := by
    have scaled := Nat.mul_le_mul_right (2 ^ k) normal
    have same : v * 2 * 2 ^ k = v * 2 ^ (k + 1) := by ring
    omega
  cases k with
  | zero =>
      have one : q * (2 ^ (0 + 1) - 1) = q := by simp
      simp only [Nat.pow_zero, Nat.mul_one] at small whole
      omega
  | succ k =>
      have less : q * (2 ^ (k + 1 + 1) - 1) ≤ q * 2 ^ (k + 1) * 2 := by
        have same : q * 2 ^ (k + 1) * 2 = q * 2 ^ (k + 1 + 1) := by ring
        rw [same]
        exact Nat.mul_le_mul_left q (Nat.sub_le _ _)
      have double : 2 ^ w * 2 ≤ 2 ^ w * 2 ^ (k + 1) := by
        apply Nat.mul_le_mul_left
        exact Nat.le_self_pow (Nat.succ_ne_zero k) 2
      omega

theorem estimate_le_succ_quotient (twoWords : n < 2 ^ (2 * w)) (positive : 0 < d)
    (normal : 2 ^ w ≤ d / 2 ^ (k + 1) * 2) :
    n / 2 / (d / 2 ^ (k + 1)) / 2 ^ k ≤ n / d + 1 := by
  have error := estimate_mul_le twoWords normal
  have bounds := leading_bounds d k
  rw [estimate_eq]
  generalize d / 2 ^ (k + 1) = v at *
  generalize estimate : n / (v * 2 ^ (k + 1)) = q at *
  have product : q * (v * 2 ^ (k + 1)) ≤ n := by
    rw [← estimate]
    exact Nat.div_mul_le_self n _
  have multiple : q * d ≤ n + d := by
    calc
      q * d ≤ q * (v * 2 ^ (k + 1) + (2 ^ (k + 1) - 1)) := Nat.mul_le_mul_left q bounds.2
      _ = q * (v * 2 ^ (k + 1)) + q * (2 ^ (k + 1) - 1) := Nat.mul_add _ _ _
      _ ≤ n + d := Nat.add_le_add product error
  rw [← Nat.add_div_right n positive]
  exact (Nat.le_div_iff_mul_le positive).mpr multiple

/-- An estimate that is at most one too large is made right by one
multiplication. -/
theorem corrected_estimate {q : Nat} (positive : 0 < d) (least : n / d ≤ q)
    (most : q ≤ n / d + 1) (some : 0 < q) :
    (q - 1) * d ≤ n ∧ (if n - (q - 1) * d < d then q - 1 else q) = n / d := by
  have whole := Nat.div_add_mod' n d
  have rest := Nat.mod_lt n positive
  rcases Nat.eq_or_lt_of_le least with same | larger
  · rw [← same] at some ⊢
    have split : n / d * d = (n / d - 1) * d + d := by
      conv_lhs => rw [← Nat.sub_add_cancel some]
      ring
    refine ⟨by omega, ?_⟩
    rw [if_neg (by omega)]
  · have next : q - 1 = n / d := by omega
    rw [next]
    refine ⟨by omega, ?_⟩
    rw [if_pos (by omega)]

end Estimate

/-- The remainder of the first word is at most the divisor minus one, so that the
quotient of the rest fits into a word. -/
theorem second_digit_lt {n1 n0 d b : Nat} (positive : 0 < d) (digit : n0 < b) :
    (b * (n1 % d) + n0) / d < b := by
  have rest := Nat.mod_lt n1 positive
  rw [Nat.div_lt_iff_lt_mul positive]
  have scaled : b * (n1 % d + 1) ≤ b * d := Nat.mul_le_mul_left b rest
  rw [Nat.mul_add, Nat.mul_one] at scaled
  omega

/-- Division digit by digit. -/
theorem div_by_digits (n1 n0 d b : Nat) (positive : 0 < d) :
    (b * (n1 % d) + n0) / d + b * (n1 / d) = (b * n1 + n0) / d := by
  have whole := Nat.div_add_mod n1 d
  have split : b * n1 + n0 = b * (n1 % d) + n0 + d * (b * (n1 / d)) := by
    conv_lhs => rw [← whole]
    ring
  rw [split, Nat.add_mul_div_left _ _ positive]

end CS162.Foundation

import Mathlib.Data.BitVec
import CS162.Foundation.Division

/-!
# 64-bit division

`lib/arithmetic.c`: the functions that the compiler calls for the division of 64-bit
numbers.  A division error of the processor is `none`.
-/

namespace CS162.Lib

open CS162.Foundation

/-- `divl`. -/
def divl (n : BitVec 64) (d : BitVec 32) : Option (BitVec 32) :=
  if d = 0#32 ∨ 2 ^ 32 ≤ n.toNat / d.toNat then none
  else some (BitVec.ofNat 32 (n.toNat / d.toNat))

/-- One step of `nlz`: the count and the number, which is shifted if it has that many
leading zero bits. -/
def nlzStep (bits : Nat) (counted : Nat × BitVec 32) : Nat × BitVec 32 :=
  if counted.2.toNat ≤ 2 ^ (32 - bits) - 1 then
    (counted.1 + bits, counted.2 <<< bits)
  else counted

/-- `nlz`. -/
def nlz (x : BitVec 32) : Nat :=
  (nlzStep 1 (nlzStep 2 (nlzStep 4 (nlzStep 8 (nlzStep 16 (0, x)))))).1

/-- `udiv64`. -/
def udiv64 (n d : BitVec 64) : Option (BitVec 64) :=
  if d >>> 32 = 0#64 then
    let b : BitVec 64 := 1#64 <<< 32
    let n1 := (n >>> 32).setWidth 32
    let n0 := n.setWidth 32
    let d0 := d.setWidth 32
    (divl (b * (n1 % d0).setWidth 64 + n0.setWidth 64) d0).map fun q =>
      q.setWidth 64 + b * (n1 / d0).setWidth 64
  else if n < d then some 0#64
  else
    let d1 := (d >>> 32).setWidth 32
    let s := nlz d1
    (divl (n >>> 1) (((d <<< s) >>> 32).setWidth 32)).map fun (quotient : BitVec 32) =>
      let q := (quotient >>> (31 - s)).setWidth 64
      if n - (q - 1#64) * d < d then q - 1#64 else q

/-- `umod64`, whose result has 32 bits. -/
def umod64 (n d : BitVec 64) : Option (BitVec 32) :=
  (udiv64 n d).map fun q => (n - d * q).setWidth 32

/-- `sdiv64`. -/
def sdiv64 (n d : BitVec 64) : Option (BitVec 64) :=
  let nAbs := if 0 ≤ n.toInt then n else -n
  let dAbs := if 0 ≤ d.toInt then d else -d
  (udiv64 nAbs dAbs).map fun qAbs =>
    if decide (n.toInt < 0) = decide (d.toInt < 0) then qAbs else -qAbs

/-- `smod64`, whose result has 32 bits. -/
def smod64 (n d : BitVec 64) : Option (BitVec 32) :=
  (sdiv64 n d).map fun q => (n - d * q).setWidth 32

/-- `__divdi3`. -/
def divdi3 (n d : BitVec 64) : Option (BitVec 64) := sdiv64 n d

/-- `__moddi3`. -/
def moddi3 (n d : BitVec 64) : Option (BitVec 64) := (smod64 n d).map fun r => r.signExtend 64

/-- `__udivdi3`. -/
def udivdi3 (n d : BitVec 64) : Option (BitVec 64) := udiv64 n d

/-- `__umoddi3`. -/
def umoddi3 (n d : BitVec 64) : Option (BitVec 64) := (umod64 n d).map fun r => r.setWidth 64

/-! ## Leading zero bits -/

section LeadingZeros

variable {x : BitVec 32} {counted : Nat × BitVec 32} {bits most : Nat}

/-- The number has been shifted as far as has been counted, and its leading bit is
among the first ones. -/
structure Shifted (x : BitVec 32) (counted : Nat × BitVec 32) (most first : Nat) : Prop where
  value : counted.2.toNat = x.toNat * 2 ^ counted.1
  count : counted.1 ≤ most
  high : 2 ^ (32 - first) ≤ counted.2.toNat

/-- A step halves the number of bits among which the leading one is. -/
theorem Shifted.step (shifted : Shifted x counted most (2 * bits))
    (small : bits ≤ 16) : Shifted x (nlzStep bits counted) (most + bits) bits := by
  have positive := Nat.two_pow_pos (32 - bits)
  rw [nlzStep]
  by_cases low : counted.2.toNat ≤ 2 ^ (32 - bits) - 1
  · rw [if_pos low]
    have fits : counted.2.toNat * 2 ^ bits < 2 ^ 32 := by
      have scaled : counted.2.toNat * 2 ^ bits < 2 ^ (32 - bits) * 2 ^ bits :=
        Nat.mul_lt_mul_of_pos_right (by omega) (Nat.two_pow_pos bits)
      rw [← Nat.pow_add, Nat.sub_add_cancel (by omega)] at scaled
      exact scaled
    have moved : (counted.2 <<< bits).toNat = counted.2.toNat * 2 ^ bits := by
      rw [BitVec.toNat_shiftLeft, Nat.shiftLeft_eq, Nat.mod_eq_of_lt fits]
    constructor
    · dsimp only
      rw [moved, shifted.value, Nat.pow_add, Nat.mul_assoc]
    · exact Nat.add_le_add_right shifted.count bits
    · dsimp only
      rw [moved]
      have scaled := Nat.mul_le_mul_right (2 ^ bits) shifted.high
      have exponent : 32 - 2 * bits + bits = 32 - bits := by omega
      rw [← Nat.pow_add, exponent] at scaled
      exact scaled
  · rw [if_neg low]
    constructor
    · exact shifted.value
    · exact shifted.count.trans (Nat.le_add_right most bits)
    · omega

/-- `nlz` counts the leading zero bits. -/
theorem nlz_spec (nonzero : x ≠ 0#32) :
    nlz x ≤ 31 ∧ 2 ^ 31 ≤ x.toNat * 2 ^ nlz x ∧ x.toNat * 2 ^ nlz x < 2 ^ 32 := by
  have start : Shifted x (0, x) 0 (2 * 16) := by
    constructor
    · exact (Nat.mul_one x.toNat).symm
    · exact le_refl 0
    · have positive : x.toNat ≠ 0 := fun zero => nonzero (BitVec.eq_of_toNat_eq zero)
      exact Nat.one_le_iff_ne_zero.mpr positive
  have first : Shifted x _ 16 (2 * 8) := start.step (by omega)
  have second : Shifted x _ 24 (2 * 4) := first.step (by omega)
  have third : Shifted x _ 28 (2 * 2) := second.step (by omega)
  have fourth : Shifted x _ 30 (2 * 1) := third.step (by omega)
  have last : Shifted x _ 31 1 := fourth.step (by omega)
  have high := last.high
  have bound := BitVec.isLt (nlzStep 1 (nlzStep 2 (nlzStep 4 (nlzStep 8 (nlzStep 16 (0, x)))))).2
  rw [last.value] at high bound
  exact ⟨last.count, high, bound⟩

end LeadingZeros

/-! ## Unsigned division -/

section Unsigned

variable {n d : BitVec 64}

theorem divl_eq {m : BitVec 64} {e : BitVec 32} (nonzero : e.toNat ≠ 0)
    (fits : m.toNat / e.toNat < 2 ^ 32) :
    ∃ q, divl m e = some q ∧ q.toNat = m.toNat / e.toNat := by
  refine ⟨BitVec.ofNat 32 (m.toNat / e.toNat), ?_, ?_⟩
  · have divides : ¬(e = 0#32 ∨ 2 ^ 32 ≤ m.toNat / e.toNat) := by
      rintro (zero | large)
      · exact nonzero (congrArg BitVec.toNat zero)
      · omega
    rw [divl, if_neg divides]
  · rw [BitVec.toNat_ofNat, Nat.mod_eq_of_lt fits]

/-- The divisor has one word. -/
theorem udiv64_small (nonzero : d ≠ 0#64) (small : d.toNat < 2 ^ 32) :
    ∃ q, udiv64 n d = some q ∧ q.toNat = n.toNat / d.toNat := by
  have upper : d >>> 32 = 0#64 := by
    apply BitVec.eq_of_toNat_eq
    rw [BitVec.toNat_ushiftRight, Nat.shiftRight_eq_div_pow]
    exact Nat.div_eq_of_lt small
  have positive : 0 < d.toNat := by
    rw [Nat.pos_iff_ne_zero]
    exact fun zero => nonzero (BitVec.eq_of_toNat_eq zero)
  have bound := n.isLt
  rw [udiv64, if_pos upper]
  dsimp only
  have base : (1#64 <<< 32).toNat = 2 ^ 32 := rfl
  have d0 : (d.setWidth 32).toNat = d.toNat := by
    rw [BitVec.toNat_setWidth, Nat.mod_eq_of_lt small]
  have n1 : ((n >>> 32).setWidth 32).toNat = n.toNat / 2 ^ 32 := by
    rw [BitVec.toNat_setWidth, BitVec.toNat_ushiftRight, Nat.shiftRight_eq_div_pow]
    exact Nat.mod_eq_of_lt (by omega)
  have n0 : (n.setWidth 32).toNat = n.toNat % 2 ^ 32 := BitVec.toNat_setWidth 32 n
  generalize (n >>> 32).setWidth 32 = high at *
  generalize n.setWidth 32 = low at *
  generalize d.setWidth 32 = divisor at *
  generalize 1#64 <<< 32 = b at *
  have digit : n.toNat % 2 ^ 32 < 2 ^ 32 := Nat.mod_lt _ (by decide)
  have fits := @second_digit_lt (n.toNat / 2 ^ 32) _ _ _ positive digit
  have rest := Nat.mod_lt (n.toNat / 2 ^ 32) positive
  have dividend : (b * (high % divisor).setWidth 64 + low.setWidth 64).toNat =
      2 ^ 32 * (n.toNat / 2 ^ 32 % d.toNat) + n.toNat % 2 ^ 32 := by
    rw [BitVec.toNat_add, BitVec.toNat_mul, BitVec.toNat_setWidth,
      BitVec.toNat_setWidth, BitVec.toNat_umod, base, n1, d0, n0]
    generalize n.toNat / 2 ^ 32 % d.toNat = r at *
    omega
  have nonzero0 : divisor.toNat ≠ 0 := by omega
  rw [← dividend, ← d0] at fits
  rcases divl_eq nonzero0 fits with ⟨q, divided, value⟩
  refine ⟨_, congrArg (Option.map _) divided, ?_⟩
  have whole := div_by_digits (n.toNat / 2 ^ 32) (n.toNat % 2 ^ 32) d.toNat (2 ^ 32) positive
  rw [Nat.div_add_mod] at whole
  have quotient := Nat.div_le_self n.toNat d.toNat
  rw [dividend, d0] at value
  rw [BitVec.toNat_add, BitVec.toNat_mul, BitVec.toNat_setWidth,
    BitVec.toNat_setWidth, BitVec.toNat_udiv, base, n1, d0, value]
  generalize n.toNat / 2 ^ 32 / d.toNat = upperDigit at *
  generalize (2 ^ 32 * (n.toNat / 2 ^ 32 % d.toNat) + n.toNat % 2 ^ 32) / d.toNat = lowerDigit at *
  omega

/-- The leading 32 bits of a divisor of two words. -/
theorem leading_bits {s : Nat} (most : s ≤ 31) (high : 2 ^ 31 ≤ d.toNat / 2 ^ 32 * 2 ^ s)
    (fits : d.toNat / 2 ^ 32 * 2 ^ s < 2 ^ 32) :
    (((d <<< s) >>> 32).setWidth 32).toNat = d.toNat / 2 ^ (32 - s) ∧
      2 ^ 31 ≤ d.toNat / 2 ^ (32 - s) ∧ d.toNat / 2 ^ (32 - s) < 2 ^ 32 := by
  have split : 2 ^ 32 = 2 ^ (32 - s) * 2 ^ s := by
    rw [← Nat.pow_add, Nat.sub_add_cancel (by omega)]
  have positive := Nat.two_pow_pos s
  have same : d.toNat * 2 ^ s / 2 ^ 32 = d.toNat / 2 ^ (32 - s) := by
    rw [split]
    exact Nat.mul_div_mul_right _ _ positive
  have whole := Nat.div_add_mod' d.toNat (2 ^ 32)
  have rest := Nat.mod_lt d.toNat (show 0 < 2 ^ 32 by decide)
  have next : (d.toNat / 2 ^ 32 + 1) * 2 ^ s ≤ 2 ^ 32 := by
    have less : d.toNat / 2 ^ 32 < 2 ^ (32 - s) := by
      have scaled : d.toNat / 2 ^ 32 * 2 ^ s < 2 ^ (32 - s) * 2 ^ s := Nat.lt_of_lt_of_eq fits split
      exact Nat.lt_of_mul_lt_mul_right scaled
    have scaled := Nat.mul_le_mul_right (2 ^ s) (Nat.succ_le_of_lt less)
    rw [← split] at scaled
    exact scaled
  have inRange : d.toNat * 2 ^ s < 2 ^ 64 := by
    have less : d.toNat * 2 ^ s < (d.toNat / 2 ^ 32 + 1) * 2 ^ 32 * 2 ^ s := by
      apply Nat.mul_lt_mul_of_pos_right _ positive
      omega
    have swapped : (d.toNat / 2 ^ 32 + 1) * 2 ^ 32 * 2 ^ s =
        (d.toNat / 2 ^ 32 + 1) * 2 ^ s * 2 ^ 32 := Nat.mul_right_comm _ _ _
    omega
  have least : 2 ^ 31 ≤ d.toNat / 2 ^ (32 - s) := by
    rw [← same, Nat.le_div_iff_mul_le (by decide)]
    have swapped : d.toNat / 2 ^ 32 * 2 ^ s * 2 ^ 32 =
        d.toNat / 2 ^ 32 * 2 ^ 32 * 2 ^ s := Nat.mul_right_comm _ _ _
    have scaled : d.toNat / 2 ^ 32 * 2 ^ 32 * 2 ^ s ≤ d.toNat * 2 ^ s := by
      apply Nat.mul_le_mul_right
      omega
    omega
  have most : d.toNat / 2 ^ (32 - s) < 2 ^ 32 := by
    rw [← same, Nat.div_lt_iff_lt_mul (by decide)]
    omega
  refine ⟨?_, least, most⟩
  rw [BitVec.toNat_setWidth, BitVec.toNat_ushiftRight, BitVec.toNat_shiftLeft,
    Nat.shiftRight_eq_div_pow, Nat.shiftLeft_eq, Nat.mod_eq_of_lt inRange, same,
    Nat.mod_eq_of_lt most]

/-- The test of the estimate does not wrap around. -/
theorem corrected_word {q : BitVec 64} (some : 0 < q.toNat)
    (least : (q.toNat - 1) * d.toNat ≤ n.toNat) :
    (if n - (q - 1#64) * d < d then q - 1#64 else q).toNat =
      if n.toNat - (q.toNat - 1) * d.toNat < d.toNat then q.toNat - 1
      else q.toNat := by
  have boundN := n.isLt
  have boundQ := q.isLt
  have one : (1#64).toNat = 1 := rfl
  have previous : (q - 1#64).toNat = q.toNat - 1 := by
    rw [BitVec.toNat_sub, one]
    omega
  have product : ((q - 1#64) * d).toNat = (q.toNat - 1) * d.toNat := by
    rw [BitVec.toNat_mul, previous]
    exact Nat.mod_eq_of_lt (by omega)
  have difference : (n - (q - 1#64) * d).toNat = n.toNat - (q.toNat - 1) * d.toNat := by
    rw [BitVec.toNat_sub, product]
    omega
  rw [apply_ite BitVec.toNat, previous]
  congr 1
  rw [BitVec.lt_def, difference]

/-- The divisor has two words and is not larger than the dividend. -/
theorem udiv64_large (large : 2 ^ 32 ≤ d.toNat) (least : d.toNat ≤ n.toNat) :
    ∃ q, udiv64 n d = some q ∧ q.toNat = n.toNat / d.toNat := by
  have boundN := n.isLt
  have boundD := d.isLt
  have upper : (d >>> 32).toNat = d.toNat / 2 ^ 32 := by
    rw [BitVec.toNat_ushiftRight, Nat.shiftRight_eq_div_pow]
  have notSmall : d >>> 32 ≠ 0#64 := by
    intro zero
    rw [zero] at upper
    have none : (0#64).toNat = 0 := rfl
    omega
  have notLess : ¬n < d := by
    rw [BitVec.lt_def]
    omega
  rw [udiv64, if_neg notSmall, if_neg notLess]
  dsimp only
  have d1 : ((d >>> 32).setWidth 32).toNat = d.toNat / 2 ^ 32 := by
    rw [BitVec.toNat_setWidth, upper]
    exact Nat.mod_eq_of_lt (by omega)
  have d1Nonzero : (d >>> 32).setWidth 32 ≠ 0#32 := by
    intro zero
    rw [zero] at d1
    have none : (0#32).toNat = 0 := rfl
    omega
  rcases nlz_spec d1Nonzero with ⟨most, high, fits⟩
  rw [d1] at high fits
  generalize nlz ((d >>> 32).setWidth 32) = s at *
  rcases leading_bits most high fits with ⟨leading, normal, word⟩
  have exponent : 32 - s = 31 - s + 1 := by omega
  rw [exponent] at leading normal word
  have half : (n >>> 1).toNat = n.toNat / 2 := by
    rw [BitVec.toNat_ushiftRight, Nat.shiftRight_eq_div_pow]
  have nonzero : (((d <<< s) >>> 32).setWidth 32).toNat ≠ 0 := by omega
  have small : (n >>> 1).toNat / (((d <<< s) >>> 32).setWidth 32).toNat < 2 ^ 32 := by
    rw [leading, half, Nat.div_lt_iff_lt_mul (by omega)]
    omega
  rcases divl_eq nonzero small with ⟨quotient, divided, value⟩
  refine ⟨_, congrArg (Option.map _) divided, ?_⟩
  dsimp only
  have estimate : ((quotient >>> (31 - s)).setWidth 64).toNat =
      n.toNat / 2 / (d.toNat / 2 ^ (31 - s + 1)) / 2 ^ (31 - s) := by
    have bound := (quotient >>> (31 - s)).isLt
    rw [BitVec.toNat_setWidth, Nat.mod_eq_of_lt (by omega),
      BitVec.toNat_ushiftRight, Nat.shiftRight_eq_div_pow, value, half, leading]
  generalize (quotient >>> (31 - s)).setWidth 64 = q at *
  have positive : 0 < d.toNat := by omega
  have lower := @quotient_le_estimate n.toNat d.toNat (31 - s) (by omega)
  have higher := estimate_le_succ_quotient (w := 32) boundN positive
    (show 2 ^ 32 ≤ d.toNat / 2 ^ (31 - s + 1) * 2 by omega)
  rw [← estimate] at lower higher
  have one : 0 < q.toNat := by
    have divides := Nat.div_pos least positive
    omega
  rcases corrected_estimate positive lower higher one with ⟨product, corrected⟩
  rw [corrected_word one product]
  exact corrected

/-- `udiv64` never traps and is the quotient. -/
theorem udiv64_eq (nonzero : d ≠ 0#64) :
    ∃ q, udiv64 n d = some q ∧ q.toNat = n.toNat / d.toNat := by
  by_cases small : d.toNat < 2 ^ 32
  · exact udiv64_small nonzero small
  · by_cases least : d.toNat ≤ n.toNat
    · exact udiv64_large (not_lt.mp small) least
    · have upper : d >>> 32 ≠ 0#64 := by
        intro zero
        have shifted : (d >>> 32).toNat = d.toNat / 2 ^ 32 := by
          rw [BitVec.toNat_ushiftRight, Nat.shiftRight_eq_div_pow]
        rw [zero] at shifted
        have none : (0#64).toNat = 0 := rfl
        omega
      have less : n < d := by
        rw [BitVec.lt_def]
        omega
      refine ⟨0#64, ?_, ?_⟩
      · rw [udiv64, if_neg upper, if_pos less]
      · exact (Nat.div_eq_of_lt (not_le.mp least)).symm

/-- The remainder is taken in 64 bits and then cut to 32. -/
theorem umoddi3_eq (nonzero : d ≠ 0#64) :
    ∃ r, umoddi3 n d = some r ∧ r.toNat = n.toNat % d.toNat % 2 ^ 32 := by
  rcases @udiv64_eq n d nonzero with ⟨q, divided, value⟩
  refine ⟨_, by rw [umoddi3, umod64, divided]; rfl, ?_⟩
  have boundN := n.isLt
  have whole := Nat.div_add_mod n.toNat d.toNat
  have product : (d * q).toNat = d.toNat * (n.toNat / d.toNat) := by
    rw [BitVec.toNat_mul, value]
    exact Nat.mod_eq_of_lt (by omega)
  have rest : (n - d * q).toNat = n.toNat % d.toNat := by
    rw [BitVec.toNat_sub, product]
    omega
  rw [BitVec.toNat_setWidth, BitVec.toNat_setWidth, rest]
  omega

end Unsigned

/-! ## Signed division -/

section Signed

variable {n d q : BitVec 64}

/-- The absolute value of `sdiv64`, which is right for the least number too. -/
theorem toNat_abs (x : BitVec 64) : (if 0 ≤ x.toInt then x else -x).toNat = x.toInt.natAbs := by
  have bound := x.isLt
  by_cases sign : 0 ≤ x.toInt
  · rw [if_pos sign]
    rw [BitVec.toInt_eq_toNat_cond] at sign ⊢
    split at sign <;> rename_i low
    · rw [if_pos low]
      omega
    · omega
  · rw [if_neg sign, BitVec.toNat_neg]
    rw [BitVec.toInt_eq_toNat_cond] at sign ⊢
    split at sign <;> rename_i low
    · omega
    · rw [if_neg low]
      omega

theorem toInt_of_small (small : q.toNat < 2 ^ 63) : q.toInt = q.toNat := by
  rw [BitVec.toInt_eq_toNat_cond, if_pos (by omega)]

theorem toInt_neg_of_small (small : q.toNat ≤ 2 ^ 63) : (-q).toInt = -q.toNat := by
  have bound := q.isLt
  rw [BitVec.toInt_eq_toNat_cond, BitVec.toNat_neg]
  split <;> omega

theorem ne_zero_abs {x : BitVec 64} (nonzero : x ≠ 0#64) :
    (if 0 ≤ x.toInt then x else -x) ≠ 0#64 := by
  split
  · exact nonzero
  · rw [Ne, BitVec.neg_eq_zero_iff]
    exact nonzero

/-- The quotient of the absolute values with its sign. -/
theorem tdiv_eq (a b : Int) :
    a.tdiv b = if decide (a < 0) = decide (b < 0) then ((a.natAbs / b.natAbs : Nat) : Int)
      else -((a.natAbs / b.natAbs : Nat) : Int) := by
  have naturals : ∀ x y : Nat, (x : Int).tdiv y = ((x / y : Nat) : Int) := fun x y => rfl
  by_cases first : a < 0
  · have negA : a = -(a.natAbs : Int) := by omega
    by_cases second : b < 0
    · have negB : b = -(b.natAbs : Int) := by omega
      rw [decide_eq_true first, decide_eq_true second, if_pos rfl]
      conv_lhs => rw [negA, negB]
      rw [Int.neg_tdiv_neg, naturals]
    · have posB : b = (b.natAbs : Int) := by omega
      rw [decide_eq_true first, decide_eq_false second, if_neg (Ne.symm Bool.false_ne_true)]
      conv_lhs => rw [negA, posB]
      rw [Int.neg_tdiv, naturals]
  · have posA : a = (a.natAbs : Int) := by omega
    by_cases second : b < 0
    · have negB : b = -(b.natAbs : Int) := by omega
      rw [decide_eq_false first, decide_eq_true second, if_neg Bool.false_ne_true]
      conv_lhs => rw [posA, negB]
      rw [Int.tdiv_neg, naturals]
    · have posB : b = (b.natAbs : Int) := by omega
      rw [decide_eq_false first, decide_eq_false second, if_pos rfl]
      conv_lhs => rw [posA, posB]
      rw [naturals]

/-- The absolute value of the quotient, which is too large for one pair of
operands. -/
theorem abs_quotient_lt (inRange : ¬(n = BitVec.intMin 64 ∧ d = -1#64))
    (same : decide (n.toInt < 0) = decide (d.toInt < 0)) :
    n.toInt.natAbs / d.toInt.natAbs < 2 ^ 63 := by
  have boundN := n.isLt
  have least := n.toInt_eq_toNat_cond
  by_contra large
  have whole := Nat.div_le_self n.toInt.natAbs d.toInt.natAbs
  have full : n.toInt.natAbs = 2 ^ 63 := by
    split at least <;> omega
  have negative : n.toInt < 0 := by
    split at least <;> omega
  have negativeD : d.toInt < 0 := by
    rw [decide_eq_true negative] at same
    exact of_decide_eq_true same.symm
  have one : d.toInt.natAbs = 1 := by
    by_contra other
    have half : n.toInt.natAbs / d.toInt.natAbs ≤ n.toInt.natAbs / 2 :=
      Nat.div_le_div_left (by omega) (by decide)
    omega
  apply inRange
  constructor
  · apply BitVec.eq_of_toInt_eq
    have minimum : (BitVec.intMin 64).toInt = -9223372036854775808 := by decide
    omega
  · apply BitVec.eq_of_toInt_eq
    have minusOne : (-1#64).toInt = -1 := by decide
    omega

/-- `sdiv64` is the quotient, but for the one that is too large. -/
theorem sdiv64_eq (nonzero : d ≠ 0#64) (inRange : ¬(n = BitVec.intMin 64 ∧ d = -1#64)) :
    ∃ q, sdiv64 n d = some q ∧ q.toInt = n.toInt.tdiv d.toInt := by
  have boundN := n.isLt
  have least := n.toInt_eq_toNat_cond
  have most : n.toInt.natAbs ≤ 2 ^ 63 := by
    split at least <;> omega
  have quotient := Nat.div_le_self n.toInt.natAbs d.toInt.natAbs
  rcases @udiv64_eq (if 0 ≤ n.toInt then n else -n) _ (ne_zero_abs nonzero) with
    ⟨qAbs, divided, value⟩
  rw [toNat_abs, toNat_abs] at value
  refine ⟨_, congrArg (Option.map _) divided, ?_⟩
  rw [tdiv_eq]
  dsimp only
  by_cases same : decide (n.toInt < 0) = decide (d.toInt < 0)
  · have small := abs_quotient_lt inRange same
    rw [if_pos same, if_pos same, ← value]
    exact toInt_of_small (by omega)
  · rw [if_neg same, if_neg same, ← value]
    exact toInt_neg_of_small (by omega)

/-- A number of 64 bits cut to 32 and extended again. -/
theorem toInt_cut (x : BitVec 64) :
    (((x.setWidth 32).signExtend 64).toInt = x.toInt ↔ -2 ^ 31 ≤ x.toInt ∧ x.toInt < 2 ^ 31) := by
  have bound := x.isLt
  have value := x.toInt_eq_toNat_cond
  rw [BitVec.toInt_signExtend_of_le (by decide), BitVec.toInt_setWidth, Int.bmod_def]
  split at value <;> split <;> omega

/-- The remainder is taken in 64 bits and then cut to 32. -/
theorem moddi3_eq (nonzero : d ≠ 0#64) (inRange : ¬(n = BitVec.intMin 64 ∧ d = -1#64)) :
    ∃ rest : BitVec 64, moddi3 n d = some ((rest.setWidth 32).signExtend 64) ∧
      rest.toInt = n.toInt.tmod d.toInt := by
  rcases sdiv64_eq nonzero inRange with ⟨q, divided, value⟩
  refine ⟨n - d * q, by rw [moddi3, smod64, divided]; rfl, ?_⟩
  have boundN := n.isLt
  have sizeN := n.toInt_eq_toNat_cond
  have boundD := d.isLt
  have sizeD := d.toInt_eq_toNat_cond
  have size := Int.natAbs_tmod n.toInt d.toInt
  have nonzeroD : d.toInt.natAbs ≠ 0 := by
    intro zero
    apply nonzero
    apply BitVec.eq_of_toInt_eq
    exact Int.natAbs_eq_zero.mp zero
  have smaller := Nat.mod_lt n.toInt.natAbs (Nat.pos_of_ne_zero nonzeroD)
  have most : d.toInt.natAbs ≤ 2 ^ 63 := by
    split at sizeD <;> omega
  rw [BitVec.toInt_sub, BitVec.toInt_mul, value, Int.sub_bmod_bmod, ← Int.tmod_def]
  apply Int.bmod_eq_of_le_mul_two <;> omega

end Signed

/-! ## The remainders -/

/-- What `__udivdi3` and `__umoddi3` should return. -/
def UnsignedExact (n d : BitVec 64) : Prop :=
  ∃ q r, udivdi3 n d = some q ∧ umoddi3 n d = some r ∧
    r.toNat = n.toNat % d.toNat ∧ n.toNat = d.toNat * q.toNat + r.toNat

/-- What `__divdi3` and `__moddi3` should return. -/
def SignedExact (n d : BitVec 64) : Prop :=
  ∃ q r, divdi3 n d = some q ∧ moddi3 n d = some r ∧
    r.toInt = n.toInt - d.toInt * n.toInt.tdiv d.toInt ∧ n.toInt = d.toInt * q.toInt + r.toInt

/-- The results are those of the division exactly where the remainder fits into the 32
bits that `umod64` and `smod64` return. -/
theorem remainders_exact_iff {n d : BitVec 64} (nonzero : d ≠ 0#64) :
    (UnsignedExact n d ↔ n.toNat % d.toNat < 2 ^ 32) ∧
      (¬(n = BitVec.intMin 64 ∧ d = -1#64) →
        (SignedExact n d ↔ -2 ^ 31 ≤ n.toInt.tmod d.toInt ∧ n.toInt.tmod d.toInt < 2 ^ 31)) := by
  constructor
  · rcases @udiv64_eq n d nonzero with ⟨q, divided, quotient⟩
    rcases @umoddi3_eq n d nonzero with ⟨r, cut, rest⟩
    have whole := Nat.div_add_mod n.toNat d.toNat
    constructor
    · rintro ⟨_, _, _, again, remainder, _⟩
      rw [cut, Option.some.injEq] at again
      subst again
      rw [← remainder, rest]
      exact Nat.mod_lt _ (by decide)
    · intro small
      rw [Nat.mod_eq_of_lt small] at rest
      refine ⟨q, r, divided, cut, rest, ?_⟩
      rw [quotient, rest]
      exact whole.symm
  · intro inRange
    rcases sdiv64_eq nonzero inRange with ⟨q, divided, quotient⟩
    rcases moddi3_eq nonzero inRange with ⟨rest, cut, value⟩
    have whole := Int.mul_tdiv_add_tmod n.toInt d.toInt
    rw [← value, ← toInt_cut rest]
    constructor
    · rintro ⟨_, _, _, again, remainder, _⟩
      rw [cut, Option.some.injEq] at again
      rw [again, remainder, ← Int.tmod_def, value]
    · intro same
      refine ⟨q, _, divided, cut, ?_, ?_⟩
      · rw [same, value, Int.tmod_def]
      · rw [same, value, quotient]
        exact whole.symm

/-- Both functions on operands with small remainders. -/
theorem remainders_exact_small : UnsignedExact 47#64 10#64 ∧ SignedExact (-47#64) 10#64 := by
  have nonzero : 10#64 ≠ 0#64 := by decide
  have inRange : ¬(-47#64 = BitVec.intMin 64 ∧ 10#64 = -1#64) := by decide
  constructor
  · exact (remainders_exact_iff nonzero).1.mpr (by decide)
  · exact ((remainders_exact_iff nonzero).2 inRange).mpr (by decide)

/-- Remainders of more than 32 bits are cut. -/
theorem remainders_cut :
    umoddi3 0x100000000#64 0x100000001#64 = some 0#64 ∧
      moddi3 0x80000000#64 0x80000001#64 = some (-0x80000000#64) ∧
      ¬UnsignedExact 0x100000000#64 0x100000001#64 ∧
      ¬SignedExact 0x80000000#64 0x80000001#64 := by
  have cut : umoddi3 0x100000000#64 0x100000001#64 = some 0#64 := by decide +kernel
  have signed : moddi3 0x80000000#64 0x80000001#64 = some (-0x80000000#64) := by
    decide +kernel
  refine ⟨cut, signed, ?_, ?_⟩
  · rintro ⟨_, r, _, returned, remainder, _⟩
    rw [cut, Option.some.injEq] at returned
    subst returned
    exact absurd remainder (by decide)
  · rintro ⟨_, r, _, returned, remainder, _⟩
    rw [signed, Option.some.injEq] at returned
    subst returned
    exact absurd remainder (by decide)

/-! ## The divisions of the processor -/

/-- The operands of the `divl` that `udiv64` executes, if it executes one. -/
def divlOperands (n d : BitVec 64) : Option (BitVec 64 × BitVec 32) :=
  if d >>> 32 = 0#64 then
    let n1 : BitVec 32 := (n >>> 32).setWidth 32
    let n0 : BitVec 32 := n.setWidth 32
    let d0 : BitVec 32 := d.setWidth 32
    some ((1#64 <<< 32) * (n1 % d0).setWidth 64 + n0.setWidth 64, d0)
  else if n < d then none
  else
    some (n >>> 1, ((d <<< nlz ((d >>> 32).setWidth 32)) >>> 32).setWidth 32)

section Traps

variable {n d : BitVec 64} {m : BitVec 64} {e : BitVec 32}

/-- `divl` traps unless the quotient has 32 bits. -/
theorem divl_isSome : (divl m e).isSome = true ↔ e ≠ 0#32 ∧ m.toNat / e.toNat < 2 ^ 32 := by
  unfold divl
  split
  · rename_i trap
    apply iff_of_false Bool.false_ne_true
    intro ⟨nonzero, fits⟩
    rcases trap with zero | large
    · exact nonzero zero
    · omega
  · rename_i defined
    rw [not_or, not_le] at defined
    exact iff_of_true rfl defined

/-- `udiv64` traps if its `divl` does. -/
theorem udiv64_isSome :
    (udiv64 n d).isSome = true ↔
      ∀ operands ∈ divlOperands n d, (divl operands.1 operands.2).isSome = true := by
  unfold udiv64 divlOperands
  split
  · simp only [Option.isSome_map, Option.mem_def, Option.some.injEq, forall_eq']
  · split
    · simp
    · simp only [Option.isSome_map, Option.mem_def, Option.some.injEq, forall_eq']

/-- The unsigned quotient is exact and its division does not trap, and the signed one
is truncated, but for the one pair of operands whose quotient has no 64 bits. -/
theorem quotients_exact (n d : BitVec 64) (nonzero : d ≠ 0#64) :
    (∃ q, udiv64 n d = some q ∧ q.toNat = n.toNat / d.toNat) ∧
      (∀ operands ∈ divlOperands n d,
        operands.2 ≠ 0#32 ∧ operands.1.toNat / operands.2.toNat < 2 ^ 32) ∧
      (¬(n = BitVec.intMin 64 ∧ d = -1#64) →
        ∃ q, sdiv64 n d = some q ∧ q.toInt = n.toInt.tdiv d.toInt) := by
  have quotient := @udiv64_eq n d nonzero
  refine ⟨quotient, ?_, sdiv64_eq nonzero⟩
  rcases quotient with ⟨q, divided, _⟩
  have defined := udiv64_isSome.mp (Option.isSome_of_eq_some divided)
  intro operands executed
  exact divl_isSome.mp (defined operands executed)

/-- Operands for which the estimate is one too large. -/
theorem quotients_exact_corrected :
    udiv64 0xfffffffffffffffd#64 0x7fffffffffffffff#64 = some 1#64 ∧
      sdiv64 (-7#64) 2#64 = some (-3#64) := by
  have large := quotients_exact 0xfffffffffffffffd#64 0x7fffffffffffffff#64 (by decide)
  have signed := (quotients_exact (-7#64) 2#64 (by decide)).2.2 (by decide)
  rcases large.1 with ⟨q, divided, value⟩
  rcases signed with ⟨r, truncated, rest⟩
  constructor
  · rw [divided, Option.some.injEq]
    apply BitVec.eq_of_toNat_eq
    rw [value]
    decide
  · rw [truncated, Option.some.injEq]
    apply BitVec.eq_of_toInt_eq
    rw [rest]
    decide

end Traps

end CS162.Lib

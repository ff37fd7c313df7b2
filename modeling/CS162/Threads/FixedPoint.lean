import CS162.Foundation.Calculations
import CS162.Lib.Arithmetic

/-!
# Fixed-point numbers

`threads/fixed-point.h`.  An operation on signed numbers whose result does not
fit has no defined result; a failed assertion stops the kernel.
-/

namespace CS162.Threads

open CS162.Foundation

/-- What a calculation can end with instead of a result. -/
inductive Fault where
  | assertion
  | overflow
  deriving DecidableEq, Repr

/-- `ASSERT`. -/
def assertThat (condition : Prop) [Decidable condition] : Except Fault Unit :=
  if condition then .ok () else .error .assertion

/-- The result of an operation on signed numbers of so many bits. -/
def signed (width : Nat) (value : Int) : Except Fault (BitVec width) :=
  if -2 ^ (width - 1) ≤ value ∧ value < 2 ^ (width - 1) then
    .ok (BitVec.ofInt width value)
  else .error .overflow

/-- `FIX_F`. -/
def fixF : Int := 2 ^ 16

/-- `FIX_MAX_INT`. -/
def fixMaxInt : Int := 2 ^ 16 - 1

/-- `FIX_MIN_INT`. -/
def fixMinInt : Int := -fixMaxInt

/-- `fixed_point_t`. -/
structure FixedPoint where
  f : BitVec 32
  deriving DecidableEq, Repr

/-- `__mk_fix`. -/
def mkFix (f : BitVec 32) : FixedPoint := ⟨f⟩

/-- `fix_int`. -/
def fixInt (n : BitVec 32) : Except Fault FixedPoint := do
  assertThat (fixMinInt ≤ n.toInt ∧ n.toInt ≤ fixMaxInt)
  let f ← signed 32 (n.toInt * fixF)
  return mkFix f

/-- `fix_frac`, which multiplies and divides in 64 bits and cuts the result to
32. -/
def fixFrac (n d : BitVec 32) : Except Fault FixedPoint := do
  assertThat (d.toInt ≠ 0)
  let quotient ← signed 32 (n.toInt.tdiv d.toInt)
  assertThat (fixMinInt ≤ quotient.toInt ∧ quotient.toInt ≤ fixMaxInt)
  let scaled ← signed 64 (n.toInt * fixF)
  let f ← signed 64 (scaled.toInt.tdiv d.toInt)
  return mkFix (f.setWidth 32)

/-- `fix_round`. -/
def fixRound (x : FixedPoint) : Except Fault (BitVec 32) := do
  let sum ← signed 32 (x.f.toInt + fixF / 2)
  signed 32 (sum.toInt.tdiv fixF)

/-- `fix_trunc`. -/
def fixTrunc (x : FixedPoint) : Except Fault (BitVec 32) := signed 32 (x.f.toInt.tdiv fixF)

/-! ## Signed numbers -/

section Signed

variable {width : Nat} {value : Int} {word : BitVec width}

theorem toInt_ofInt (positive : 0 < width) (least : -2 ^ (width - 1) ≤ value)
    (most : value < 2 ^ (width - 1)) :
    (BitVec.ofInt width value).toInt = value := by
  have double : (2 : Int) ^ width = 2 * 2 ^ (width - 1) := by
    rw [← pow_succ', Nat.sub_add_cancel positive]
  rw [BitVec.toInt_ofInt]
  apply Int.bmod_eq_of_le_mul_two <;> push_cast <;> omega

/-- An operation gives the number itself, if it fits. -/
theorem signed_eq_ok (positive : 0 < width) :
    signed width value = .ok word ↔
      -2 ^ (width - 1) ≤ value ∧ value < 2 ^ (width - 1) ∧
        word.toInt = value := by
  unfold signed
  constructor
  · intro defined
    split at defined
    · rename_i fits
      rw [Except.ok.injEq] at defined
      rw [← defined]
      exact ⟨fits.1, fits.2, toInt_ofInt positive fits.1 fits.2⟩
    · cases defined
  · intro ⟨least, most, same⟩
    rw [if_pos ⟨least, most⟩, Except.ok.injEq]
    apply BitVec.eq_of_toInt_eq
    rw [same]
    exact toInt_ofInt positive least most

/-- An operation is defined if its result fits. -/
theorem signed_defined (width : Nat) (positive : 0 < width)
    (least : -2 ^ (width - 1) ≤ value) (most : value < 2 ^ (width - 1)) :
    ∃ word, signed width value = .ok word ∧ word.toInt = value := by
  have fits := toInt_ofInt positive least most
  exact ⟨_, (signed_eq_ok positive).mpr ⟨least, most, fits⟩, fits⟩

theorem toInt_range (n : BitVec 32) : -2 ^ 31 ≤ n.toInt ∧ n.toInt < 2 ^ 31 :=
  ⟨BitVec.le_toInt n, BitVec.toInt_lt⟩

end Signed

/-! ## Assertions -/

theorem assertThat_eq_ok {condition : Prop} [Decidable condition] {u : Unit} :
    assertThat condition = .ok u ↔ condition := by
  unfold assertThat
  split
  · rename_i holds
    exact iff_of_true rfl holds
  · rename_i fails
    exact iff_of_false (by intro none; cases none) fails

/-! ## Rounding -/

section Rounding

variable {n r : BitVec 32} {x : FixedPoint}

/-- `fix_int` multiplies, where the product fits. -/
theorem fixInt_eq_ok :
    fixInt n = .ok x ↔ -2 ^ 15 ≤ n.toInt ∧ n.toInt < 2 ^ 15 ∧ x.f.toInt = n.toInt * fixF := by
  have scaled : n.toInt * fixF = n.toInt * 65536 := rfl
  have most : fixMaxInt = 65535 := rfl
  have least : fixMinInt = -65535 := rfl
  unfold fixInt
  rw [bind_eq_ok]
  constructor
  · intro ⟨_, admitted, rest⟩
    rcases bind_eq_ok.mp rest with ⟨f, product, made⟩
    rcases (signed_eq_ok (by decide)).mp product with ⟨lower, upper, value⟩
    rw [← pure_eq_ok.mp made]
    exact ⟨by omega, by omega, value⟩
  · intro ⟨lower, upper, value⟩
    refine ⟨(), assertThat_eq_ok.mpr (by omega), bind_eq_ok.mpr ?_⟩
    refine ⟨x.f, (signed_eq_ok (by decide)).mpr ?_, rfl⟩
    exact ⟨by omega, by omega, value⟩

/-- The quotient by `FIX_F` fits. -/
theorem quotient_eq (f : BitVec 32) :
    signed 32 (f.toInt.tdiv fixF) = .ok r ↔ r.toInt = f.toInt.tdiv fixF := by
  have range := toInt_range f
  have smaller := Int.natAbs_tdiv_le_natAbs f.toInt fixF
  have half : (f.toInt.tdiv fixF).natAbs ≤ f.toInt.natAbs / 2 := by
    rw [Int.natAbs_tdiv]
    exact Nat.div_le_div_left (by decide) (by decide)
  rw [signed_eq_ok (by decide)]
  constructor
  · intro ⟨_, _, value⟩
    exact value
  · intro value
    exact ⟨by omega, by omega, value⟩

theorem fixTrunc_eq_ok : fixTrunc x = .ok r ↔ r.toInt = x.f.toInt.tdiv fixF := quotient_eq x.f

/-- `fix_round` adds a half and divides, where the sum fits. -/
theorem fixRound_eq_ok :
    fixRound x = .ok r ↔
      x.f.toInt < 2 ^ 31 - 2 ^ 15 ∧
        r.toInt = (x.f.toInt + 2 ^ 15).tdiv fixF := by
  have range := toInt_range x.f
  have half : fixF / 2 = 2 ^ 15 := rfl
  unfold fixRound
  rw [bind_eq_ok, half]
  constructor
  · intro ⟨sum, added, divided⟩
    rcases (signed_eq_ok (by decide)).mp added with ⟨_, upper, value⟩
    rw [quotient_eq, value] at divided
    exact ⟨by omega, divided⟩
  · intro ⟨upper, value⟩
    have lower : -2 ^ (32 - 1) ≤ x.f.toInt + 2 ^ 15 := by omega
    have most : x.f.toInt + 2 ^ 15 < 2 ^ (32 - 1) := by omega
    rcases signed_defined 32 (by decide) lower most with ⟨sum, added, exact⟩
    refine ⟨sum, added, (quotient_eq sum).mpr ?_⟩
    rw [value, exact]

/-- The quotient of a number that is rounded towards zero. -/
theorem tdiv_fixF (value : Int) :
    0 ≤ value ∧ value.tdiv fixF = value / 65536 ∨
      value < 0 ∧ value.tdiv fixF = -(-value / 65536) := by
  by_cases sign : 0 ≤ value
  · exact Or.inl ⟨sign, Int.tdiv_eq_ediv_of_nonneg sign⟩
  · have negated : value.tdiv fixF = -(-value).tdiv fixF := by
      rw [Int.neg_tdiv, neg_neg]
    have rounded : (-value).tdiv fixF = -value / 65536 := Int.tdiv_eq_ediv_of_nonneg (by omega)
    exact Or.inr ⟨by omega, by rw [negated, rounded]⟩

/-- `fix_round` returns an integer nearest to the number. -/
def RoundsToNearest (x : FixedPoint) : Prop :=
  ∃ r, fixRound x = .ok r ∧ |r.toInt * fixF - x.f.toInt| ≤ fixF / 2

/-- Rounding goes to the nearest integer for all numbers from minus a half on,
and below for those that lie in the middle between two integers only; hence
the integers that are rounded to themselves are those that are not negative. -/
theorem fixRound_nearest_iff (x : FixedPoint) (bounded : |x.f.toInt| ≤ 2 ^ 31 - 1 - 2 ^ 15) :
    (∃ r, fixRound x = .ok r) ∧
      (RoundsToNearest x ↔ -2 ^ 15 ≤ x.f.toInt ∨ x.f.toInt % 2 ^ 16 = 2 ^ 15) ∧
      ∀ n, fixInt n = .ok x → (fixRound x = .ok n ↔ 0 ≤ n.toInt) := by
  have scale : fixF = 65536 := rfl
  have half : fixF / 2 = 32768 := rfl
  rw [abs_le] at bounded
  have rounded := tdiv_fixF (x.f.toInt + 2 ^ 15)
  have fits :
      (BitVec.ofInt 32 ((x.f.toInt + 2 ^ 15).tdiv fixF)).toInt = (x.f.toInt + 2 ^ 15).tdiv fixF :=
    toInt_ofInt (by decide) (by omega) (by omega)
  have result := fixRound_eq_ok.mpr ⟨by omega, fits⟩
  have nearest :
      RoundsToNearest x ↔
        |(x.f.toInt + 2 ^ 15).tdiv fixF * 65536 - x.f.toInt| ≤ 32768 := by
    constructor
    · intro ⟨r, returned, near⟩
      rw [result, Except.ok.injEq] at returned
      rw [← returned, fits, half] at near
      exact near
    · intro near
      refine ⟨_, result, ?_⟩
      rw [fits, half]
      exact near
  refine ⟨⟨_, result⟩, ?_, ?_⟩
  · rw [nearest, abs_le]
    omega
  · intro n made
    rcases fixInt_eq_ok.mp made with ⟨lower, upper, value⟩
    rw [scale] at value
    rw [fixRound_eq_ok]
    omega

/-- A half and minus a half are rounded upwards, and so is minus one. -/
theorem fixRound_nearest_iff_half :
    RoundsToNearest ⟨32768#32⟩ ∧ RoundsToNearest ⟨-32768#32⟩ ∧
      fixRound ⟨-65536#32⟩ ≠ .ok (-1#32) := by
  have made : fixInt (-1#32) = .ok ⟨-65536#32⟩ := by decide
  refine ⟨?_, ?_, ?_⟩
  · exact ((fixRound_nearest_iff ⟨32768#32⟩ (by decide)).2.1).mpr (by decide)
  · exact ((fixRound_nearest_iff ⟨-32768#32⟩ (by decide)).2.1).mpr (by decide)
  · intro same
    have rounds := (fixRound_nearest_iff ⟨-65536#32⟩ (by decide)).2.2
    have sign := (rounds _ made).mp same
    exact absurd sign (by decide)

/-- Minus one is rounded to zero. -/
theorem fixRound_minus_one :
    fixInt (-1#32) = .ok ⟨-65536#32⟩ ∧ fixRound ⟨-65536#32⟩ = .ok 0#32 ∧
      ¬RoundsToNearest ⟨-65536#32⟩ := by
  have rounded : fixRound ⟨-65536#32⟩ = .ok 0#32 := by decide
  refine ⟨by decide, rounded, ?_⟩
  intro ⟨r, returned, near⟩
  rw [rounded, Except.ok.injEq] at returned
  rw [← returned] at near
  exact absurd near (by decide)

end Rounding

/-! ## Representable values -/

section Representable

variable {n d : BitVec 32} {x : FixedPoint}

/-- The assertions of `fix_int` hold. -/
def IntAdmitted (n : BitVec 32) : Prop := fixMinInt ≤ n.toInt ∧ n.toInt ≤ fixMaxInt

instance (n : BitVec 32) : Decidable (IntAdmitted n) := inferInstanceAs (Decidable (_ ∧ _))

/-- The assertions of `fix_frac` hold. -/
def FracAdmitted (n d : BitVec 32) : Prop :=
  d.toInt ≠ 0 ∧ fixMinInt ≤ n.toInt.tdiv d.toInt ∧ n.toInt.tdiv d.toInt ≤ fixMaxInt

instance (n d : BitVec 32) : Decidable (FracAdmitted n d) := inferInstanceAs (Decidable (_ ∧ _ ∧ _))

/-- `fix_int` stores the number, and `fix_trunc` gives it back. -/
def IntRepresented (n : BitVec 32) : Prop :=
  ∃ x, fixInt n = .ok x ∧ x.f.toInt = n.toInt * 2 ^ 16 ∧ fixTrunc x = .ok n

/-- `fix_frac` stores the quotient, and `fix_trunc` gives its integer part. -/
def FracRepresented (n d : BitVec 32) : Prop :=
  ∃ x, fixFrac n d = .ok x ∧
    x.f.toInt = (n.toInt * 2 ^ 16).tdiv d.toInt ∧
      ∃ r, fixTrunc x = .ok r ∧ r.toInt = n.toInt.tdiv d.toInt

/-- The quotient of the numbers is less than `2 ^ 15`, and it is not less than
`-2 ^ 15` by as much as the last fractional bit. -/
def FitsFrac (n d : BitVec 32) : Prop :=
  n.toInt.tdiv d.toInt < 2 ^ 15 ∧
    (-2 ^ 15 < n.toInt.tdiv d.toInt ∨
      n.toInt.tdiv d.toInt = -2 ^ 15 ∧ (n.toInt.tmod d.toInt).natAbs * 2 ^ 16 < d.toInt.natAbs)

instance (n d : BitVec 32) : Decidable (FitsFrac n d) :=
  inferInstanceAs (Decidable (_ ∧ (_ ∨ _ ∧ _)))

/-- Only the product must fit. -/
theorem intRepresented_iff : IntRepresented n ↔ -2 ^ 15 ≤ n.toInt ∧ n.toInt < 2 ^ 15 := by
  constructor
  · intro ⟨x, made, _⟩
    have fits := fixInt_eq_ok.mp made
    exact ⟨fits.1, fits.2.1⟩
  · intro ⟨lower, upper⟩
    have scaled : n.toInt * fixF = n.toInt * 65536 := rfl
    have value : (BitVec.ofInt 32 (n.toInt * fixF)).toInt = n.toInt * fixF :=
      toInt_ofInt (by decide) (by omega) (by omega)
    let x : FixedPoint := ⟨BitVec.ofInt 32 (n.toInt * fixF)⟩
    refine ⟨x, fixInt_eq_ok.mpr ⟨lower, upper, value⟩, value, ?_⟩
    have stored : x.f.toInt = n.toInt * fixF := value
    rw [fixTrunc_eq_ok, stored]
    exact (Int.mul_tdiv_cancel n.toInt (by decide)).symm

/-- `fix_frac` cuts the quotient to 32 bits. -/
theorem fixFrac_eq (admitted : FracAdmitted n d) :
    fixFrac n d = .ok ⟨BitVec.ofInt 32 ((n.toInt * fixF).tdiv d.toInt)⟩ := by
  rcases admitted with ⟨nonzero, least, most⟩
  have scaled : n.toInt * fixF = n.toInt * 65536 := rfl
  have largest : fixMaxInt = 65535 := rfl
  have smallest : fixMinInt = -65535 := rfl
  have range := toInt_range n
  have smaller := Int.natAbs_tdiv_le_natAbs (n.toInt * fixF) d.toInt
  rcases @signed_defined (n.toInt.tdiv d.toInt) 32 (by decide) (by omega)
      (by omega) with ⟨quotient, divided, quotientValue⟩
  rcases @signed_defined (n.toInt * fixF) 64 (by decide) (by omega)
      (by omega) with ⟨product, multiplied, productValue⟩
  rcases @signed_defined ((n.toInt * fixF).tdiv d.toInt) 64 (by decide)
      (by omega) (by omega) with ⟨ratio, stored, ratioValue⟩
  have admitted : fixMinInt ≤ quotient.toInt ∧ quotient.toInt ≤ fixMaxInt := by
    rw [quotientValue]
    exact ⟨least, most⟩
  have again : signed 64 (product.toInt.tdiv d.toInt) = .ok ratio := by
    rw [productValue]
    exact stored
  have cut : mkFix (ratio.setWidth 32) = ⟨BitVec.ofInt 32 ((n.toInt * fixF).tdiv d.toInt)⟩ := by
    rw [← ratioValue, ← BitVec.signExtend_eq_setWidth_of_le _ (by decide)]
    rfl
  rw [← cut]
  apply bind_eq_ok.mpr ⟨(), assertThat_eq_ok.mpr nonzero, ?_⟩
  apply bind_eq_ok.mpr ⟨quotient, divided, ?_⟩
  apply bind_eq_ok.mpr ⟨(), assertThat_eq_ok.mpr admitted, ?_⟩
  apply bind_eq_ok.mpr ⟨product, multiplied, ?_⟩
  exact bind_eq_ok.mpr ⟨ratio, again, rfl⟩

/-! ### The range of the quotient -/

/-- A quotient times `FIX_F` is at most the largest number. -/
theorem scaled_lt {a b : Nat} (positive : 0 < b) : a * 2 ^ 16 / b < 2 ^ 31 ↔ a / b < 2 ^ 15 := by
  rw [Nat.div_lt_iff_lt_mul positive, Nat.div_lt_iff_lt_mul positive]
  omega

/-- The smallest number is one further away from zero. -/
theorem scaled_le {a b : Nat} (positive : 0 < b) :
    a * 2 ^ 16 / b ≤ 2 ^ 31 ↔ a / b < 2 ^ 15 ∨ a / b = 2 ^ 15 ∧ a % b * 2 ^ 16 < b := by
  have whole := Nat.div_add_mod a b
  have rest := Nat.mod_lt a positive
  rw [← Nat.lt_succ_iff, Nat.div_lt_iff_lt_mul positive]
  rcases Nat.lt_trichotomy (a / b) (2 ^ 15) with less | same | more
  · have bound := (Nat.div_lt_iff_lt_mul positive).mp less
    omega
  · rw [same] at whole
    omega
  · have bound := (Nat.le_div_iff_mul_le positive).mp more
    omega

/-- The quotient of `FIX_F` times a number, divided by `FIX_F` again. -/
theorem scaled_div {a b : Nat} : a * 2 ^ 16 / b / 2 ^ 16 = a / b := by
  rw [Nat.div_div_eq_div_mul]
  exact Nat.mul_div_mul_right a b (by decide)

/-- The two quotients of `fix_frac` by their absolute values. -/
theorem quotients_eq (n d : BitVec 32) :
    (n.toInt.tdiv d.toInt = ((n.toInt.natAbs / d.toInt.natAbs : Nat) : Int) ∧
        (n.toInt * fixF).tdiv d.toInt = ((n.toInt.natAbs * 2 ^ 16 / d.toInt.natAbs : Nat) : Int)) ∨
      n.toInt.tdiv d.toInt = -((n.toInt.natAbs / d.toInt.natAbs : Nat) : Int) ∧
        (n.toInt * fixF).tdiv d.toInt =
          -((n.toInt.natAbs * 2 ^ 16 / d.toInt.natAbs : Nat) : Int) := by
  have scaled : n.toInt * fixF = n.toInt * 65536 := rfl
  have magnitude : (n.toInt * fixF).natAbs = n.toInt.natAbs * 2 ^ 16 := Int.natAbs_mul n.toInt fixF
  have sign : decide (n.toInt * fixF < 0) = decide (n.toInt < 0) := by
    rw [decide_eq_decide]
    omega
  rw [Lib.tdiv_eq n.toInt, Lib.tdiv_eq (n.toInt * fixF), sign, magnitude]
  split
  · exact Or.inl ⟨rfl, rfl⟩
  · exact Or.inr ⟨rfl, rfl⟩

/-- The quotient is stored where it fits. -/
theorem fracRepresented_iff (admitted : FracAdmitted n d) : FracRepresented n d ↔ FitsFrac n d := by
  have made := fixFrac_eq admitted
  have positive : 0 < d.toInt.natAbs := Int.natAbs_pos.mpr admitted.1
  have upper := @scaled_lt n.toInt.natAbs _ positive
  have lower := @scaled_le n.toInt.natAbs _ positive
  have fits :
      FitsFrac n d ↔
        -2 ^ 31 ≤ (n.toInt * fixF).tdiv d.toInt ∧
          (n.toInt * fixF).tdiv d.toInt < 2 ^ 31 := by
    unfold FitsFrac
    rw [Int.natAbs_tmod]
    have cases := quotients_eq n d
    generalize n.toInt.natAbs / d.toInt.natAbs = t at *
    generalize n.toInt.natAbs * 2 ^ 16 / d.toInt.natAbs = q at *
    rcases cases with ⟨quotient, ratio⟩ | ⟨quotient, ratio⟩
    · rw [quotient, ratio]
      omega
    · rw [quotient, ratio]
      omega
  have truncated : ((n.toInt * fixF).tdiv d.toInt).tdiv fixF = n.toInt.tdiv d.toInt := by
    have again := @scaled_div n.toInt.natAbs d.toInt.natAbs
    rcases quotients_eq n d with ⟨quotient, ratio⟩ | ⟨quotient, ratio⟩
    · rw [quotient, ratio, ← again]
      rfl
    · rw [quotient, ratio, ← again, Int.neg_tdiv]
      rfl
  rw [fits]
  constructor
  · intro ⟨x, returned, value, _⟩
    rw [made, Except.ok.injEq] at returned
    have range := toInt_range x.f
    rw [value] at range
    exact range
  · intro ⟨least, most⟩
    let x : FixedPoint := ⟨BitVec.ofInt 32 ((n.toInt * fixF).tdiv d.toInt)⟩
    have value : x.f.toInt = (n.toInt * fixF).tdiv d.toInt := toInt_ofInt (by decide) least most
    have integer := Int.natAbs_tdiv_le_natAbs x.f.toInt fixF
    have half : (x.f.toInt.tdiv fixF).natAbs ≤ x.f.toInt.natAbs / 2 := by
      rw [Int.natAbs_tdiv]
      exact Nat.div_le_div_left (by decide) (by decide)
    have range := toInt_range x.f
    rcases @signed_defined (x.f.toInt.tdiv fixF) 32 (by decide) (by omega)
        (by omega) with ⟨r, returned, result⟩
    refine ⟨x, made, value, r, returned, ?_⟩
    rw [result, value, truncated]

/-- For arguments that pass the assertions, `fix_int` and `fix_frac` store the
mathematical value exactly where it is less than `2 ^ 15` in size, which is half
of what the assertions admit. -/
theorem fixed_represented_iff (n d : BitVec 32) :
    (IntAdmitted n →
      (IntRepresented n ↔ -2 ^ 15 ≤ n.toInt ∧ n.toInt < 2 ^ 15)) ∧
      (FracAdmitted n d → (FracRepresented n d ↔ FitsFrac n d)) :=
  ⟨fun _ => intRepresented_iff, fracRepresented_iff⟩

/-- The largest integer that is represented, and minus three halves. -/
theorem fixed_represented_iff_large : IntRepresented 32767#32 ∧ FracRepresented (-3#32) 2#32 :=
  ⟨((fixed_represented_iff 32767#32 1#32).1 (by decide)).mpr (by decide),
    ((fixed_represented_iff (-3#32) 2#32).2 (by decide)).mpr (by decide)⟩

/-- The next integer is admitted, but its product overflows, and as a quotient
it is stored with the wrong sign. -/
theorem fixed_not_represented :
    IntAdmitted 32768#32 ∧ fixInt 32768#32 = .error .overflow ∧
      ¬IntRepresented 32768#32 ∧
      FracAdmitted 32768#32 1#32 ∧
      fixFrac 32768#32 1#32 = .ok ⟨0x80000000#32⟩ ∧
      ¬FracRepresented 32768#32 1#32 := by
  have overflows : fixInt 32768#32 = .error .overflow := by decide
  have stored : fixFrac 32768#32 1#32 = .ok ⟨0x80000000#32⟩ := by decide
  refine ⟨by decide, overflows, ?_, by decide, stored, ?_⟩
  · intro ⟨x, made, _⟩
    rw [overflows] at made
    cases made
  · intro ⟨x, made, value, _⟩
    rw [stored, Except.ok.injEq] at made
    rw [← made] at value
    exact absurd value (by decide)

end Representable

end CS162.Threads

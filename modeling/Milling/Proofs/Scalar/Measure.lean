import Mathlib
import Milling.Proofs.Scalar.Real
import Milling.Scalar.Double

/-!
# Real values of numbers

The real number that a number of a program is exactly.  The digits of a double are those of its
real value: they are rounded once, a half to the even neighbour.
-/

namespace Milling

section Nearest

/-- A number is rounded by the part that it is above a whole number. -/
theorem nearestEven_add (whole : Int) {part : ℝ} (nonnegative : 0 ≤ part) (below : part < 1) :
    nearestEven (whole + part) =
      if part < 1 / 2 then whole
      else if 1 / 2 < part then whole + 1
      else if whole % 2 = 0 then whole
      else whole + 1 := by
  have floor : ⌊whole + part⌋ = whole := by
    rw [Int.floor_intCast_add, Int.floor_eq_zero_iff.mpr ⟨nonnegative, below⟩, add_zero]
  have fract : Int.fract (whole + part) = part := by
    rw [Int.fract_intCast_add, Int.fract_eq_self.mpr ⟨nonnegative, below⟩]
  rw [nearestEven, floor, fract]

theorem nearestEven_bounds (value : ℝ) :
    ⌊value⌋ ≤ nearestEven value ∧ nearestEven value ≤ ⌊value⌋ + 1 := by
  unfold nearestEven
  split_ifs <;> omega

theorem nearestEven_of_lt_half {value : ℝ} (nonnegative : 0 ≤ value) (low : value < 1 / 2) :
    nearestEven value = 0 := by
  have rounded := nearestEven_add 0 nonnegative (by linarith)
  rwa [Int.cast_zero, zero_add, if_pos low] at rounded

theorem nearestEven_intCast (whole : Int) : nearestEven whole = whole := by
  simp [nearestEven]

theorem nearestEven_neg (value : ℝ) : nearestEven (-value) = -nearestEven value := by
  by_cases isWhole : Int.fract value = 0
  · have whole : value = ⌊value⌋ := by rw [← Int.floor_add_fract value, isWhole]; simp
    rw [whole, ← Int.cast_neg, nearestEven_intCast, nearestEven_intCast]
  · have part : Int.fract (-value) = 1 - Int.fract value := Int.fract_neg isWhole
    have floor : ⌊-value⌋ = -⌊value⌋ - 1 := by
      have below := Int.floor_add_fract (-value)
      have above := Int.floor_add_fract value
      have cast : (⌊-value⌋ : ℝ) = (-⌊value⌋ - 1 : Int) := by
        push_cast
        linarith
      exact_mod_cast cast
    unfold nearestEven
    rw [part, floor]
    split_ifs <;> first | linarith | omega

/-- Halves of quotients of naturals are decided by their remainders. -/
theorem nearestEven_div {denominator : Nat} (positive : 0 < denominator) (numerator : Nat) :
    nearestEven ((numerator : ℝ) / denominator) =
      Decimal.roundHalfEven numerator denominator := by
  have part : Int.fract ((numerator : ℝ) / denominator) =
      (numerator % denominator : Nat) / denominator :=
    Int.fract_div_natCast_eq_div_natCast_mod
  have floor : ⌊(numerator : ℝ) / denominator⌋ = (numerator / denominator : Nat) := by
    rw [← Int.natCast_floor_eq_floor (by positivity), Nat.floor_div_eq_div]
  have size : (0 : ℝ) < denominator := by exact_mod_cast positive
  have below : ((numerator % denominator : Nat) : ℝ) / denominator < 1 / 2 ↔
      2 * (numerator % denominator) < denominator := by
    rw [div_lt_div_iff₀ size two_pos, one_mul, mul_comm]
    exact_mod_cast Iff.rfl
  have above : (1 : ℝ) / 2 < ((numerator % denominator : Nat) : ℝ) / denominator ↔
      denominator < 2 * (numerator % denominator) := by
    rw [div_lt_div_iff₀ two_pos size, one_mul, mul_comm]
    exact_mod_cast Iff.rfl
  unfold nearestEven Decimal.roundHalfEven
  rw [part, floor]
  simp only [below, above]
  split_ifs <;> first | rfl | omega

end Nearest

namespace Decimal.Binary

noncomputable def toReal (binary : Binary) : ℝ :=
  (if binary.negative then -1 else 1) * (binary.significand * 2 ^ binary.exponent)

theorem fraction_eq (binary : Binary) :
    (binary.significand : ℝ) * 2 ^ binary.exponent = binary.fraction.1 / binary.fraction.2 := by
  rw [fraction]
  rcases Int.eq_nat_or_neg binary.exponent with ⟨size, positive | negative⟩
  · simp [positive]
  · simp [negative, div_eq_mul_inv]

/-- A binary number is rounded as the real number that it is. -/
theorem scaled_eq (places : Nat) (binary : Binary) :
    binary.scaled places = nearestEven (binary.toReal * (10 ^ places : Nat)) := by
  have positive : 0 < binary.fraction.2 := Nat.two_pow_pos _
  have magnitude : nearestEven (binary.significand * 2 ^ binary.exponent * (10 ^ places : Nat)) =
      binary.scaledMagnitude places := by
    rw [fraction_eq, div_mul_eq_mul_div, ← Nat.cast_mul, nearestEven_div positive]
    rfl
  rw [scaled, toReal]
  cases binary.negative with
  | false => simpa using magnitude.symm
  | true =>
      rw [if_pos rfl, if_pos rfl, neg_one_mul, neg_mul, nearestEven_neg, magnitude]

end Decimal.Binary

/-- Number types whose numbers are real numbers and have the digits of these. -/
class MeasuredScalar (α : Type) [Scalar α] where
  /-- The real number that a finite number is. -/
  toReal : α → ℝ
  scaled_eq (places : Nat) (value : α) (finite : Scalar.isFinite value = true) :
    Scalar.scaled places value = nearestEven (toReal value * (10 ^ places : Nat))

noncomputable instance : MeasuredScalar ℝ where
  toReal value := value
  scaled_eq _ _ _ := rfl

noncomputable instance : MeasuredScalar Float where
  toReal value := ((Decimal.Binary.ofFloat? value).map Decimal.Binary.toReal).getD 0
  scaled_eq places value finite := by
    obtain ⟨binary, isBinary⟩ := Option.isSome_iff_exists.mp finite
    change ((Decimal.Binary.ofFloat? value).map (Decimal.Binary.scaled places)).getD 0 = _
    simp only [isBinary, Option.map_some, Option.getD_some]
    exact binary.scaled_eq places

end Milling

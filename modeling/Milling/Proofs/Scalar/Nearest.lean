import Mathlib
import Milling.Proofs.Scalar.Measure
import Milling.Proofs.Scalar.Order

/-!
# The double nearest to a number

Doubles are computed by cutting numbers off after some bits and rounding what is left.
However a number is given, as a mantissa with more bits than are kept, as a quotient with its
remainder, or as a whole number, the double depends on the number alone: it is the nearest one.
-/

namespace Milling.Double

open Float.Model (Format UnpackedFloat totalExponent)
open Float.Model.UnpackedFloat (Accuracy ExtendedMantissa shiftToTargetExponent)

/-! ## Numbers cut off after a half unit -/

section Cut

/-- The whole units of a number of half units, the half that is over, and whether there is
more. -/
def cut (halves : ℚ) : ExtendedMantissa where
  mantissa := ⌊halves⌋₊ / 2
  roundBit := ⌊halves⌋₊ % 2 != 0
  stickyBit := decide (halves ≠ ⌊halves⌋₊)

theorem floor_half (halves : ℚ) : ⌊halves / 2⌋₊ = ⌊halves⌋₊ / 2 := by
  simpa using Nat.floor_div_natCast halves 2

theorem eq_floor_half_iff {halves : ℚ} :
    halves / 2 = ⌊halves / 2⌋₊ ↔ ⌊halves⌋₊ % 2 = 0 ∧ halves = ⌊halves⌋₊ := by
  rw [floor_half]
  constructor
  · intro whole
    have double : halves = (2 * (⌊halves⌋₊ / 2) : Nat) := by
      push_cast
      linarith
    have same : ⌊halves⌋₊ = 2 * (⌊halves⌋₊ / 2) := by
      conv_lhs => rw [double, Nat.floor_natCast]
    exact ⟨by omega, by rw [same]; exact double⟩
  · rintro ⟨even, whole⟩
    have same : ⌊halves⌋₊ = 2 * (⌊halves⌋₊ / 2) := by omega
    have double : halves = (2 * (⌊halves⌋₊ / 2) : Nat) := by rw [← same]; exact whole
    push_cast at double
    linarith

theorem shiftRightOne_cut (halves : ℚ) : (cut halves).shiftRightOne = cut (halves / 2) := by
  have more : (⌊halves⌋₊ % 2 != 0 || decide (halves ≠ ⌊halves⌋₊)) =
      decide (halves / 2 ≠ ⌊halves / 2⌋₊) := by
    rw [Bool.eq_iff_iff, Bool.or_eq_true, bne_iff_ne, decide_eq_true_iff, decide_eq_true_iff,
      ne_eq (halves / 2), eq_floor_half_iff]
    tauto
  rw [ExtendedMantissa.shiftRightOne, cut, cut, ← more]
  simp only [floor_half]

/-- Shifting bits out is dividing by a power of two. -/
theorem cut_shiftRight (halves : ℚ) (count : Nat) :
    cut halves >>> count = cut (halves / 2 ^ count) := by
  change count.repeat ExtendedMantissa.shiftRightOne (cut halves) = _
  induction count with
  | zero => simp [Nat.repeat]
  | succ count shifted =>
      rw [Nat.repeat, shifted, shiftRightOne_cut, div_div, pow_succ]

theorem cut_add (whole : Nat) {part : ℚ} (nonnegative : 0 ≤ part) (below : part < 1) :
    cut (whole + part) = ⟨whole / 2, whole % 2 != 0, decide (part ≠ 0)⟩ := by
  have floor : ⌊whole + part⌋₊ = whole := by
    rw [add_comm, Nat.floor_add_natCast nonnegative, Nat.floor_eq_zero.mpr below, zero_add]
  have more : (whole + part ≠ whole) ↔ part ≠ 0 := by simp
  rw [cut, floor]
  simp only [more]

/-- A quotient of naturals with what its remainder says. -/
theorem cut_quotient (numerator : Nat) {denominator : Nat} (positive : 0 < denominator) :
    cut (2 * numerator / denominator) =
      ExtendedMantissa.ofMantissaAndAccuracy (numerator / denominator)
        (UnpackedFloat.accuracyOfFraction (numerator % denominator) denominator) := by
  have division := Nat.div_add_mod numerator denominator
  have small : (numerator % denominator : Nat) < (denominator : ℚ) := by
    exact_mod_cast Nat.mod_lt numerator positive
  generalize numerator / denominator = quotient at *
  generalize numerator % denominator = rest at *
  have size : (0 : ℚ) < denominator := by exact_mod_cast positive
  have parts : (2 * numerator / denominator : ℚ) =
      (2 * quotient : Nat) + 2 * rest / denominator := by
    rw [← division]
    push_cast
    field_simp
  have parts' : (2 * numerator / denominator : ℚ) =
      (2 * quotient + 1 : Nat) + (2 * rest - denominator) / denominator := by
    rw [parts]
    push_cast
    field_simp
    ring
  have whole : (2 * quotient + 1) / 2 = quotient := by omega
  have odd : (2 * quotient + 1) % 2 = 1 := by omega
  unfold UnpackedFloat.accuracyOfFraction
  by_cases isZero : rest = 0
  · subst isZero
    rw [if_pos rfl, parts, cut_add _ (by simp) (by simp)]
    simp [ExtendedMantissa.ofMantissaAndAccuracy]
  · rw [if_neg isZero]
    rcases lt_trichotomy (2 * rest) denominator with less | half | more
    · have below : (2 * rest / denominator : ℚ) < 1 := by
        rw [div_lt_one size]
        exact_mod_cast less
      rw [Nat.compare_eq_lt.mpr less, parts, cut_add _ (by positivity) below]
      simp [ExtendedMantissa.ofMantissaAndAccuracy, isZero, positive.ne']
    · have none : (2 * rest - denominator : ℚ) / denominator = 0 := by
        rw [← half]
        simp
      rw [Nat.compare_eq_eq.mpr half, parts', none, cut_add _ le_rfl one_pos]
      simp [ExtendedMantissa.ofMantissaAndAccuracy, whole, odd]
    · have beyond : (denominator : ℚ) < 2 * rest := by exact_mod_cast more
      have above : 0 < (2 * rest - denominator : ℚ) / denominator :=
        div_pos (sub_pos.mpr beyond) size
      have below : (2 * rest - denominator : ℚ) / denominator < 1 := by
        rw [div_lt_one size]
        linarith
      rw [Nat.compare_eq_gt.mpr more, parts', cut_add _ above.le below]
      simp [ExtendedMantissa.ofMantissaAndAccuracy, whole, odd, above.ne']

theorem cut_exact (mantissa : Nat) :
    cut (2 * mantissa) = ExtendedMantissa.ofMantissaAndAccuracy mantissa .exact := by
  have quotient := cut_quotient mantissa Nat.one_pos
  simpa [UnpackedFloat.accuracyOfFraction, Nat.mod_one] using quotient

theorem roundedMantissa_cut {halves : ℚ} (nonnegative : 0 ≤ halves) :
    (cut halves).roundedMantissa = nearestEven (halves / 2 : ℚ) := by
  obtain ⟨whole, part, least, below, rfl⟩ :
      ∃ (whole : Nat) (part : ℚ), 0 ≤ part ∧ part < 1 ∧ halves = whole + part :=
    ⟨⌊halves⌋₊, halves - ⌊halves⌋₊, sub_nonneg.mpr (Nat.floor_le nonnegative),
      sub_lt_iff_lt_add'.mpr (Nat.lt_floor_add_one halves), by ring⟩
  have least' : (0 : ℝ) ≤ part := by exact_mod_cast least
  have below' : (part : ℝ) < 1 := by exact_mod_cast below
  rw [cut_add whole least below]
  rcases whole.even_or_odd' with ⟨units, rfl | rfl⟩
  · have value : ((((2 * units : Nat) + part) / 2 : ℚ) : ℝ) = (units : Int) + part / 2 := by
      push_cast
      ring
    have low : (part / 2 : ℝ) < 1 / 2 := by linarith
    rw [value, nearestEven_add _ (by linarith) (by linarith), if_pos low]
    by_cases isWhole : part = 0 <;>
      simp [ExtendedMantissa.roundedMantissa, ExtendedMantissa.accuracy,
        Accuracy.roundToNearestEven, isWhole]
  · have value : ((((2 * units + 1 : Nat) + part) / 2 : ℚ) : ℝ) =
        (units : Int) + (part + 1) / 2 := by
      push_cast
      ring
    have high : ¬((part + 1) / 2 : ℝ) < 1 / 2 := by linarith
    have half : (2 * units + 1) / 2 = units := by omega
    have odd : (2 * units + 1) % 2 = 1 := by omega
    rw [value, nearestEven_add _ (by linarith) (by linarith), if_neg high, half, odd]
    by_cases isWhole : part = 0
    · have tie : ¬(1 / 2 : ℝ) < (part + 1) / 2 := by
        rw [isWhole]
        norm_num
      have even : (if (units : Int) % 2 = 0 then (units : Int) else units + 1) =
          (units + units % 2 : Nat) := by split <;> omega
      rw [if_neg tie, even]
      simp [ExtendedMantissa.roundedMantissa, ExtendedMantissa.accuracy,
        Accuracy.roundToNearestEven, isWhole]
    · have positive : (0 : ℝ) < part := lt_of_le_of_ne least' (by exact_mod_cast Ne.symm isWhole)
      have beyond : (1 / 2 : ℝ) < (part + 1) / 2 := by linarith
      rw [if_pos beyond]
      simp [ExtendedMantissa.roundedMantissa, ExtendedMantissa.accuracy,
        Accuracy.roundToNearestEven, isWhole]

end Cut

/-! ## Rounding depends on the number alone -/

section Nearest

/-- The exponent that the double nearest to a number has, unless rounding up carries. -/
def roundingExponent (value : ℚ) : Int :=
  Format.binary64.targetExponent (Int.log 2 value + 1)

theorem targetExponent_eq (exponent : Int) :
    Format.binary64.targetExponent exponent = max (exponent - 53) (-1074) := by
  have bits : Format.binary64.mantissaBits = 53 := rfl
  have least : Format.binary64.minExponent = -1074 := rfl
  rw [Format.targetExponent, bits, least]
  rfl

theorem log_div_zpow {value : ℚ} (positive : 0 < value) (exponent : Int) :
    Int.log 2 (value / 2 ^ exponent) = Int.log 2 value - exponent := by
  have unit : (0 : ℚ) < 2 ^ exponent := zpow_pos two_pos exponent
  refine eq_of_forall_le_iff fun bound => ?_
  have quotient := Int.zpow_le_iff_le_log (x := bound) Nat.one_lt_two (div_pos positive unit)
  have whole := Int.zpow_le_iff_le_log (x := bound + exponent) Nat.one_lt_two positive
  rw [← quotient, le_div_iff₀ unit, Nat.cast_ofNat, ← zpow_add₀ two_ne_zero, le_sub_iff_add_le,
    ← whole, Nat.cast_ofNat]

/-- The whole units of a number tell where its digits begin, if there are any. -/
theorem totalExponent_floor {value : ℚ} (positive : 0 < value) {exponent : Int}
    (isSome : ⌊value / 2 ^ exponent⌋₊ ≠ 0) :
    totalExponent ⌊value / 2 ^ exponent⌋₊ exponent = Int.log 2 value + 1 := by
  have above : 1 ≤ value / 2 ^ exponent := (Nat.one_le_floor_iff _).mp (by omega)
  have log := log_div_zpow positive exponent
  rw [Int.log_of_one_le_right 2 above, ← Nat.log2_eq_log_two] at log
  rw [totalExponent]
  omega

theorem half_units (value : ℚ) (exponent : Int) :
    value / 2 ^ (exponent - 1) / 2 = value / 2 ^ exponent := by
  rw [div_div, ← zpow_add_one₀ two_ne_zero, sub_add_cancel]

theorem targetExponent_floor {value : ℚ} (positive : 0 < value) {exponent : Int}
    (precise : exponent ≤ roundingExponent value) :
    Format.binary64.targetExponent (totalExponent ⌊value / 2 ^ exponent⌋₊ exponent) =
      roundingExponent value := by
  by_cases isZero : ⌊value / 2 ^ exponent⌋₊ = 0
  · have unit : (0 : ℚ) < 2 ^ exponent := zpow_pos two_pos exponent
    have below : value < 2 ^ exponent := by
      have less := Nat.floor_eq_zero.mp isZero
      rwa [div_lt_one unit] at less
    have low : Int.log 2 value < exponent :=
      (Int.lt_zpow_iff_log_lt Nat.one_lt_two positive).mp (by simpa using below)
    rw [isZero]
    simp only [roundingExponent, targetExponent_eq, totalExponent, Nat.log2_zero] at precise ⊢
    omega
  · rw [totalExponent_floor positive isZero, roundingExponent]

theorem le_roundingExponent (value : ℚ) : -1074 ≤ roundingExponent value := by
  rw [roundingExponent, targetExponent_eq]
  omega

/-- A positive number in units of its last place, rounded. -/
noncomputable def roundedUnits (value : ℚ) : Nat :=
  (nearestEven (value / 2 ^ roundingExponent value : ℚ)).toNat

/-- The double nearest to a positive number, if exponents had no upper bound. -/
noncomputable def nearest (value : ℚ) : UnpackedFloat :=
  if isZero : roundedUnits value = 0 then .zero .positive
  else if roundedUnits value = 2 ^ 53 then
    .finite .positive (2 ^ 52) (roundingExponent value + 1) (Nat.two_pow_pos 52)
  else .finite .positive (roundedUnits value) (roundingExponent value) (Nat.pos_of_ne_zero isZero)

theorem roundedMantissa_cut_units {value : ℚ} (nonnegative : 0 ≤ value) :
    (cut (value / 2 ^ (roundingExponent value - 1))).roundedMantissa = roundedUnits value := by
  have rounded := roundedMantissa_cut
    (div_nonneg nonnegative (zpow_pos two_pos (roundingExponent value - 1)).le)
  rw [half_units] at rounded
  rw [roundedUnits, ← rounded, Int.toNat_natCast]

theorem roundedUnits_le (value : ℚ) : roundedUnits value ≤ 2 ^ 53 := by
  have unit : (0 : ℚ) < 2 ^ roundingExponent value := zpow_pos two_pos _
  have least : Int.log 2 value + 1 ≤ 53 + roundingExponent value := by
    rw [roundingExponent, targetExponent_eq]
    omega
  have most : value / 2 ^ roundingExponent value < 2 ^ 53 := by
    rw [div_lt_iff₀ unit]
    calc value < 2 ^ (Int.log 2 value + 1) := by
          simpa using Int.lt_zpow_succ_log_self Nat.one_lt_two value
      _ ≤ 2 ^ (53 + roundingExponent value) := zpow_le_zpow_right₀ one_le_two least
      _ = 2 ^ 53 * 2 ^ roundingExponent value := by rw [zpow_add₀ two_ne_zero]; rfl
  have floor : ⌊((value / 2 ^ roundingExponent value : ℚ) : ℝ)⌋ < 2 ^ 53 := by
    rw [Rat.floor_cast, Int.floor_lt]
    exact_mod_cast most
  have bounds := nearestEven_bounds ((value / 2 ^ roundingExponent value : ℚ) : ℝ)
  rw [roundedUnits]
  omega

section Carry

variable {rounded : Nat} {exponent : Int}

/-- What is rounded to few enough digits is not shifted again. -/
theorem shiftToTargetExponent_of_lt (low : -1074 ≤ exponent) (few : rounded < 2 ^ 53) :
    shiftToTargetExponent .binary64 rounded exponent .exact =
      (.ofMantissaAndAccuracy rounded .exact, exponent) := by
  have digits : rounded.log2 ≤ 52 := by
    rcases rounded.eq_zero_or_pos with isZero | positive
    · simp [isZero]
    · exact Nat.lt_succ_iff.mp ((Nat.log2_lt positive.ne').mpr few)
  have none : (Format.binary64.targetExponent (totalExponent rounded exponent) - exponent).toNat =
      0 := by
    rw [targetExponent_eq, totalExponent]
    omega
  rw [shiftToTargetExponent, UnpackedFloat.shiftToExponent, none]
  exact Prod.ext rfl (add_zero exponent)

/-- What is rounded up to one digit more is halved, which is exact. -/
theorem shiftToTargetExponent_of_carry (low : -1074 ≤ exponent) :
    shiftToTargetExponent .binary64 (2 ^ 53) exponent .exact =
      (.ofMantissaAndAccuracy (2 ^ 52) .exact, exponent + 1) := by
  have one : (Format.binary64.targetExponent (totalExponent (2 ^ 53) exponent) - exponent).toNat =
      1 := by
    rw [targetExponent_eq, totalExponent, Nat.log2_two_pow]
    omega
  rw [shiftToTargetExponent, UnpackedFloat.shiftToExponent, one]
  rfl

theorem roundWithAccuracy_of_shifts {mantissa final : Nat} {middle last : Int}
    {accuracy : Accuracy} {extended : ExtendedMantissa}
    (first : shiftToTargetExponent .binary64 mantissa exponent accuracy = (extended, middle))
    (isRounded : extended.roundedMantissa = rounded)
    (second : shiftToTargetExponent .binary64 rounded middle .exact =
      (.ofMantissaAndAccuracy final .exact, last)) :
    UnpackedFloat.roundWithAccuracy .binary64 .positive mantissa exponent accuracy =
      if isZero : final = 0 then .zero .positive
      else .finite .positive final last (Nat.pos_of_ne_zero isZero) := by
  rw [UnpackedFloat.roundWithAccuracy, first]
  simp only [isRounded, second]
  rfl

end Carry

theorem mantissa_ofMantissaAndAccuracy (mantissa : Nat) (accuracy : Accuracy) :
    (ExtendedMantissa.ofMantissaAndAccuracy mantissa accuracy).mantissa = mantissa := by
  rcases accuracy with _ | order
  · rfl
  · cases order <;> rfl

theorem mantissa_cut (value : ℚ) (exponent : Int) :
    (cut (value / 2 ^ (exponent - 1))).mantissa = ⌊value / 2 ^ exponent⌋₊ := by
  rw [← half_units value exponent, floor_half]
  rfl

/-- Rounding gives the same double for every mantissa, exponent and accuracy that are those of
one number. -/
theorem roundWithAccuracy_eq_nearest {value : ℚ} (positive : 0 < value) {mantissa : Nat}
    {exponent : Int} {accuracy : Accuracy}
    (described : cut (value / 2 ^ (exponent - 1)) =
      ExtendedMantissa.ofMantissaAndAccuracy mantissa accuracy)
    (precise : exponent ≤ roundingExponent value) :
    UnpackedFloat.roundWithAccuracy .binary64 .positive mantissa exponent accuracy =
      nearest value := by
  have isMantissa : mantissa = ⌊value / 2 ^ exponent⌋₊ := by
    rw [← mantissa_ofMantissaAndAccuracy mantissa accuracy, ← described, mantissa_cut]
  have target := targetExponent_floor positive precise
  rw [← isMantissa] at target
  obtain ⟨count, isCount⟩ := Int.le.dest precise
  have shifted : value / 2 ^ (exponent - 1) / 2 ^ count =
      value / 2 ^ (roundingExponent value - 1) := by
    rw [div_div, ← zpow_natCast, ← zpow_add₀ two_ne_zero, ← isCount]
    congr 2
    omega
  have first : shiftToTargetExponent .binary64 mantissa exponent accuracy =
      (cut (value / 2 ^ (roundingExponent value - 1)), roundingExponent value) := by
    have isShift : (roundingExponent value - exponent).toNat = count := by omega
    rw [shiftToTargetExponent, target, UnpackedFloat.shiftToExponent, isShift, ← described,
      cut_shiftRight, shifted, isCount]
  have low := le_roundingExponent value
  have rounded := roundedMantissa_cut_units positive.le
  by_cases carries : roundedUnits value = 2 ^ 53
  · rw [roundWithAccuracy_of_shifts first (rounded.trans carries)
      (shiftToTargetExponent_of_carry low)]
    simp [nearest, carries]
  · have few := lt_of_le_of_ne (roundedUnits_le value) carries
    rw [roundWithAccuracy_of_shifts first rounded (shiftToTargetExponent_of_lt low few), nearest]
    simp only [carries, if_false]

/-! ### Operations that round once -/

theorem log_mul_zpow {mantissa : Nat} (positive : 0 < mantissa) (exponent : Int) :
    Int.log 2 (mantissa * 2 ^ exponent : ℚ) = mantissa.log2 + exponent := by
  have size : (0 : ℚ) < mantissa * 2 ^ exponent := by positivity
  have log := log_div_zpow size exponent
  rw [mul_div_cancel_right₀ _ (zpow_ne_zero _ two_ne_zero), Int.log_natCast,
    ← Nat.log2_eq_log_two] at log
  omega

/-- Whole units are described exactly. -/
theorem cut_mul_zpow (mantissa : Nat) (exponent : Int) :
    cut (mantissa * 2 ^ exponent / 2 ^ (exponent - 1)) =
      ExtendedMantissa.ofMantissaAndAccuracy mantissa .exact := by
  rw [mul_div_assoc, ← zpow_sub₀ two_ne_zero, sub_sub_cancel, zpow_one, mul_comm]
  exact cut_exact mantissa

/-- An exact mantissa is rounded to the nearest double when it has digits enough, or when it
need not be shifted. -/
theorem roundWithAccuracy_exact {mantissa : Nat} (positive : 0 < mantissa) {exponent : Int}
    (precise : exponent ≤ Format.binary64.targetExponent (totalExponent mantissa exponent)) :
    UnpackedFloat.roundWithAccuracy .binary64 .positive mantissa exponent .exact =
      nearest (mantissa * 2 ^ exponent) := by
  refine roundWithAccuracy_eq_nearest (by positivity) (cut_mul_zpow mantissa exponent) ?_
  rw [roundingExponent, log_mul_zpow positive]
  convert precise using 2
  rw [totalExponent]
  omega

/-- A product is rounded once when its factors have digits enough. -/
theorem mul_eq_nearest {mantissa fraction : Nat} {exponent power : Int} (positive : 0 < mantissa)
    (positive' : 0 < fraction) (digits : 52 ≤ (mantissa * fraction).log2) :
    UnpackedFloat.mul .binary64 (.finite .positive mantissa exponent positive)
        (.finite .positive fraction power positive') =
      nearest (mantissa * 2 ^ exponent * (fraction * 2 ^ power)) := by
  have value : (mantissa * 2 ^ exponent * (fraction * 2 ^ power) : ℚ) =
      (mantissa * fraction : Nat) * 2 ^ (exponent + power) := by
    rw [zpow_add₀ two_ne_zero]
    push_cast
    ring
  rw [value, ← roundWithAccuracy_exact (Nat.mul_pos positive positive')]
  · rfl
  · rw [targetExponent_eq, totalExponent]
    omega

theorem le_log_div {first second : ℚ} (positive : 0 < first) (positive' : 0 < second) :
    Int.log 2 first - (Int.log 2 second + 1) ≤ Int.log 2 (first / second) := by
  have least := Int.zpow_log_le_self Nat.one_lt_two positive
  have most := Int.lt_zpow_succ_log_self Nat.one_lt_two second
  rw [← Int.zpow_le_iff_le_log Nat.one_lt_two (div_pos positive positive'), le_div_iff₀ positive']
  calc ((2 : Nat) : ℚ) ^ (Int.log 2 first - (Int.log 2 second + 1)) * second
      ≤ (2 : Nat) ^ (Int.log 2 first - (Int.log 2 second + 1)) *
          (2 : Nat) ^ (Int.log 2 second + 1) := by gcongr
    _ = (2 : Nat) ^ Int.log 2 first := by
        rw [← zpow_add₀ (by simp), sub_add_cancel]
    _ ≤ first := least

/-- A quotient is rounded once. -/
theorem div_eq_nearest {mantissa fraction : Nat} {exponent power : Int} (positive : 0 < mantissa)
    (positive' : 0 < fraction) :
    UnpackedFloat.div .binary64 (.finite .positive mantissa exponent positive)
        (.finite .positive fraction power positive') =
      nearest (mantissa * 2 ^ exponent / (fraction * 2 ^ power)) := by
  have above : (0 : ℚ) < mantissa * 2 ^ exponent := by positivity
  have above' : (0 : ℚ) < fraction * 2 ^ power := by positivity
  have log := le_log_div above above'
  rw [log_mul_zpow positive, log_mul_zpow positive'] at log
  simp only [UnpackedFloat.div, UnpackedFloat.divCore]
  generalize isTarget : min (exponent - power) (Format.binary64.targetExponent
    (totalExponent mantissa exponent - totalExponent fraction power)) = target
  have low : target ≤ exponent - power := isTarget ▸ min_le_left _ _
  obtain ⟨count, isCount⟩ := Int.le.dest low
  have isShift : (exponent - power - target).toNat = count := by omega
  refine roundWithAccuracy_eq_nearest (div_pos above above') ?_ ?_
  · rw [isShift, Nat.shiftLeft_eq, ← cut_quotient _ positive']
    congr 1
    rw [show exponent = power + target + count by omega, zpow_add₀ two_ne_zero,
      zpow_add₀ two_ne_zero, zpow_sub_one₀ two_ne_zero, zpow_natCast]
    push_cast
    field_simp
  · rw [← isTarget, roundingExponent]
    simp only [targetExponent_eq, totalExponent]
    omega

theorem log2_mul_two_pow {number : Nat} (positive : 0 < number) (count : Nat) :
    (number * 2 ^ count).log2 = number.log2 + count := by
  induction count with
  | zero => simp
  | succ count shifted =>
      rw [pow_succ, ← mul_assoc, mul_comm, Nat.log2_two_mul (by positivity), shifted, add_assoc]

/-- Every whole number is rounded once. -/
theorem ofNat_eq_nearest {number : Nat} (positive : 0 < number) :
    UnpackedFloat.ofNat .binary64 number = nearest number := by
  have isPositive : compare (number : Int) 0 = .gt := by
    rw [compare_gt_iff_gt]
    exact_mod_cast positive
  rw [UnpackedFloat.ofNat, UnpackedFloat.ofInt, UnpackedFloat.normalize, isPositive]
  simp only [Int.toNat_natCast, UnpackedFloat.round, UnpackedFloat.decreaseExponent, zero_sub]
  generalize isCount : (-Format.binary64.targetExponent (totalExponent number 0)).toNat = count
  have value : (number : ℚ) = (number * 2 ^ count : Nat) * 2 ^ (-count : Int) := by
    rw [zpow_neg, zpow_natCast]
    push_cast
    field_simp
  rw [Nat.shiftLeft_eq]
  conv_rhs => rw [value]
  refine roundWithAccuracy_exact (by positivity) ?_
  have digits := log2_mul_two_pow positive count
  simp only [targetExponent_eq, totalExponent, digits] at isCount ⊢
  omega

end Nearest

/-! ## Numbers that are doubles -/

section Normal

/-- A number that is a double, by the significand and the exponent that it has as one. -/
structure IsNormal (value : ℚ) (mantissa : Nat) (exponent : Int) : Prop where
  value_eq : value = mantissa * 2 ^ exponent
  full : 2 ^ 52 ≤ mantissa
  small : mantissa < 2 ^ 53
  low : -1074 ≤ exponent
  high : exponent ≤ 971

/-- The parts of packed fields that are neither the lowest nor the highest exponent. -/
theorem unpack_packComponents {biased : BitVec 11} (isSome : biased ≠ 0#11)
    (isFinite : biased ≠ -1#11) (fraction : BitVec 52) :
    UnpackedFloat.unpack .binary64
        (UnpackedFloat.packComponents .binary64 .positive biased fraction) =
      .finite .positive (1#1 ++ fraction).toNat (biased.toNat - 1075)
        (by rw [toNat_one_append]; omega) := by
  have bias : Format.binary64.exponentBias = 1023 := rfl
  simp only [UnpackedFloat.unpack, UnpackedFloat.unpackExponent_packComponents,
    UnpackedFloat.unpackMantissa_packComponents, unpackSign_packComponents, isSome, isFinite,
    if_false, bias]
  rfl

namespace IsNormal

variable {value : ℚ} {mantissa : Nat} {exponent : Int}

theorem positive (normal : IsNormal value mantissa exponent) : 0 < mantissa :=
  lt_of_lt_of_le (by decide) normal.full

theorem log2_eq (normal : IsNormal value mantissa exponent) : mantissa.log2 = 52 :=
  (Nat.log2_eq_iff normal.positive.ne').mpr ⟨normal.full, normal.small⟩

/-- The double nearest to a double is the double. -/
theorem nearest_eq (normal : IsNormal value mantissa exponent) :
    nearest value = .finite .positive mantissa exponent normal.positive := by
  have target : roundingExponent value = exponent := by
    have low := normal.low
    rw [roundingExponent, normal.value_eq, log_mul_zpow normal.positive, normal.log2_eq,
      targetExponent_eq]
    omega
  have units : roundedUnits value = mantissa := by
    rw [roundedUnits, target, normal.value_eq, mul_div_cancel_right₀ _ (zpow_ne_zero _ two_ne_zero)]
    simpa using congrArg Int.toNat (nearestEven_intCast mantissa)
  have few : ¬mantissa = 2 ^ 53 := normal.small.ne
  rw [nearest, dif_neg (units ▸ normal.positive.ne'), if_neg (units ▸ few)]
  simp only [units, target]

/-- The whole part of a whole number is the number. -/
theorem floor_eq {number : Nat}
    (normal : IsNormal number mantissa exponent) :
    mantissa * 2 ^ exponent.toNat / 2 ^ (-exponent).toNat = number := by
  have value := normal.value_eq
  rcases Int.eq_nat_or_neg exponent with ⟨size, isPositive | isNegative⟩
  · rw [isPositive, zpow_natCast] at value
    have whole : number = mantissa * 2 ^ size := by exact_mod_cast value
    simp [isPositive, whole]
  · rw [isNegative, zpow_neg, zpow_natCast, ← div_eq_mul_inv, eq_div_iff (by positivity)] at value
    have whole : number * 2 ^ size = mantissa := by exact_mod_cast value
    simp [isNegative, ← whole]

/-- Doubles are ordered as the numbers that they are. -/
theorem le {other : ℚ} {fraction : Nat} {power : Int} (normal : IsNormal value mantissa exponent)
    (normal' : IsNormal other fraction power)
    (ordered : value ≤ other) :
    exponent < power ∨ exponent = power ∧ mantissa ≤ fraction := by
  have positive : 0 < value := by
    rw [normal.value_eq]
    have above := normal.positive
    positivity
  have logs := Int.log_mono_right (b := 2) positive ordered
  rw [normal.value_eq, normal'.value_eq, log_mul_zpow normal.positive,
    log_mul_zpow normal'.positive, normal.log2_eq, normal'.log2_eq] at logs
  rcases (show exponent ≤ power by omega).lt_or_eq with less | same
  · exact .inl less
  · right
    refine ⟨same, ?_⟩
    rw [normal.value_eq, normal'.value_eq, same, mul_le_mul_iff_left₀ (zpow_pos two_pos _)] at ordered
    exact_mod_cast ordered

/-- A double keeps its parts when it is packed. -/
theorem unpack_pack (normal : IsNormal value mantissa exponent) :
    (Float.Model.pack (.finite .positive mantissa exponent normal.positive)).unpack =
      .finite .positive mantissa exponent normal.positive := by
  have full := normal.full
  have small := normal.small
  have low := normal.low
  have high := normal.high
  obtain ⟨biased, isBiased⟩ : ∃ biased : Nat, exponent + 1075 = biased :=
    Int.eq_ofNat_of_zero_le (by omega)
  have packed : UnpackedFloat.pack .binary64
      (.finite .positive mantissa exponent normal.positive) =
        UnpackedFloat.packComponents .binary64 .positive (BitVec.ofNat 11 biased)
          (BitVec.ofNat 52 mantissa) := by
    have bias : Format.binary64.exponentBias = 1023 := rfl
    have sum : (exponent + (1023 : Nat) + (52 : Nat)).toNat = biased := by omega
    have inside : ¬2 ^ 11 ≤ biased + 1 := by omega
    have digits : mantissa.log2 + 1 = Format.binary64.mantissaBits := by
      rw [normal.log2_eq]
      rfl
    simp only [UnpackedFloat.pack, bias, sum, inside, if_false, digits, if_true]
  have field : (BitVec.ofNat 11 biased).toNat = biased := by
    rw [BitVec.toNat_ofNat]
    omega
  have isSome : BitVec.ofNat 11 biased ≠ 0#11 := by
    intro isNone
    rw [isNone, BitVec.toNat_zero] at field
    omega
  have isFinite : BitVec.ofNat 11 biased ≠ -1#11 := by
    intro isAll
    have all : (-1#11).toNat = 2047 := rfl
    rw [isAll, all] at field
    omega
  have significand : (1#1 ++ BitVec.ofNat 52 mantissa).toNat = mantissa := by
    rw [toNat_one_append, BitVec.toNat_ofNat]
    omega
  have unbiased : (biased : Int) - 1075 = exponent := by omega
  change UnpackedFloat.unpack .binary64 (UnpackedFloat.pack .binary64 _) = _
  rw [packed, unpack_packComponents isSome isFinite]
  simp only [significand, field, unbiased]

end IsNormal

theorem pack_of_overflow {mantissa : Nat} {exponent : Int} (positive : 0 < mantissa)
    (high : 971 < exponent) :
    Float.Model.pack (.finite .positive mantissa exponent positive) =
      Float.Model.pack (.infinity .positive) := by
  have bias : Format.binary64.exponentBias = 1023 := rfl
  have outside : 2 ^ 11 ≤ (exponent + (1023 : Nat) + (52 : Nat)).toNat + 1 := by omega
  simp only [Float.Model.pack, UnpackedFloat.pack, bias, outside, if_true]

/-- Numbers that are too large are read as infinite. -/
theorem pack_nearest_of_large {value : ℚ} (large : 2 ^ 1024 ≤ value) :
    Float.Model.pack (nearest value) = Float.Model.pack (.infinity .positive) := by
  have positive : 0 < value := lt_of_lt_of_le (by positivity) large
  have log : 1024 ≤ Int.log 2 value := by
    rw [← Int.zpow_le_iff_le_log Nat.one_lt_two positive]
    exact_mod_cast large
  have target : roundingExponent value = Int.log 2 value - 52 := by
    rw [roundingExponent, targetExponent_eq]
    omega
  have isSome : roundedUnits value ≠ 0 := by
    have unit : (0 : ℚ) < 2 ^ roundingExponent value := zpow_pos two_pos _
    have least : (2 : ℚ) ^ roundingExponent value ≤ value := by
      have below := Int.zpow_le_iff_le_log (x := roundingExponent value) Nat.one_lt_two positive
      rw [Nat.cast_ofNat] at below
      exact below.mpr (by omega)
    have floor : 1 ≤ ⌊((value / 2 ^ roundingExponent value : ℚ) : ℝ)⌋ := by
      rw [Rat.floor_cast, Int.le_floor]
      exact_mod_cast (one_le_div unit).mpr least
    have bounds := nearestEven_bounds ((value / 2 ^ roundingExponent value : ℚ) : ℝ)
    rw [roundedUnits]
    omega
  rw [nearest, dif_neg isSome]
  split_ifs
  · exact pack_of_overflow _ (by omega)
  · exact pack_of_overflow _ (by omega)

/-- Numbers that are too small are read as zero. -/
theorem nearest_of_small {value : ℚ} (positive : 0 < value) (small : value < 2 ^ (-1075 : Int)) :
    nearest value = .zero .positive := by
  have log : Int.log 2 value < -1075 :=
    (Int.lt_zpow_iff_log_lt Nat.one_lt_two positive).mp (by simpa using small)
  have target : roundingExponent value = -1074 := by
    rw [roundingExponent, targetExponent_eq]
    omega
  have unit : (0 : ℚ) < 2 ^ (-1074 : Int) := zpow_pos two_pos _
  have half : (2 : ℚ) ^ (-1075 : Int) = 1 / 2 * 2 ^ (-1074 : Int) := by
    rw [show (-1075 : Int) = -1 + -1074 by norm_num, zpow_add₀ two_ne_zero]
    norm_num
  have below : value / 2 ^ (-1074 : Int) < 1 / 2 := by
    rw [div_lt_iff₀ unit, ← half]
    exact small
  have isZero : roundedUnits value = 0 := by
    have nonnegative : (0 : ℝ) ≤ (value / 2 ^ (-1074 : Int) : ℚ) :=
      Rat.cast_nonneg.mpr (div_pos positive unit).le
    have below' := (Rat.cast_lt (K := ℝ)).mpr below
    rw [Rat.cast_div 1 2, Rat.cast_one, Rat.cast_ofNat] at below'
    rw [roundedUnits, target, nearestEven_of_lt_half nonnegative below', Int.toNat_zero]
  rw [nearest, dif_pos isZero]

end Normal

end Milling.Double

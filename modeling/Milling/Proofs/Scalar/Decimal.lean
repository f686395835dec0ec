import Mathlib
import Milling.Proofs.Scalar.Comparison
import Milling.Proofs.Scalar.Nearest
import Milling.Proofs.Scalar.Text

/-!
# Decimals of doubles

Every decimal is read as the double nearest to it, whether it is looked up in a table of
powers of ten, computed as a quotient, or found to be out of range by its digits.  So decimals
of one value are one double, and whole numbers of moderate size are themselves.
-/

namespace Milling

namespace Double

open Float.Model (Format UnpackedFloat)

/-! ## Numbers that doubles hold -/

section Holding

/-- The double nearest to a positive number. -/
noncomputable def rounded (value : ℚ) : Float := .ofModel (.pack (nearest value))

/-- A number that is held exactly. -/
def Holds (float : Float) (value : ℚ) : Prop :=
  ∃ mantissa exponent, ∃ normal : IsNormal value mantissa exponent,
    float.toModel.unpack = .finite .positive mantissa exponent normal.positive

theorem IsNormal.holds {value : ℚ} {mantissa : Nat} {exponent : Int}
    (normal : IsNormal value mantissa exponent) : Holds (rounded value) value :=
  ⟨mantissa, exponent, normal, by rw [rounded, normal.nearest_eq, normal.unpack_pack]⟩

variable {first second : Float} {value other : ℚ}

theorem Holds.mul (holds : Holds first value) (holds' : Holds second other) :
    first * second = rounded (value * other) := by
  obtain ⟨mantissa, exponent, normal, unpacked⟩ := holds
  obtain ⟨fraction, power, normal', unpacked'⟩ := holds'
  change Float.ofModel (.pack (UnpackedFloat.mul .binary64 first.toModel.unpack
    second.toModel.unpack)) = _
  have digits : 52 ≤ (mantissa * fraction).log2 := by
    rw [Nat.le_log2 (Nat.mul_pos normal.positive normal'.positive).ne']
    exact normal.full.trans (Nat.le_mul_of_pos_right _ normal'.positive)
  rw [unpacked, unpacked', mul_eq_nearest _ _ digits, ← normal.value_eq, ← normal'.value_eq,
    rounded]

theorem Holds.div (holds : Holds first value) (holds' : Holds second other) :
    first / second = rounded (value / other) := by
  obtain ⟨mantissa, exponent, normal, unpacked⟩ := holds
  obtain ⟨fraction, power, normal', unpacked'⟩ := holds'
  change Float.ofModel (.pack (UnpackedFloat.div .binary64 first.toModel.unpack
    second.toModel.unpack)) = _
  rw [unpacked, unpacked', div_eq_nearest, ← normal.value_eq, ← normal'.value_eq, rounded]

theorem Holds.isFinite (holds : Holds first value) : Scalar.isFinite first = true := by
  obtain ⟨mantissa, exponent, normal, unpacked⟩ := holds
  rw [isFinite_eq_isSome, unpacked]
  rfl

theorem Holds.floor {number : Nat} (holds : Holds first number) :
    Scalar.floor first = number := by
  obtain ⟨mantissa, exponent, normal, unpacked⟩ := holds
  have parts := ofFloat?_parts first
  rw [unpacked] at parts
  obtain ⟨binary, isBinary, same⟩ := Option.map_eq_some_iff.mp parts
  obtain ⟨isPositive, isMantissa, isExponent⟩ : binary.negative = false ∧
      binary.significand = mantissa ∧ binary.exponent = exponent := by simpa [isNegative] using same
  have floor : Scalar.floor first = binary.floor := by simp [Scalar.floor, isBinary]
  rw [floor, floor_of_positive isPositive, isMantissa, isExponent, normal.floor_eq]

theorem Holds.zero_le (holds : Holds first value) : Scalar.ofInt 0 ≤ first := by
  obtain ⟨mantissa, exponent, normal, unpacked⟩ := holds
  have zero : (Scalar.ofInt 0 : Float).toModel.unpack = .zero .positive := rfl
  rw [le_iff, unpacked, zero]
  rfl

theorem Holds.le (holds : Holds first value) (holds' : Holds second other)
    (ordered : value ≤ other) : first ≤ second := by
  obtain ⟨mantissa, exponent, normal, unpacked⟩ := holds
  obtain ⟨fraction, power, normal', unpacked'⟩ := holds'
  rw [le_iff, unpacked, unpacked']
  exact (isLE_then_compare exponent power mantissa fraction).mpr (normal.le normal' ordered)

/-- Whole numbers of moderate size are doubles. -/
theorem exists_isNormal {number : Nat} (positive : 0 < number) (bounded : number ≤ exactBound) :
    ∃ mantissa exponent, IsNormal number mantissa exponent ∧ exponent ≤ 1 := by
  have limit : exactBound = 2 ^ 53 := rfl
  rcases bounded.lt_or_eq with less | same
  · have digits : number.log2 < 53 := (Nat.log2_lt positive.ne').mpr less
    have length := log2_mul_two_pow positive (52 - number.log2)
    have range := (Nat.log2_eq_iff (by positivity)).mp length
    rw [Nat.add_sub_cancel' (by omega)] at range
    refine ⟨number * 2 ^ (52 - number.log2), number.log2 - 52,
      ⟨?_, range.1, range.2, by omega, by omega⟩, by omega⟩
    have power : (number.log2 - 52 : Int) = -(52 - number.log2 : Nat) := by omega
    rw [power, zpow_neg, zpow_natCast]
    push_cast
    field_simp
  · refine ⟨2 ^ 52, 1, ⟨?_, le_rfl, by decide, by decide, by decide⟩, le_rfl⟩
    rw [same, limit]
    norm_num

theorem holds_ofNat {number : Nat} {mantissa : Nat} {exponent : Int} (positive : 0 < number)
    (normal : IsNormal number mantissa exponent) :
    Holds (.ofModel (.ofNat number)) number := by
  rw [Float.Model.ofNat, ofNat_eq_nearest positive]
  exact normal.holds

end Holding

/-! ## Decimals within range -/

section Within

theorem holds_toUInt64_toFloat {number : Nat} (positive : 0 < number)
    (bounded : number < exactBound) : Holds number.toUInt64.toFloat number := by
  obtain ⟨mantissa, exponent, normal, _⟩ := exists_isNormal positive bounded.le
  have limit : exactBound = 2 ^ 53 := rfl
  have whole : number.toUInt64.toNat = number := by
    rw [Nat.toUInt64, UInt64.toNat_ofNat']
    omega
  have same : number.toUInt64.toFloat = .ofModel (.ofNat number.toUInt64.toNat) := rfl
  rw [same, whole]
  exact holds_ofNat positive normal

/-- Powers of ten are doubles as long as the powers of five are. -/
theorem exists_isNormal_pow_ten {places : Nat} (bounded : places ≤ 22) :
    ∃ mantissa exponent, IsNormal (10 ^ places : Nat) mantissa exponent := by
  have fives : 5 ^ places ≤ exactBound := by
    calc 5 ^ places ≤ 5 ^ 22 := Nat.pow_le_pow_right (by decide) bounded
      _ ≤ exactBound := by decide
  obtain ⟨mantissa, exponent, normal, most⟩ := exists_isNormal (by positivity) fives
  have low := normal.low
  refine ⟨mantissa, exponent + places, ?_, normal.full, normal.small, by omega, by omega⟩
  have value := normal.value_eq
  push_cast at value ⊢
  rw [zpow_add₀ two_ne_zero, ← mul_assoc, ← value, zpow_natCast, ← mul_pow]
  norm_num

theorem powersOfTen_eq : ∀ places : Fin 23,
    Float.exactlyRepresentablePowersOfTen[places.val]? =
      some (.ofModel (.ofNat (10 ^ places.val))) := by
  decide +kernel

theorem holds_powersOfTen {places : Nat}
    (inside : places < Float.exactlyRepresentablePowersOfTen.size) :
    Holds Float.exactlyRepresentablePowersOfTen[places] (10 ^ places : Nat) := by
  have size : Float.exactlyRepresentablePowersOfTen.size = 23 := rfl
  obtain ⟨mantissa, exponent, normal⟩ := exists_isNormal_pow_ten (by omega : places ≤ 22)
  have listed := powersOfTen_eq ⟨places, size ▸ inside⟩
  rw [Array.getElem?_eq_getElem inside, Option.some.injEq] at listed
  rw [listed]
  exact holds_ofNat (by positivity) normal

/-- Whole numbers that are not in the table are computed as products with one. -/
theorem ofScientific_zero_eq_nearest {coefficient : Nat} (positive : 0 < coefficient) :
    UnpackedFloat.ofScientific .binary64 coefficient 0 = nearest coefficient := by
  have isSome : ¬coefficient = 0 := positive.ne'
  have near : ¬(0 : Int) < -((2 ^ 11 : Int) + coefficient.log2) := by omega
  have digits : 52 ≤ (coefficient <<< 53 * 1).log2 := by
    rw [mul_one, Nat.shiftLeft_eq, log2_mul_two_pow positive]
    omega
  have product := @mul_eq_nearest (coefficient <<< 53) 1 (-53) 0
    (by rw [Nat.shiftLeft_eq]; positivity) Nat.one_pos digits
  have value : ((coefficient <<< 53 : Nat) * 2 ^ (-53 : Int) * ((1 : Nat) * 2 ^ (0 : Int)) : ℚ) =
      coefficient := by
    rw [Nat.shiftLeft_eq]
    push_cast
    norm_num
    field_simp
  rw [value] at product
  have small : ¬(0 : Int) > 2 ^ 11 := by decide
  have bits : Format.binary64.mantissaBits = 53 := rfl
  simp only [UnpackedFloat.ofScientific, isSome, small, near, bits, le_refl, dif_neg, if_false,
    if_true, not_false_eq_true, Int.toNat_zero, pow_zero]
  exact product

/-- Decimals that are not in the table are computed as quotients. -/
theorem ofScientific_neg_eq_nearest {coefficient places : Nat} (positive : 0 < coefficient)
    (isFraction : 0 < places) (near : places ≤ 2 ^ 11 + coefficient.log2) :
    UnpackedFloat.ofScientific .binary64 coefficient (-places) =
      nearest (coefficient / (10 ^ places : Nat)) := by
  have isSome : ¬coefficient = 0 := positive.ne'
  have small : ¬(-places : Int) > 2 ^ 11 := by omega
  have near' : ¬(-places : Int) < -((2 ^ 11 : Int) + coefficient.log2) := by omega
  have negative : ¬0 ≤ (-places : Int) := by omega
  have quotient := @div_eq_nearest coefficient (10 ^ places) 0 0 positive (by positivity)
  simp only [zpow_zero, mul_one] at quotient
  simp only [UnpackedFloat.ofScientific, isSome, small, near', negative, dif_neg, if_false,
    not_false_eq_true, neg_neg, Int.toNat_natCast]
  exact quotient

/-- A whole number is read as the double nearest to it. -/
theorem ofScientific_whole {coefficient : Nat} (positive : 0 < coefficient) :
    Float.ofScientific coefficient false 0 = rounded coefficient := by
  unfold Float.ofScientific
  split
  · rename_i short
    have product := (holds_toUInt64_toFloat positive short.1).mul
      (@holds_powersOfTen 0 (by decide))
    simpa using product
  · exact congrArg (fun unpacked => Float.ofModel (.pack unpacked))
      (ofScientific_zero_eq_nearest positive)

/-- A decimal is read as the double nearest to it. -/
theorem ofScientific_fraction {coefficient places : Nat} (positive : 0 < coefficient)
    (isFraction : 0 < places) (near : places ≤ 2 ^ 11 + coefficient.log2) :
    Float.ofScientific coefficient true places =
      rounded (coefficient / (10 ^ places : Nat)) := by
  unfold Float.ofScientific
  split
  · rename_i short
    exact (holds_toUInt64_toFloat positive short.1).div (holds_powersOfTen _)
  · rw [if_pos rfl, Int.negOfNat_eq]
    exact congrArg (fun unpacked => Float.ofModel (.pack unpacked))
      (ofScientific_neg_eq_nearest positive isFraction near)

end Within

/-! ## Decimals beyond range -/

section Beyond

variable {coefficient : Nat}

theorem lt_pow_length_toDigits (coefficient : Nat) :
    coefficient < 10 ^ (Nat.toDigits 10 coefficient).length :=
  (Nat.length_toDigits_le_iff (by decide) Nat.length_toDigits_pos).mp le_rfl

theorem pow_length_toDigits_le (positive : 0 < coefficient) :
    10 ^ ((Nat.toDigits 10 coefficient).length - 1) ≤ coefficient := by
  rcases Nat.eq_zero_or_pos ((Nat.toDigits 10 coefficient).length - 1) with isOne | isMore
  · rw [isOne]
    exact positive
  · by_contra less
    have fewer := (Nat.length_toDigits_le_iff (by decide) isMore).mpr (Nat.not_le.mp less)
    omega

theorem length_toDigits_le_log2 (coefficient : Nat) :
    (Nat.toDigits 10 coefficient).length ≤ coefficient.log2 + 1 := by
  rw [Nat.length_toDigits_le_iff (by decide) (Nat.succ_pos _)]
  exact Nat.lt_log2_self.trans_le (Nat.pow_le_pow_left (by decide) _)

theorem two_pow_le_ten_pow {bits digits : Nat} (enough : bits ≤ 3 * digits) :
    2 ^ bits ≤ 10 ^ digits := by
  calc 2 ^ bits ≤ 2 ^ (3 * digits) := Nat.pow_le_pow_right (by decide) enough
    _ = 8 ^ digits := pow_mul 2 3 digits
    _ ≤ 10 ^ digits := Nat.pow_le_pow_left (by decide) digits

theorem large_of_digits (positive : 0 < coefficient) {places : Nat}
    (far : places + 1000 < (Nat.toDigits 10 coefficient).length) :
    2 ^ 1024 ≤ (coefficient / (10 ^ places : Nat) : ℚ) := by
  rw [le_div_iff₀ (by positivity)]
  have product : 2 ^ 1024 * 10 ^ places ≤ coefficient :=
    calc 2 ^ 1024 * 10 ^ places ≤ 10 ^ 1000 * 10 ^ places :=
          Nat.mul_le_mul_right _ (two_pow_le_ten_pow (by decide))
      _ = 10 ^ (1000 + places) := (pow_add 10 1000 places).symm
      _ ≤ 10 ^ ((Nat.toDigits 10 coefficient).length - 1) :=
          Nat.pow_le_pow_right (by decide) (by omega)
      _ ≤ coefficient := pow_length_toDigits_le positive
  exact_mod_cast product

theorem small_of_digits {places : Nat}
    (far : (Nat.toDigits 10 coefficient).length + 1000 < places) :
    (coefficient / (10 ^ places : Nat) : ℚ) < 2 ^ (-1075 : Int) := by
  rw [zpow_neg, div_lt_iff₀ (by positivity), inv_mul_eq_div, lt_div_iff₀ (by positivity)]
  have product : coefficient * 2 ^ 1075 < 10 ^ places :=
    calc coefficient * 2 ^ 1075
        < 10 ^ (Nat.toDigits 10 coefficient).length * 2 ^ 1075 :=
          Nat.mul_lt_mul_of_pos_right (lt_pow_length_toDigits coefficient) (by positivity)
      _ ≤ 10 ^ (Nat.toDigits 10 coefficient).length * 10 ^ 1001 :=
          Nat.mul_le_mul_left _ (two_pow_le_ten_pow (by decide))
      _ = 10 ^ ((Nat.toDigits 10 coefficient).length + 1001) := (pow_add 10 _ 1001).symm
      _ ≤ 10 ^ places := Nat.pow_le_pow_right (by decide) (by omega)
  exact_mod_cast product

theorem rounded_of_large {value : ℚ} (large : 2 ^ 1024 ≤ value) : rounded value = 1.0 / 0.0 := by
  rw [rounded, pack_nearest_of_large large]
  decide +kernel

theorem rounded_of_small {value : ℚ} (positive : 0 < value) (small : value < 2 ^ (-1075 : Int)) :
    rounded value = 0.0 := by
  rw [rounded, nearest_of_small positive small]
  decide +kernel

end Beyond

/-! ## Reading decimals -/

section Reading

/-- The magnitude of a decimal, whether it is computed or out of range. -/
theorem magnitude_eq_rounded {coefficient : Nat} (positive : 0 < coefficient) (places : Nat) :
    (if -(places : Int) + (Nat.toDigits 10 coefficient).length > 1000 then 1.0 / 0.0
      else if -(places : Int) + (Nat.toDigits 10 coefficient).length < -1000 then 0.0
      else if -(places : Int) < 0 then Float.ofScientific coefficient true places
      else Float.ofScientific coefficient false places) =
      rounded (coefficient / (10 ^ places : Nat)) := by
  have length := length_toDigits_le_log2 coefficient
  split_ifs with large small isFraction
  · exact (rounded_of_large (large_of_digits positive (by omega))).symm
  · exact (rounded_of_small (by positivity) (small_of_digits (by omega))).symm
  · exact ofScientific_fraction positive (by omega) (by omega)
  · obtain rfl : places = 0 := by omega
    simpa using ofScientific_whole positive

/-- A decimal is read as the double nearest to it. -/
theorem ofDecimal_eq_rounded (negative : Bool) {coefficient : Nat} (positive : 0 < coefficient)
    (places : Nat) :
    ofDecimal negative coefficient places =
      if negative then -rounded (coefficient / (10 ^ places : Nat))
      else rounded (coefficient / (10 ^ places : Nat)) := by
  have isSome : ¬coefficient = 0 := positive.ne'
  have bound : Decimal.Scientific.exponentBound = 1000 := rfl
  simp only [ofDecimal, Decimal.Scientific.toFloat, isSome, if_false, bound, Int.natAbs_neg,
    Int.natAbs_natCast, magnitude_eq_rounded positive]

theorem ofInt_eq_rounded {number : Nat} (positive : 0 < number) :
    (Scalar.ofInt number : Float) = rounded number :=
  ofScientific_whole positive

/-- Whole numbers of moderate size are held exactly. -/
theorem holds_ofInt {number : Nat} (positive : 0 < number) (bounded : number ≤ exactBound) :
    Holds (Scalar.ofInt number) number := by
  obtain ⟨mantissa, exponent, normal, _⟩ := exists_isNormal positive bounded
  rw [ofInt_eq_rounded positive]
  exact normal.holds

end Reading

end Double

instance : DecimalScalar Float where
  ofDecimal_mul_pow negative coefficient zeros places := by
    change Double.ofDecimal _ _ _ = Double.ofDecimal _ _ _
    rcases coefficient.eq_zero_or_pos with isZero | positive
    · rw [isZero, zero_mul]
      rfl
    · have value : ((coefficient * 10 ^ zeros : Nat) : ℚ) / (10 ^ (places + zeros) : Nat) =
          coefficient / (10 ^ places : Nat) := by
        rw [Nat.pow_add, Nat.cast_mul, Nat.cast_mul]
        exact mul_div_mul_right _ _ (by positivity)
      rw [Double.ofDecimal_eq_rounded negative (by positivity),
        Double.ofDecimal_eq_rounded negative positive, value]
  ofDecimal_whole number := by
    rcases number.eq_zero_or_pos with isZero | positive
    · rw [isZero]
      exact OrderScalar.ofDecimal_zero 0
    · change Double.ofDecimal _ _ _ = _
      rw [Double.ofDecimal_eq_rounded false positive, Double.ofInt_eq_rounded positive]
      simp
  isFinite_ofInt number bounded := by
    rcases number.eq_zero_or_pos with isZero | positive
    · rw [isZero]
      exact TextScalar.isFinite_zero
    · exact (Double.holds_ofInt positive bounded).isFinite
  floor_ofInt number bounded := by
    rcases number.eq_zero_or_pos with isZero | positive
    · rw [isZero]
      decide +kernel
    · exact (Double.holds_ofInt positive bounded).floor
  ofInt_le_ofInt first second ordered bounded := by
    rcases first.eq_zero_or_pos with isZero | positive
    · rw [isZero]
      rcases second.eq_zero_or_pos with isZero' | positive'
      · rw [isZero']
        exact ComparableScalar.le_refl TextScalar.isFinite_zero
      · exact (Double.holds_ofInt positive' bounded).zero_le
    · have positive' : 0 < second := positive.trans_le ordered
      exact (Double.holds_ofInt positive (ordered.trans bounded)).le
        (Double.holds_ofInt positive' bounded) (by exact_mod_cast ordered)
  beq_self value finite := by
    rw [ComparableScalar.beq_iff]
    exact ⟨ComparableScalar.le_refl finite, ComparableScalar.le_refl finite⟩
  scaled_congr := RoundingScalar.scaled_congr
  newline_notMem_toText := TextScalar.toText_oneLine

end Milling

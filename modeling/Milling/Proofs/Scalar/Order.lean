import Mathlib
import Milling.Proofs.Scalar.Real
import Milling.Proofs.Scalar.Rounding

/-!
# The order of numbers

What checks against limits rely on: an order does not hold both ways, zero has
no digits, and half of what is not negative is not negative.  Doubles keep this,
and so do exact numbers.
-/

namespace Milling

/-- Number types whose numbers can be checked against limits. -/
class OrderScalar (α : Type) [Scalar α] : Prop where
  not_lt_of_le (first second : α) (ordered : first ≤ second) : ¬second < first
  scaled_zero (places : Nat) : Scalar.scaled places (0 : α) = 0
  ofDecimal_zero (places : Nat) : (Scalar.ofDecimal false 0 places : α) = 0
  half_not_lt_zero (value : α) (nonnegative : 0 ≤ value) : ¬value / 2 < Scalar.magnitude 0

instance : OrderScalar ℝ where
  not_lt_of_le first second ordered := not_lt_of_ge ordered
  scaled_zero places := by
    have nearest : nearestEven 0 = 0 := by simp [nearestEven]
    change nearestEven (@OfNat.ofNat ℝ 0 (Scalar.instOfNat 0) * (10 ^ places : Nat)) = 0
    rw [ExactScalar.literal_zero, zero_mul, nearest]
  ofDecimal_zero places := by
    rw [ExactScalar.ofDecimal_cast, ExactScalar.literal_zero]
    simp
  half_not_lt_zero value nonnegative := by
    have two : @OfNat.ofNat ℝ 2 (Scalar.instOfNat 2) = 2 := ExactScalar.literal 2
    rw [ExactScalar.literal_zero] at nonnegative ⊢
    rw [two, magnitude_eq_abs, abs_zero, not_lt]
    exact div_nonneg nonnegative (by norm_num)

namespace Double

open Float.Model (Format UnpackedFloat)
open Float.Model.UnpackedFloat (Sign packComponents)

theorem le_iff (first second : Float) :
    first ≤ second ↔
      (first.toModel.unpack.compare second.toModel.unpack).any (·.isLE) = true := by
  change decide (first.toModel ≤ second.toModel) = true ↔ _
  rw [decide_eq_true_iff]
  rfl

theorem lt_iff (first second : Float) :
    first < second ↔ first.toModel.unpack.compare second.toModel.unpack = some .lt := by
  change decide (first.toModel < second.toModel) = true ↔ _
  rw [decide_eq_true_iff]
  exact beq_iff_eq

theorem swap_then_compare (exponent other : Int) (mantissa fraction : Nat) :
    ((compare exponent other).then (compare mantissa fraction)).swap =
      (compare other exponent).then (compare fraction mantissa) := by
  have exponents : compare other exponent = (compare exponent other).swap :=
    Std.OrientedCmp.eq_swap
  have mantissas : compare fraction mantissa = (compare mantissa fraction).swap :=
    Std.OrientedCmp.eq_swap
  rw [Ordering.swap_then, exponents, mantissas]

/-- Positive doubles compare by their exponents first. -/
theorem isLE_then_compare (exponent other : Int) (mantissa fraction : Nat) :
    ((compare exponent other).then (compare mantissa fraction)).isLE = true ↔
      exponent < other ∨ (exponent = other ∧ mantissa ≤ fraction) := by
  rcases lt_trichotomy exponent other with below | same | above
  · simp [compare_lt_iff_lt.mpr below, below]
  · simp [same, Nat.isLE_compare]
  · simp [compare_gt_iff_gt.mpr above]
    omega

/-- Doubles compare the other way around when they change places. -/
theorem compare_swap (first second : UnpackedFloat) :
    second.compare first = (first.compare second).map Ordering.swap := by
  cases first with
  | notANumber => cases second <;> rfl
  | infinity sign =>
      cases second with
      | infinity other => cases sign <;> cases other <;> rfl
      | finite other => cases sign <;> cases other <;> rfl
      | _ => cases sign <;> rfl
  | zero sign =>
      cases second with
      | infinity other => cases other <;> rfl
      | finite other => cases other <;> rfl
      | _ => rfl
  | finite sign mantissa exponent positive =>
      cases second with
      | infinity other => cases sign <;> cases other <;> rfl
      | notANumber => cases sign <;> rfl
      | zero other => cases sign <;> rfl
      | finite other fraction power positive' =>
          cases sign <;> cases other <;> first | rfl | skip
          · exact congrArg some (congrArg Ordering.swap (swap_then_compare _ _ _ _).symm)
          · exact congrArg some (swap_then_compare _ _ _ _).symm

/-- Less than zero, as a double is compared. -/
def isBelowZero : UnpackedFloat → Bool
  | .infinity .negative => true
  | .finite .negative .. => true
  | _ => false

theorem compare_zero_eq_lt_iff {value : UnpackedFloat} {sign : Sign} :
    value.compare (.zero sign) = some .lt ↔ isBelowZero value = true := by
  cases value with
  | infinity own => cases own <;> cases sign <;> simp [UnpackedFloat.compare, isBelowZero]
  | notANumber => simp [UnpackedFloat.compare, isBelowZero]
  | zero own => simp [UnpackedFloat.compare, isBelowZero]
  | finite own => cases own <;> simp [UnpackedFloat.compare, isBelowZero]

theorem isBelowZero_of_zero_le {value : UnpackedFloat} {sign : Sign}
    (above : (UnpackedFloat.compare (.zero sign) value).any (·.isLE) = true) :
    isBelowZero value = false := by
  cases value with
  | infinity own => cases own <;> first | rfl | cases above
  | finite own => cases own <;> first | rfl | cases above
  | _ => rfl

theorem unpackSign_packComponents {format : Format} (sign : Sign)
    (exponent : BitVec format.exponentBits)
    (mantissa : BitVec format.mantissaBitsWithoutImplicit) :
    UnpackedFloat.unpackSign (packComponents format sign exponent mantissa) = sign.toBitVec := by
  apply BitVec.eq_of_getLsbD_eq
  intro index inside
  obtain rfl : index = 0 := by omega
  simp [UnpackedFloat.unpackSign, packComponents, BitVec.getLsbD_append, BitVec.getElem_append]

theorem isBelowZero_packComponents (exponent : BitVec Format.binary64.exponentBits)
    (mantissa : BitVec Format.binary64.mantissaBitsWithoutImplicit) :
    isBelowZero (UnpackedFloat.unpack .binary64
      (packComponents .binary64 .positive exponent mantissa)) = false := by
  have sign : Sign.ofBitVec (UnpackedFloat.unpackSign
      (packComponents .binary64 .positive exponent mantissa)) = .positive := by
    rw [unpackSign_packComponents]
    rfl
  unfold UnpackedFloat.unpack
  simp only [sign]
  split
  · split <;> rfl
  · split
    · split <;> rfl
    · rfl

theorem isBelowZero_pack {value : UnpackedFloat} (above : isBelowZero value = false) :
    isBelowZero (Float.Model.pack value).unpack = false := by
  change isBelowZero (UnpackedFloat.unpack .binary64 (UnpackedFloat.pack .binary64 value)) = false
  cases value with
  | infinity sign =>
      cases sign with
      | negative => cases above
      | positive => exact isBelowZero_packComponents _ _
  | notANumber => exact isBelowZero_packComponents _ _
  | zero sign => cases sign <;> rfl
  | finite sign mantissa exponent positive =>
      cases sign with
      | negative => cases above
      | positive =>
          simp only [UnpackedFloat.pack]
          split
          · exact isBelowZero_packComponents _ _
          · split <;> exact isBelowZero_packComponents _ _

theorem isBelowZero_div {value : UnpackedFloat} (above : isBelowZero value = false)
    {mantissa : Nat} {exponent : Int} (positive : 0 < mantissa) :
    isBelowZero (UnpackedFloat.div .binary64 value
      (.finite .positive mantissa exponent positive)) = false := by
  cases value with
  | infinity sign =>
      cases sign with
      | negative => cases above
      | positive => rfl
  | notANumber => rfl
  | zero sign => cases sign <;> rfl
  | finite sign =>
      cases sign with
      | negative => cases above
      | positive =>
          simp only [UnpackedFloat.div, UnpackedFloat.roundWithAccuracy]
          split <;> rfl

end Double

instance : OrderScalar Float where
  not_lt_of_le first second ordered := by
    rw [Double.le_iff, Double.compare_swap] at ordered
    intro reversed
    rw [(Double.lt_iff second first).mp reversed] at ordered
    cases ordered
  scaled_zero places := by
    have zero : (@OfNat.ofNat Float 0 (Scalar.instOfNat 0)).toModel.unpack = .zero .positive := rfl
    rw [Double.scaled_eq_scaledParts, zero]
    exact Double.scaledParts_zero places false
  ofDecimal_zero places := by
    simp [Scalar.ofDecimal, Double.ofDecimal, Decimal.Scientific.toFloat]
    rfl
  half_not_lt_zero value nonnegative := by
    have two : ∃ mantissa exponent positive,
        (@OfNat.ofNat Float 2 (Scalar.instOfNat 2)).toModel.unpack =
          .finite .positive mantissa exponent positive := ⟨_, _, _, rfl⟩
    have zero : (Scalar.magnitude (@OfNat.ofNat Float 0 (Scalar.instOfNat 0))).toModel.unpack =
        .zero .positive := rfl
    obtain ⟨mantissa, exponent, positive, two⟩ := two
    -- Rounding a quotient may make it zero or infinite, but keeps it out of the negative.
    have above : Double.isBelowZero value.toModel.unpack = false :=
      Double.isBelowZero_of_zero_le ((Double.le_iff _ _).mp nonnegative)
    have half := Double.isBelowZero_pack
      (@Double.isBelowZero_div _ above mantissa exponent positive)
    rw [← two] at half
    intro below
    have compared := (Double.lt_iff _ _).mp below
    rw [zero, Double.compare_zero_eq_lt_iff] at compared
    exact absurd (half.symm.trans compared) Bool.false_ne_true

/-!
## Rounding down to tool numbers

Tool numbers end at a whole number that doubles hold exactly, so rounding down
does not lead across it.
-/

open Program.ToolChange (greatestTool)

/-- Number types whose numbers are on the same side of the greatest tool number
before and after they are rounded down. -/
class ToolScalar (α : Type) [Scalar α] : Prop where
  floor_le (value : α) (finite : Scalar.isFinite value = true)
    (bounded : value ≤ Scalar.ofInt greatestTool) : Scalar.floor value ≤ greatestTool
  le_floor (value : α) (finite : Scalar.isFinite value = true)
    (beyond : ¬value ≤ Scalar.ofInt greatestTool) : greatestTool ≤ Scalar.floor value

instance ExactScalar.instToolScalar {α : Type} [ExactScalar α] : ToolScalar α where
  floor_le value _ bounded := by
    rw [ofInt_cast] at bounded
    exact_mod_cast (floor_le value).trans bounded
  le_floor value _ beyond := by
    rw [ofInt_cast, not_le] at beyond
    have above := beyond.trans (lt_floor_add_one value)
    have next : (greatestTool : Int) < Scalar.floor value + 1 := by exact_mod_cast above
    omega

namespace Double

open Float.Model (UnpackedFloat)

/-- A double that is not below `2 ^ -1022` has all the bits of its significand. -/
theorem significand_bounds {value : Float} {binary : Decimal.Binary}
    (given : Decimal.Binary.ofFloat? value = some binary) :
    binary.significand < 2 ^ 53 ∧ (-1074 < binary.exponent → 2 ^ 52 ≤ binary.significand) := by
  unfold Decimal.Binary.ofFloat? at given
  have unit : Nat.pow 2 52 = 2 ^ 52 := rfl
  have small : value.toBits.toNat % Nat.pow 2 52 < 2 ^ 52 := Nat.mod_lt _ (by decide)
  dsimp only at given
  split at given
  · cases given
  · split at given <;>
    · obtain rfl := Option.some.inj given
      dsimp only
      omega

/-- The whole part of a double that is not negative. -/
theorem floor_of_positive {binary : Decimal.Binary} (positive : binary.negative = false) :
    binary.floor =
      (binary.significand * 2 ^ binary.exponent.toNat / 2 ^ (-binary.exponent).toNat : Nat) := by
  simp [Decimal.Binary.floor, Decimal.Binary.fraction, positive]

theorem floor_of_negative {binary : Decimal.Binary} (negative : binary.negative = true) :
    binary.floor ≤ 0 := by
  simp only [Decimal.Binary.floor, negative, if_true]
  exact Int.neg_nonpos_of_nonneg (Int.natCast_nonneg _)

theorem unpack_greatestTool : ∃ positive,
    (Scalar.ofInt greatestTool : Float).toModel.unpack =
      .finite .positive (greatestTool * 2 ^ 21) (-21) positive := ⟨_, rfl⟩

theorem le_greatestTool_iff {value : Float} {mantissa : Nat} {exponent : Int}
    {positive : 0 < mantissa}
    (unpacked : value.toModel.unpack = .finite .positive mantissa exponent positive) :
    value ≤ Scalar.ofInt greatestTool ↔
      exponent < -21 ∨ (exponent = -21 ∧ mantissa ≤ greatestTool * 2 ^ 21) := by
  obtain ⟨_, greatest⟩ := unpack_greatestTool
  rw [le_iff, unpacked, greatest]
  exact isLE_then_compare exponent (-21) mantissa (greatestTool * 2 ^ 21)

section Sides

variable {significand : Nat} {exponent : Int}

theorem floor_le_of_low (small : significand < 2 ^ 53)
    (low : exponent < -21 ∨ (exponent = -21 ∧ significand ≤ greatestTool * 2 ^ 21)) :
    significand * 2 ^ exponent.toNat / 2 ^ (-exponent).toNat ≤ greatestTool := by
  have whole : exponent.toNat = 0 := by omega
  rw [whole, pow_zero, mul_one]
  rcases low with below | ⟨same, bounded⟩
  · have shift : 2 ^ 22 ≤ 2 ^ (-exponent).toNat := Nat.pow_le_pow_right (by decide) (by omega)
    have greatest : greatestTool = 2 ^ 32 - 1 := rfl
    have less := Nat.div_le_div_left shift (by decide) (a := significand)
    omega
  · rw [same]
    exact Nat.div_le_of_le_mul (by rw [Nat.mul_comm]; exact bounded)

theorem le_floor_of_high (full : -1074 < exponent → 2 ^ 52 ≤ significand)
    (high : ¬(exponent < -21 ∨ (exponent = -21 ∧ significand ≤ greatestTool * 2 ^ 21))) :
    greatestTool ≤ significand * 2 ^ exponent.toNat / 2 ^ (-exponent).toNat := by
  rw [Nat.le_div_iff_mul_le (by positivity)]
  by_cases same : exponent = -21
  · subst same
    have more : greatestTool * 2 ^ 21 < significand := by omega
    simpa using more.le
  · have shift : 2 ^ (-exponent).toNat ≤ 2 ^ 20 := Nat.pow_le_pow_right (by decide) (by omega)
    have grown : significand * 1 ≤ significand * 2 ^ exponent.toNat :=
      Nat.mul_le_mul_left significand Nat.one_le_two_pow
    calc greatestTool * 2 ^ (-exponent).toNat
        ≤ greatestTool * 2 ^ 20 := Nat.mul_le_mul_left _ shift
      _ ≤ 2 ^ 52 := by decide
      _ ≤ significand * 2 ^ exponent.toNat := by
          have wide := full (by omega)
          omega

end Sides

/-- A finite double by its parts: not above zero, or positive with the parts that
it is unpacked to. -/
theorem floor_cases {value : Float} (finite : Scalar.isFinite value = true) :
    (Scalar.floor value ≤ 0 ∧ value ≤ Scalar.ofInt greatestTool) ∨
      ∃ significand exponent positive,
        value.toModel.unpack = .finite .positive significand exponent positive ∧
        significand < 2 ^ 53 ∧ (-1074 < exponent → 2 ^ 52 ≤ significand) ∧
        Scalar.floor value =
          (significand * 2 ^ exponent.toNat / 2 ^ (-exponent).toNat : Nat) := by
  obtain ⟨binary, given⟩ := Option.isSome_iff_exists.mp finite
  have floor : Scalar.floor value = binary.floor := by simp [Scalar.floor, given]
  have parts := ofFloat?_parts value
  rw [given, Option.map_some] at parts
  obtain ⟨_, greatest⟩ := unpack_greatestTool
  have bounds := significand_bounds given
  rw [floor, le_iff, greatest]
  cases unpacked : value.toModel.unpack with
  | infinity sign =>
      rw [unpacked] at parts
      cases parts
  | notANumber =>
      rw [unpacked] at parts
      cases parts
  | zero sign =>
      rw [unpacked, parts?, Option.some.injEq, Prod.mk.injEq, Prod.mk.injEq] at parts
      obtain ⟨_, isZero, _⟩ := parts
      refine .inl ⟨?_, rfl⟩
      cases negative : binary.negative with
      | true => exact floor_of_negative negative
      | false => simp [floor_of_positive negative, isZero]
  | finite sign mantissa exponent positive =>
      rw [unpacked, parts?, Option.some.injEq, Prod.mk.injEq, Prod.mk.injEq] at parts
      obtain ⟨isSign, isMantissa, isExponent⟩ := parts
      cases sign with
      | negative => exact .inl ⟨floor_of_negative isSign, rfl⟩
      | positive =>
          subst isMantissa isExponent
          exact .inr ⟨_, _, positive, rfl, bounds.1, bounds.2, floor_of_positive isSign⟩

end Double

instance : ToolScalar Float where
  floor_le value finite bounded := by
    rcases Double.floor_cases finite with
      ⟨below, _⟩ | ⟨significand, exponent, positive, unpacked, small, _, floor⟩
    · exact below.trans (Int.natCast_nonneg _)
    · rw [floor]
      exact_mod_cast Double.floor_le_of_low small ((Double.le_greatestTool_iff unpacked).mp bounded)
  le_floor value finite beyond := by
    rcases Double.floor_cases finite with
      ⟨_, bounded⟩ | ⟨significand, exponent, positive, unpacked, _, full, floor⟩
    · exact absurd bounded beyond
    · rw [Double.le_greatestTool_iff unpacked] at beyond
      rw [floor]
      exact_mod_cast Double.le_floor_of_high full beyond

end Milling

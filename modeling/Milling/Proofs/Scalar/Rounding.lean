import Mathlib
import Milling.Proofs.Scalar.Exact
import Milling.Scalar.Double

/-!
# Equal numbers round alike

Numbers that compare as equal have the same digits.  For doubles this is so
although zero has two signs: the rounded zero has none.
-/

namespace Milling

/-- Number types whose equal numbers round alike. -/
class RoundingScalar (α : Type) [Scalar α] : Prop where
  beq_symm (first second : α) (equal : (first == second) = true) : (second == first) = true
  isFinite_congr (first second : α) (equal : (first == second) = true) :
    Scalar.isFinite first = Scalar.isFinite second
  scaled_congr (first second : α) (equal : (first == second) = true) (places : Nat) :
    Scalar.scaled places first = Scalar.scaled places second

instance ExactScalar.instRoundingScalar {α : Type} [ExactScalar α] : RoundingScalar α where
  beq_symm first second equal := by
    rw [(ExactScalar.beq_iff first second).mp equal]
    exact (ExactScalar.beq_iff second second).mpr rfl
  isFinite_congr first second _ := by
    rw [ExactScalar.finite first, ExactScalar.finite second]
  scaled_congr := DecimalScalar.scaled_congr

namespace Double

open Float.Model (UnpackedFloat)

theorem toNat_one_append (fraction : BitVec 52) :
    (1#1 ++ fraction).toNat = 2 ^ 52 + fraction.toNat := by
  rw [BitVec.toNat_append]
  exact (Nat.shiftLeft_add_eq_or_of_lt fraction.isLt 1).symm

section Bits

/-! The fields of a double's bits, as numbers. -/

variable (bits : UInt64)

theorem toNat_unpackExponent :
    (@UnpackedFloat.unpackExponent .binary64 bits.toBitVec).toNat =
      bits.toNat / Nat.pow 2 52 % Nat.pow 2 11 := by
  simp [UnpackedFloat.unpackExponent, BitVec.extractLsb, Nat.shiftRight_eq_div_pow]

theorem toNat_unpackMantissa :
    (@UnpackedFloat.unpackMantissa .binary64 bits.toBitVec).toNat =
      bits.toNat % Nat.pow 2 52 := by
  simp [UnpackedFloat.unpackMantissa, BitVec.extractLsb]

theorem toNat_significand :
    (1#1 ++ @UnpackedFloat.unpackMantissa .binary64 bits.toBitVec).toNat =
      Nat.pow 2 52 + bits.toNat % Nat.pow 2 52 := by
  rw [toNat_one_append, toNat_unpackMantissa]
  rfl

def isNegative : UnpackedFloat.Sign → Bool
  | .negative => true
  | .positive => false

theorem isNegative_unpackSign :
    isNegative (.ofBitVec (@UnpackedFloat.unpackSign .binary64 bits.toBitVec)) =
      decide (Nat.pow 2 63 ≤ bits.toNat) := by
  have small : bits.toNat < 2 ^ 64 := bits.toNat_lt
  have sign : (@UnpackedFloat.unpackSign .binary64 bits.toBitVec).toNat =
      bits.toNat / Nat.pow 2 63 % 2 := by
    simp [UnpackedFloat.unpackSign, BitVec.extractLsb, Nat.shiftRight_eq_div_pow]
  have positive : @UnpackedFloat.unpackSign .binary64 bits.toBitVec = 0#1 ↔
      bits.toNat / Nat.pow 2 63 % 2 = 0 := by
    rw [← sign, BitVec.toNat_eq]
    rfl
  unfold UnpackedFloat.Sign.ofBitVec
  split
  · rename_i isPositive
    have low := positive.mp isPositive
    simp only [isNegative, Nat.pow_eq] at low ⊢
    rw [eq_comm, decide_eq_false_iff_not]
    omega
  · rename_i isPositive
    have low := positive.not.mp isPositive
    simp only [isNegative, Nat.pow_eq] at low ⊢
    rw [eq_comm, decide_eq_true_eq]
    omega

end Bits

/-- Sign, significand and exponent of a finite double. -/
def parts? : UnpackedFloat → Option (Bool × Nat × Int)
  | .infinity _ => none
  | .notANumber => none
  | .zero sign => some (isNegative sign, 0, -1074)
  | .finite sign mantissa exponent _ => some (isNegative sign, mantissa, exponent)

theorem ofFloat?_parts (value : Float) :
    (Decimal.Binary.ofFloat? value).map
        (fun binary => (binary.negative, binary.significand, binary.exponent)) =
      parts? value.toModel.unpack := by
  unfold Decimal.Binary.ofFloat? Float.Model.unpack Float.toBits
  generalize value.toModel.toBits = bits
  have exponent := toNat_unpackExponent bits
  have mantissa := toNat_unpackMantissa bits
  have significand := toNat_significand bits
  have isNegative := isNegative_unpackSign bits
  have isAll : @UnpackedFloat.unpackExponent .binary64 bits.toBitVec = -1#11 ↔
      bits.toNat / Nat.pow 2 52 % Nat.pow 2 11 = 2047 := by
    rw [← exponent, BitVec.toNat_eq]
    rfl
  have isNone : @UnpackedFloat.unpackExponent .binary64 bits.toBitVec = 0#11 ↔
      bits.toNat / Nat.pow 2 52 % Nat.pow 2 11 = 0 := by
    rw [← exponent, BitVec.toNat_eq]
    rfl
  have isZero : @UnpackedFloat.unpackMantissa .binary64 bits.toBitVec = 0#52 ↔
      bits.toNat % Nat.pow 2 52 = 0 := by
    rw [← mantissa, BitVec.toNat_eq]
    rfl
  have bias : (Float.Model.Format.binary64.exponentBias : Int) = 1023 := by decide
  simp only [UnpackedFloat.unpack, isAll, isNone, isZero]
  split
  · split <;> rfl
  · split
    · rename_i noExponent
      simp only [Nat.pow_eq] at noExponent
      split
      · rename_i noFraction
        simp [parts?, isNegative, noFraction]
      · simp only [Option.map_some, parts?, isNegative, mantissa, exponent]
        simp [noExponent, bias]
    · simp only [Option.map_some, parts?, isNegative, significand, exponent]
      simp [bias]

/-- A double of given parts, times `10 ^ places`, rounded. -/
def scaledParts (places : Nat) : Bool × Nat × Int → Int
  | (negative, significand, exponent) =>
      Decimal.Binary.scaled places { negative, significand, exponent, lowerGapHalved := false }

theorem scaled_eq_scaledParts (places : Nat) (value : Float) :
    Scalar.scaled places value =
      ((parts? value.toModel.unpack).map (scaledParts places)).getD 0 := by
  rw [← ofFloat?_parts, Option.map_map]
  rfl

theorem isFinite_eq_isSome (value : Float) :
    Scalar.isFinite value = (parts? value.toModel.unpack).isSome := by
  rw [← ofFloat?_parts, Option.isSome_map]
  rfl

theorem scaledParts_zero (places : Nat) (negative : Bool) :
    scaledParts places (negative, 0, -1074) = 0 := by
  have magnitude : Decimal.Binary.scaledMagnitude places
      { negative, significand := 0, exponent := -1074, lowerGapHalved := false } = 0 := by
    simp [Decimal.Binary.scaledMagnitude, Decimal.Binary.fraction, Decimal.roundHalfEven,
      -Nat.reducePow]
  simp [scaledParts, Decimal.Binary.scaled, magnitude]

theorem eq_of_compare_sign {first second : UnpackedFloat.Sign}
    (equal : compare first second = .eq) : first = second := by
  cases first <;> cases second <;> first | rfl | cases equal

theorem eq_of_compare {first second : UnpackedFloat} (equal : first.compare second = some .eq) :
    first = second ∨ ∃ sign other, first = .zero sign ∧ second = .zero other := by
  cases first with
  | notANumber => cases equal
  | infinity sign =>
      cases second with
      | infinity other =>
          rw [eq_of_compare_sign (Option.some.inj equal)]
          exact .inl rfl
      | notANumber => cases equal
      | zero other => cases sign <;> cases equal
      | finite other mantissa exponent positive => cases sign <;> cases equal
  | zero sign =>
      cases second with
      | infinity other => cases other <;> cases equal
      | notANumber => cases equal
      | zero other => exact .inr ⟨sign, other, rfl, rfl⟩
      | finite other mantissa exponent positive => cases other <;> cases equal
  | finite sign mantissa exponent positive =>
      cases second with
      | infinity other => cases sign <;> cases other <;> cases equal
      | notANumber => cases sign <;> cases equal
      | zero other => cases sign <;> cases equal
      | finite other mantissa' exponent' positive' =>
          have parts : sign = other ∧
              (compare exponent exponent').then (compare mantissa mantissa') = .eq := by
            cases sign <;> cases other <;>
              first
                | exact ⟨rfl, Ordering.swap_eq_eq.mp (Option.some.inj equal)⟩
                | exact ⟨rfl, Option.some.inj equal⟩
                | cases equal
          obtain ⟨rfl, numbers⟩ := parts
          obtain ⟨exponents, mantissas⟩ := Ordering.then_eq_eq.mp numbers
          obtain rfl := compare_eq_iff_eq.mp exponents
          obtain rfl := compare_eq_iff_eq.mp mantissas
          exact .inl rfl

end Double

instance : RoundingScalar Float where
  beq_symm first second equal := by
    have compared : first.toModel.unpack.compare second.toModel.unpack = some .eq :=
      eq_of_beq equal
    have swapped : second.toModel.unpack.compare first.toModel.unpack = some .eq := by
      obtain same | ⟨sign, other, isZero, isOther⟩ := Double.eq_of_compare compared
      · rwa [same] at compared ⊢
      · rw [isZero, isOther]
        rfl
    change (second.toModel.unpack.compare first.toModel.unpack == some .eq) = true
    rw [swapped]
    rfl
  isFinite_congr first second equal := by
    have compared : first.toModel.unpack.compare second.toModel.unpack = some .eq :=
      eq_of_beq equal
    rw [Double.isFinite_eq_isSome, Double.isFinite_eq_isSome]
    obtain same | ⟨sign, other, isZero, isOther⟩ := Double.eq_of_compare compared
    · rw [same]
    · rw [isZero, isOther]
      rfl
  scaled_congr first second equal places := by
    have compared : first.toModel.unpack.compare second.toModel.unpack = some .eq :=
      eq_of_beq equal
    rw [Double.scaled_eq_scaledParts, Double.scaled_eq_scaledParts]
    obtain same | ⟨sign, other, isZero, isOther⟩ := Double.eq_of_compare compared
    · rw [same]
    · rw [isZero, isOther]
      simp [Double.parts?, Double.scaledParts_zero]

end Milling

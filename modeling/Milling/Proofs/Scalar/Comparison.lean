import Mathlib
import Milling.Proofs.Scalar.Order

/-!
# The lesser and the greater number

What boxes rely on: the order is transitive, finite numbers can be compared, and equal
numbers are those that are ordered both ways.  Then the lesser of two finite numbers is
their greatest lower bound, and the greater one their least upper bound.
-/

namespace Milling

/-- Number types whose finite numbers can be put in order. -/
class ComparableScalar (α : Type) [Scalar α] : Prop where
  le_trans (first second third : α) (lower : first ≤ second) (upper : second ≤ third) :
    first ≤ third
  le_total (first second : α) (finite : Scalar.isFinite first = true)
    (finite' : Scalar.isFinite second = true) : first ≤ second ∨ second ≤ first
  beq_iff (first second : α) : (first == second) = true ↔ first ≤ second ∧ second ≤ first

instance ExactScalar.instComparableScalar {α : Type} [ExactScalar α] : ComparableScalar α where
  le_trans _ _ _ lower upper := lower.trans upper
  le_total first second _ _ := le_total first second
  beq_iff first second := by
    rw [ExactScalar.beq_iff]
    exact le_antisymm_iff

namespace Double

open Float.Model (UnpackedFloat)
open Float.Model.UnpackedFloat (Sign)

/-- The place of a double in the order. -/
def rank : UnpackedFloat → Int ×ₗ (Int ×ₗ Int)
  | .notANumber => toLex (0, toLex (0, 0))
  | .zero _ => toLex (0, toLex (0, 0))
  | .infinity .positive => toLex (2, toLex (0, 0))
  | .infinity .negative => toLex (-2, toLex (0, 0))
  | .finite .positive mantissa exponent _ => toLex (1, toLex (exponent, mantissa))
  | .finite .negative mantissa exponent _ => toLex (-1, toLex (-exponent, -mantissa))

theorem isNumber_of_isLE {first second : UnpackedFloat}
    (ordered : (first.compare second).any (·.isLE) = true) :
    first ≠ .notANumber ∧ second ≠ .notANumber := by
  constructor
  · rintro rfl
    cases ordered
  · rintro rfl
    rw [compare_swap] at ordered
    cases ordered

theorem isLE_compare_of_sign (sign : Sign) {mantissa fraction : Nat} {exponent power : Int}
    {positive : 0 < mantissa} {positive' : 0 < fraction} :
    ((UnpackedFloat.finite sign mantissa exponent positive).compare
        (.finite sign fraction power positive')).any (·.isLE) = true ↔
      rank (.finite sign mantissa exponent positive) ≤
        rank (.finite sign fraction power positive') := by
  cases sign with
  | positive =>
      apply (isLE_then_compare exponent power mantissa fraction).trans
      simp [rank, Prod.Lex.le_iff]
  | negative =>
      simp only [UnpackedFloat.compare, Option.any_some, swap_then_compare]
      apply (isLE_then_compare power exponent fraction mantissa).trans
      simp [rank, Prod.Lex.le_iff, eq_comm]

theorem isLE_compare_iff {first second : UnpackedFloat} (isNumber : first ≠ .notANumber)
    (isNumber' : second ≠ .notANumber) :
    (first.compare second).any (·.isLE) = true ↔ rank first ≤ rank second := by
  cases first with
  | notANumber => exact absurd rfl isNumber
  | infinity sign =>
      cases second with
      | notANumber => exact absurd rfl isNumber'
      | infinity other => cases sign <;> cases other <;> decide
      | zero other => cases sign <;> simp [UnpackedFloat.compare, rank, Prod.Lex.le_iff]
      | finite other =>
          cases sign <;> cases other <;> simp [UnpackedFloat.compare, rank, Prod.Lex.le_iff]
  | zero sign =>
      cases second with
      | notANumber => exact absurd rfl isNumber'
      | infinity other => cases other <;> simp [UnpackedFloat.compare, rank, Prod.Lex.le_iff]
      | zero other => exact iff_of_true rfl le_rfl
      | finite other => cases other <;> simp [UnpackedFloat.compare, rank, Prod.Lex.le_iff]
  | finite sign =>
      cases second with
      | notANumber => exact absurd rfl isNumber'
      | infinity other =>
          cases sign <;> cases other <;> simp [UnpackedFloat.compare, rank, Prod.Lex.le_iff]
      | zero other => cases sign <;> simp [UnpackedFloat.compare, rank, Prod.Lex.le_iff]
      | finite other =>
          cases sign with
          | positive =>
              cases other with
              | positive => exact isLE_compare_of_sign .positive
              | negative => simp [UnpackedFloat.compare, rank, Prod.Lex.le_iff]
          | negative =>
              cases other with
              | positive => simp [UnpackedFloat.compare, rank, Prod.Lex.le_iff]
              | negative => exact isLE_compare_of_sign .negative

theorem isNumber_of_isFinite {value : Float} (finite : Scalar.isFinite value = true) :
    value.toModel.unpack ≠ .notANumber := by
  intro isNot
  rw [isFinite_eq_isSome, isNot] at finite
  cases finite

end Double

instance : ComparableScalar Float where
  le_trans first second third lower upper := by
    rw [Double.le_iff] at lower upper ⊢
    obtain ⟨isFirst, isSecond⟩ := Double.isNumber_of_isLE lower
    have isThird := (Double.isNumber_of_isLE upper).2
    rw [Double.isLE_compare_iff isFirst isSecond] at lower
    rw [Double.isLE_compare_iff isSecond isThird] at upper
    rw [Double.isLE_compare_iff isFirst isThird]
    exact lower.trans upper
  le_total first second finite finite' := by
    have isFirst := Double.isNumber_of_isFinite finite
    have isSecond := Double.isNumber_of_isFinite finite'
    rw [Double.le_iff, Double.le_iff, Double.isLE_compare_iff isFirst isSecond,
      Double.isLE_compare_iff isSecond isFirst]
    exact le_total _ _
  beq_iff first second := by
    have compared : (first == second) = true ↔
        first.toModel.unpack.compare second.toModel.unpack = some .eq := by
      change (first.toModel.unpack.compare second.toModel.unpack == some .eq) = true ↔ _
      exact beq_iff_eq
    rw [compared, Double.le_iff, Double.le_iff,
      Double.compare_swap first.toModel.unpack second.toModel.unpack]
    cases first.toModel.unpack.compare second.toModel.unpack with
    | none => simp
    | some order => cases order <;> simp

namespace ComparableScalar

variable {α : Type} [Scalar α] [ComparableScalar α] {first second bound : α}

theorem le_refl (finite : Scalar.isFinite first = true) : first ≤ first :=
  or_self_iff.mp (le_total first first finite finite)

theorem isUndefined_eq_false (finite : Scalar.isFinite first = true) :
    Scalar.isUndefined first = false := by
  rw [Scalar.isUndefined, (beq_iff first first).mpr ⟨le_refl finite, le_refl finite⟩]
  rfl

theorem lesser_cases (finite : Scalar.isFinite first = true)
    (finite' : Scalar.isFinite second = true) :
    (second ≤ first ∧ Scalar.lesser first second = second) ∨
      (first ≤ second ∧ Scalar.lesser first second = first) := by
  by_cases reversed : second ≤ first
  · left
    exact ⟨reversed, if_pos reversed⟩
  · right
    constructor
    · exact (le_total first second finite finite').resolve_right reversed
    · rw [Scalar.lesser, if_neg reversed, isUndefined_eq_false finite]
      rfl

theorem greater_cases (finite : Scalar.isFinite first = true)
    (finite' : Scalar.isFinite second = true) :
    (first ≤ second ∧ Scalar.greater first second = second) ∨
      (second ≤ first ∧ Scalar.greater first second = first) := by
  by_cases ordered : first ≤ second
  · left
    exact ⟨ordered, if_pos ordered⟩
  · right
    constructor
    · exact (le_total first second finite finite').resolve_left ordered
    · rw [Scalar.greater, if_neg ordered, isUndefined_eq_false finite]
      rfl

theorem le_lesser_iff (finite : Scalar.isFinite first = true)
    (finite' : Scalar.isFinite second = true) :
    bound ≤ Scalar.lesser first second ↔ bound ≤ first ∧ bound ≤ second := by
  rcases lesser_cases finite finite' with ⟨reversed, isSecond⟩ | ⟨ordered, isFirst⟩
  · rw [isSecond]
    constructor
    · intro below
      exact ⟨le_trans bound second first below reversed, below⟩
    · exact And.right
  · rw [isFirst]
    constructor
    · intro below
      exact ⟨below, le_trans bound first second below ordered⟩
    · exact And.left

theorem greater_le_iff (finite : Scalar.isFinite first = true)
    (finite' : Scalar.isFinite second = true) :
    Scalar.greater first second ≤ bound ↔ first ≤ bound ∧ second ≤ bound := by
  rcases greater_cases finite finite' with ⟨ordered, isSecond⟩ | ⟨reversed, isFirst⟩
  · rw [isSecond]
    constructor
    · intro above
      exact ⟨le_trans first second bound ordered above, above⟩
    · exact And.right
  · rw [isFirst]
    constructor
    · intro above
      exact ⟨above, le_trans second first bound reversed above⟩
    · exact And.left

theorem isFinite_lesser (finite : Scalar.isFinite first = true)
    (finite' : Scalar.isFinite second = true) :
    Scalar.isFinite (Scalar.lesser first second) = true := by
  rcases lesser_cases finite finite' with ⟨_, isSecond⟩ | ⟨_, isFirst⟩
  · rwa [isSecond]
  · rwa [isFirst]

theorem isFinite_greater (finite : Scalar.isFinite first = true)
    (finite' : Scalar.isFinite second = true) :
    Scalar.isFinite (Scalar.greater first second) = true := by
  rcases greater_cases finite finite' with ⟨_, isSecond⟩ | ⟨_, isFirst⟩
  · rwa [isSecond]
  · rwa [isFirst]

end ComparableScalar

end Milling

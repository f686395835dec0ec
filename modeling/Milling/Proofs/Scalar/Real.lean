import Mathlib
import Milling.Proofs.Posting.Number
import Milling.Proofs.Scalar.Exact

/-!
# Real numbers

The real numbers are exact numbers, with the roots and the circular functions
that their names stand for.
-/

namespace Milling

/-- The whole number nearest to a real number, a half to the even neighbour. -/
noncomputable def nearestEven (value : ℝ) : Int :=
  if Int.fract value < 1 / 2 then ⌊value⌋
  else if 1 / 2 < Int.fract value then ⌊value⌋ + 1
  else if ⌊value⌋ % 2 = 0 then ⌊value⌋
  else ⌊value⌋ + 1

/-- The text of a real number with a set number of decimals. -/
noncomputable def fixedReal (places : Nat) (value : ℝ) : String :=
  String.ofList (Decimal.fixedText places (nearestEven (value * (10 ^ places : Nat))))

theorem newline_notMem_fixedReal (places : Nat) (value : ℝ) :
    '\n' ∉ (fixedReal places value).toList := by
  rw [fixedReal, String.toList_ofList]
  intro member
  exact absurd (Decimal.isNumberChar_of_mem_fixedText member) (by decide)

noncomputable instance : ExactScalar ℝ :=
  { (inferInstance : Field ℝ), (inferInstance : LinearOrder ℝ),
    (inferInstance : IsStrictOrderedRing ℝ) with
    decideLt := inferInstance
    decideLe := inferInstance
    toBEq := instBEqOfDecidableEq
    ofInt := Int.cast
    ofDecimal := fun negative coefficient places =>
      (if negative then -1 else 1) * ((coefficient : ℝ) / (10 ^ places : Nat))
    isFinite := fun _ => true
    floor := Int.floor
    scaled := fun places value => nearestEven (value * (10 ^ places : Nat))
    toText := fixedReal 6
    toFixed := fixedReal
    sqrt := Real.sqrt
    hypot := fun x y => Real.sqrt (x ^ 2 + y ^ 2)
    sin := Real.sin
    cos := Real.cos
    atan := Real.arctan
    acos := Real.arccos
    atan2 := fun y x => Complex.arg ⟨x, y⟩
    ofInt_cast := fun _ => rfl
    ofDecimal_cast := fun _ _ _ => rfl
    finite := fun _ => rfl
    beq_iff := fun _ _ => beq_iff_eq
    floor_le := Int.floor_le
    lt_floor_add_one := Int.lt_floor_add_one
    toText_oneLine := newline_notMem_fixedReal 6 }

theorem magnitude_eq_abs (value : ℝ) : Scalar.magnitude value = |value| := by
  unfold Scalar.magnitude
  rw [ExactScalar.literal_zero]
  split
  · rename_i positive
    exact (abs_of_pos positive).symm
  · rename_i notPositive
    rw [abs_of_nonpos (not_lt.mp notPositive)]
    exact zero_sub value

theorem ceil_eq (value : ℝ) : Scalar.ceil value = ⌈value⌉ := by
  have floor : Scalar.ceil value = -⌊-value⌋ := rfl
  rw [floor, Int.floor_neg, neg_neg]

end Milling

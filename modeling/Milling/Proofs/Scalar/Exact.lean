import Mathlib
import Milling.Program.Reading

/-!
# Numbers that programs can carry, and exact numbers

What a number type has to keep for numbers to pass through program text, and the number types
that keep more: those whose arithmetic does not round.
-/

/-!
## Numbers that programs can carry

What a number type has to keep for numbers to pass through program text:
decimals of one value are one number, and whole numbers of moderate size are
exact.  Doubles keep this, and so do exact numbers.
-/

namespace Milling

/-- Up to here every whole number is one of the type. -/
def exactBound : Nat := 2 ^ 53

/-- Number types whose decimals and whole numbers are what they are written as. -/
class DecimalScalar (α : Type) [Scalar α] : Prop where
  /-- The unit in which a decimal is written does not matter. -/
  ofDecimal_mul_pow (negative : Bool) (coefficient zeros places : Nat) :
    (Scalar.ofDecimal negative (coefficient * 10 ^ zeros) (places + zeros) : α) =
      Scalar.ofDecimal negative coefficient places
  ofDecimal_whole (number : Nat) :
    (Scalar.ofDecimal false number 0 : α) = Scalar.ofInt number
  isFinite_ofInt (number : Nat) (bounded : number ≤ exactBound) :
    Scalar.isFinite (Scalar.ofInt number : α) = true
  floor_ofInt (number : Nat) (bounded : number ≤ exactBound) :
    Scalar.floor (Scalar.ofInt number : α) = number
  ofInt_le_ofInt (first second : Nat) (ordered : first ≤ second)
    (bounded : second ≤ exactBound) :
    (Scalar.ofInt first : α) ≤ Scalar.ofInt second
  beq_self (value : α) (finite : Scalar.isFinite value = true) : (value == value) = true
  /-- Equal numbers round alike. -/
  scaled_congr (first second : α) (equal : (first == second) = true) (places : Nat) :
    Scalar.scaled places first = Scalar.scaled places second
  /-- A number is written on one line. -/
  newline_notMem_toText (value : α) : '\n' ∉ (Scalar.toText value).toList

namespace DecimalScalar

variable {α : Type} [Scalar α] [DecimalScalar α]

theorem selectedTool?_ofDecimal {tool : Nat}
    (bounded : tool ≤ Program.ToolChange.greatestTool) :
    Program.selectedTool? (Scalar.ofDecimal false tool 0 : α) = some tool := by
  have greatest : Program.ToolChange.greatestTool ≤ exactBound := by decide
  have exact : tool ≤ exactBound := Nat.le_trans bounded greatest
  have finite := isFinite_ofInt (α := α) tool exact
  have floor := floor_ofInt (α := α) tool exact
  have above : (0 : α) ≤ Scalar.ofInt tool :=
    ofInt_le_ofInt (α := α) 0 tool (Nat.zero_le tool) exact
  have below : (Scalar.ofInt tool : α) ≤ Scalar.ofInt Program.ToolChange.greatestTool :=
    ofInt_le_ofInt tool Program.ToolChange.greatestTool bounded greatest
  have whole : Scalar.isWhole (Scalar.ofInt tool : α) = true := by
    simp [Scalar.isWhole, finite, floor, beq_self _ finite]
  simp [Program.selectedTool?, ofDecimal_whole, above, below, whole, floor]

end DecimalScalar

end Milling

/-!
## Exact numbers

Number types whose arithmetic does not round: ordered fields in which every
number is finite and decimals are the fractions that they are written as.
-/

namespace Milling

/-- Ordered fields that the library computes with. -/
class ExactScalar (α : Type) extends Scalar α, Field α, LinearOrder α,
    IsStrictOrderedRing α where
  ofInt_cast (value : Int) : ofInt value = (value : α)
  ofDecimal_cast (negative : Bool) (coefficient places : Nat) :
    ofDecimal negative coefficient places =
      (if negative then -1 else 1) * ((coefficient : α) / (10 ^ places : Nat))
  finite (value : α) : isFinite value = true
  beq_iff (first second : α) : (first == second) = true ↔ first = second
  floor_le (value : α) : (floor value : α) ≤ value
  lt_floor_add_one (value : α) : value < floor value + 1
  toText_oneLine (value : α) : '\n' ∉ (toText value).toList

namespace ExactScalar

variable {α : Type} [ExactScalar α]

attribute [simp] ofInt_cast finite beq_iff

/-- A numeral of the library is the number of the field. -/
theorem literal (value : Nat) :
    @OfNat.ofNat α value (Scalar.instOfNat value) = (value : α) := by
  have cast := ofInt_cast (α := α) value
  rw [Int.cast_natCast] at cast
  exact cast

theorem literal_zero : @OfNat.ofNat α 0 (Scalar.instOfNat 0) = 0 := by
  rw [literal, Nat.cast_zero]

theorem literal_one : @OfNat.ofNat α 1 (Scalar.instOfNat 1) = 1 := by
  rw [literal, Nat.cast_one]

/-- A decimal of the library is the fraction of the field. -/
theorem decimal (coefficient places : Nat) :
    @OfScientific.ofScientific α Scalar.instOfScientific coefficient true places =
      (coefficient : α) / (10 ^ places : Nat) := by
  have fraction := ofDecimal_cast (α := α) false coefficient places
  rw [if_neg Bool.false_ne_true, one_mul] at fraction
  exact fraction

theorem isUndefined_eq_false (value : α) : Scalar.isUndefined value = false := by
  rw [Scalar.isUndefined, (beq_iff value value).mpr rfl]
  rfl

theorem lesser_eq_min (first second : α) : Scalar.lesser first second = min first second := by
  rw [Scalar.lesser, isUndefined_eq_false, if_neg Bool.false_ne_true]
  rcases le_or_gt second first with reversed | ordered
  · rw [if_pos reversed, min_eq_right reversed]
  · rw [if_neg (not_le.mpr ordered), min_eq_left ordered.le]

theorem greater_eq_max (first second : α) : Scalar.greater first second = max first second := by
  rw [Scalar.greater, isUndefined_eq_false, if_neg Bool.false_ne_true]
  rcases le_or_gt first second with ordered | reversed
  · rw [if_pos ordered, max_eq_right ordered]
  · rw [if_neg (not_le.mpr reversed), max_eq_left reversed.le]

theorem lesser_eq_left {first second : α} (ordered : first ≤ second) :
    Scalar.lesser first second = first := by
  rw [lesser_eq_min, min_eq_left ordered]

theorem le_floor_iff {value : α} {bound : ℤ} :
    bound ≤ Scalar.floor value ↔ (bound : α) ≤ value := by
  constructor
  · intro below
    have whole : (bound : α) ≤ Scalar.floor value := by exact_mod_cast below
    exact whole.trans (floor_le value)
  · intro below
    have next : (bound : α) < (Scalar.floor value + 1 : ℤ) := by
      push_cast
      exact below.trans_lt (lt_floor_add_one value)
    have order : bound < Scalar.floor value + 1 := by exact_mod_cast next
    omega

theorem ceil_le_iff {value : α} {bound : ℤ} : Scalar.ceil value ≤ bound ↔ value ≤ bound := by
  rw [Scalar.ceil, neg_le, le_floor_iff, Int.cast_neg, neg_le_neg_iff]

theorem ceil_mono {first second : α} (ordered : first ≤ second) :
    Scalar.ceil first ≤ Scalar.ceil second :=
  ceil_le_iff.mpr (ordered.trans (ceil_le_iff.mp le_rfl))

theorem magnitude_of_nonpos {value : α} (below : value ≤ 0) :
    Scalar.magnitude value = -value := by
  rw [Scalar.magnitude, literal_zero, if_neg (not_lt.mpr below), zero_sub]

theorem floor_cast (value : Int) : Scalar.floor (value : α) = value := by
  have below := floor_le (value : α)
  have above := lt_floor_add_one (value : α)
  have least : Scalar.floor (value : α) ≤ value := by exact_mod_cast below
  have most : value < Scalar.floor (value : α) + 1 := by exact_mod_cast above
  omega

instance : DecimalScalar α where
  ofDecimal_mul_pow negative coefficient zeros places := by
    have unit : ((10 ^ zeros : Nat) : α) ≠ 0 := by positivity
    have same : ((coefficient * 10 ^ zeros : Nat) : α) / (10 ^ (places + zeros) : Nat) =
        (coefficient : α) / (10 ^ places : Nat) := by
      rw [Nat.cast_mul, pow_add, Nat.cast_mul]
      exact mul_div_mul_right _ _ unit
    rw [ofDecimal_cast, ofDecimal_cast, same]
  ofDecimal_whole number := by
    rw [ofDecimal_cast, ofInt_cast]
    simp
  isFinite_ofInt number bounded := finite _
  floor_ofInt number bounded := by
    rw [ofInt_cast, floor_cast]
  ofInt_le_ofInt first second ordered bounded := by
    rw [ofInt_cast, ofInt_cast]
    exact_mod_cast ordered
  beq_self value isFinite := (beq_iff value value).mpr rfl
  scaled_congr first second equal places := by
    rw [(beq_iff first second).mp equal]
  newline_notMem_toText := toText_oneLine

end ExactScalar

end Milling

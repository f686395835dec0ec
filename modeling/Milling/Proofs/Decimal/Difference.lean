import Mathlib
import Milling.Proofs.Posting.Number
import Milling.Proofs.Scalar.Exact

/-!
# Differences of decimals

The difference of two decimals is a decimal with as many places as the one that
has more, and as exact numbers its text reads as the difference of theirs.
-/

namespace Milling

namespace Decimal.Numeral

/-- A numeral as a whole number of units of which `10 ^ places` make one. -/
def units (places : Nat) (numeral : Numeral) : Int :=
  let size : Int := (numeral.coefficient * 10 ^ (places - numeral.places) : Nat)
  if numeral.negative then -size else size

/-- The text of the difference between two numerals, with the places of the one
that has more. -/
def differenceText (first second : Numeral) : List Char :=
  let places := max first.places second.places
  fixedText places (first.units places - second.units places)

theorem isSome_read?_differenceText (first second : Numeral) :
    (read? (first.differenceText second)).isSome = true := by
  obtain ⟨_, _, _, read, _⟩ := reads_fixedText (max first.places second.places)
    (first.units (max first.places second.places) - second.units (max first.places second.places))
  exact Option.isSome_iff_exists.mpr ⟨_, read⟩

def zero : Numeral := { negative := false, coefficient := 0, places := 0 }

theorem isNumberChar_of_readMagnitude? {negative : Bool} {text : List Char}
    (decimal : (readMagnitude? negative text).isSome = true) :
    text ≠ [] ∧ ∀ character ∈ text, Program.isNumberChar character = true := by
  have whole : ∀ character ∈ text.takeWhile Char.isDigit,
      Program.isNumberChar character = true := fun character member =>
    isNumberChar_of_isDigit (List.mem_takeWhile_imp member)
  rw [← List.takeWhile_append_dropWhile (p := Char.isDigit) (l := text)]
  unfold readMagnitude? at decimal
  dsimp only at decimal
  split at decimal
  · rename_i rest
    split at decimal
    · cases decimal
    · rename_i nonempty
      rw [rest, List.append_nil]
      exact ⟨nonempty, whole⟩
  · rename_i fraction rest
    split at decimal
    · rename_i digits
      rw [rest]
      refine ⟨by simp, ?_⟩
      intro character member
      rcases List.mem_append.mp member with inWhole | inRest
      · exact whole character inWhole
      · rcases List.mem_cons.mp inRest with rfl | inFraction
        · decide
        · exact isNumberChar_of_isDigit (List.all_eq_true.mp digits.1 character inFraction)
    · cases decimal
  · cases decimal

theorem isNumberChar_of_read? {text : List Char} (decimal : (read? text).isSome = true) :
    text ≠ [] ∧ ∀ character ∈ text, Program.isNumberChar character = true := by
  unfold read? splitSign at decimal
  split at decimal
  rename_i split
  split at split <;> obtain ⟨-, rfl⟩ := Prod.mk.inj split
  · exact ⟨by simp, List.forall_mem_cons.mpr ⟨rfl, (isNumberChar_of_readMagnitude? decimal).2⟩⟩
  · exact ⟨by simp, List.forall_mem_cons.mpr ⟨rfl, (isNumberChar_of_readMagnitude? decimal).2⟩⟩
  · exact isNumberChar_of_readMagnitude? decimal

section Values

variable {α : Type} [ExactScalar α]

/-- The number that a numeral stands for. -/
def value (numeral : Numeral) : α :=
  Scalar.ofDecimal numeral.negative numeral.coefficient numeral.places

theorem value_zero : (zero.value : α) = 0 := by
  simp [zero, value, ExactScalar.ofDecimal_cast]

/-- A numeral is its number of units, whatever unit is fine enough for it. -/
theorem value_eq_units_div {places : Nat} {numeral : Numeral} (enough : numeral.places ≤ places) :
    (numeral.value : α) = (numeral.units places : α) / (10 ^ places : Nat) := by
  have unit : ((10 ^ (places - numeral.places) : Nat) : α) ≠ 0 := by positivity
  have split : ((10 ^ places : Nat) : α) =
      (10 ^ numeral.places : Nat) * (10 ^ (places - numeral.places) : Nat) := by
    rw [← Nat.cast_mul, ← pow_add, Nat.add_sub_cancel' enough]
  have size : (numeral.coefficient : α) / (10 ^ numeral.places : Nat) =
      (numeral.coefficient * 10 ^ (places - numeral.places) : Nat) / (10 ^ places : Nat) := by
    rw [split, Nat.cast_mul, mul_div_mul_right _ _ unit]
  rw [value, ExactScalar.ofDecimal_cast, size, units]
  cases numeral.negative <;> simp [neg_div]

theorem ofDecimal_natAbs (scaled : Int) (places : Nat) :
    (Scalar.ofDecimal (decide (scaled < 0)) scaled.natAbs places : α) =
      (scaled : α) / (10 ^ places : Nat) := by
  rw [ExactScalar.ofDecimal_cast, Nat.cast_natAbs, ← mul_div_assoc]
  congr 1
  by_cases negative : scaled < 0
  · simp [negative, abs_of_neg negative]
  · simp [negative, abs_of_nonneg (not_lt.mp negative)]

theorem numberValue_of_isSome {text : List Char} (decimal : (read? text).isSome = true) :
    Program.numberValue text = .number (((read? text).get decimal).value : α) := by
  obtain ⟨numeral, isNumeral⟩ := Option.isSome_iff_exists.mp decimal
  simp [Program.numberValue, isNumeral, value]

theorem value_differenceText (first second : Numeral) :
    (((read? (first.differenceText second)).get
      (isSome_read?_differenceText first second)).value : α) = first.value - second.value := by
  let places := max first.places second.places
  have difference : Program.numberValue (first.differenceText second) =
      .number (Scalar.ofDecimal _ _ places : α) :=
    Posting.Dialect.numberValue_of_reads
      (reads_fixedText places (first.units places - second.units places))
  rw [numberValue_of_isSome (isSome_read?_differenceText first second), ofDecimal_natAbs,
    Int.cast_sub, sub_div, ← value_eq_units_div (le_max_left _ _),
    ← value_eq_units_div (le_max_right _ _)] at difference
  exact Program.WordValue.number.inj difference

end Values

end Decimal.Numeral

end Milling

import Milling.Posting.Emission
import Milling.Proofs.Decimal.Numeral
import Milling.Proofs.Program.Token
import Milling.Proofs.Scalar.Exact

/-!
# Numbers of written words

In both styles a written number reads back as the number rounded to the
decimals of the dialect.
-/

namespace Milling

open Program (IsWord isNumberChar numberValue)

section Characters

namespace Decimal

theorem isNumberChar_of_isDigit {character : Char} (digit : character.isDigit = true) :
    isNumberChar character = true := by
  simp [isNumberChar, digit]

theorem isNumberChar_of_mem_fixedText {places : Nat} {scaled : Int} {character : Char}
    (member : character ∈ fixedText places scaled) : isNumberChar character = true := by
  have magnitude : ∀ inside ∈ fixedMagnitude places scaled.natAbs,
      isNumberChar inside = true := by
    intro inside insideMember
    by_cases none : places = 0
    · subst none
      rw [fixedMagnitude_zero] at insideMember
      exact isNumberChar_of_isDigit (isDigit_of_mem_toDigits insideMember)
    · rw [fixedMagnitude_of_ne_zero none, List.mem_append, List.mem_cons] at insideMember
      rcases insideMember with whole | rfl | fraction
      · exact isNumberChar_of_isDigit (isDigit_of_mem_toDigits whole)
      · decide
      · exact isNumberChar_of_isDigit (isDigit_of_mem_fractionDigits fraction)
  unfold fixedText at member
  split at member
  · rcases List.mem_cons.mp member with rfl | inside
    · decide
    · exact magnitude character inside
  · exact magnitude character member

theorem fixedText_ne_nil (places : Nat) (scaled : Int) : fixedText places scaled ≠ [] := by
  have magnitude : fixedMagnitude places scaled.natAbs ≠ [] := by
    by_cases none : places = 0
    · subst none
      rw [fixedMagnitude_zero]
      exact Nat.toDigits_ne_nil
    · simp [fixedMagnitude_of_ne_zero none]
  unfold fixedText
  split
  · simp
  · exact magnitude

theorem point_mem_fixedText_iff {places : Nat} {scaled : Int} :
    '.' ∈ fixedText places scaled ↔ places ≠ 0 := by
  have absent : ∀ value : Nat, '.' ∉ Nat.toDigits 10 value := by
    intro value member
    exact absurd (isDigit_of_mem_toDigits member) (by decide)
  by_cases none : places = 0
  · subst none
    by_cases negative : scaled < 0 <;>
      simp [fixedText, negative, fixedMagnitude_zero, absent]
  · by_cases negative : scaled < 0 <;>
      simp [fixedText, negative, fixedMagnitude_of_ne_zero none, none]

end Decimal

end Characters

namespace Posting.Dialect

theorem styled_trailingPoint_zero (scaled : Int) :
    styled .trailingPoint (Decimal.fixedText 0 scaled) =
      Decimal.fixedText 0 scaled ++ ['.'] := by
  have absent : '.' ∉ Decimal.fixedText 0 scaled := by
    simp [Decimal.point_mem_fixedText_iff]
  simp [styled, absent]

theorem styled_trailingPoint_of_ne_zero {places : Nat} (some : places ≠ 0)
    (scaled : Int) :
    styled .trailingPoint (Decimal.fixedText places scaled) =
      Text.dropEndWhile (· == '0') (Decimal.fixedText places scaled) := by
  have present : '.' ∈ Decimal.fixedText places scaled :=
    Decimal.point_mem_fixedText_iff.mpr some
  simp [styled, present, Text.dropEndWhile]

theorem reads_styled (style : NumberStyle) (places : Nat) (scaled : Int) :
    Decimal.Numeral.Reads (styled style (Decimal.fixedText places scaled))
      (decide (scaled < 0)) scaled.natAbs places := by
  cases style with
  | fixed => exact Decimal.Numeral.reads_fixedText places scaled
  | trailingPoint =>
      by_cases none : places = 0
      · subst none
        rw [styled_trailingPoint_zero]
        exact Decimal.Numeral.reads_fixedText_zero_point scaled
      · rw [styled_trailingPoint_of_ne_zero none]
        exact Decimal.Numeral.reads_dropEndWhile_zero none scaled

theorem styled_ne_nil (style : NumberStyle) (places : Nat) (scaled : Int) :
    styled style (Decimal.fixedText places scaled) ≠ [] := by
  intro empty
  obtain ⟨short, zeros, fewer, read, _⟩ := reads_styled style places scaled
  rw [empty] at read
  simp [Decimal.Numeral.read?, Decimal.splitSign, Decimal.Numeral.readMagnitude?] at read

theorem isNumberChar_of_mem_styled {style : NumberStyle} {places : Nat} {scaled : Int}
    {character : Char}
    (member : character ∈ styled style (Decimal.fixedText places scaled)) :
    isNumberChar character = true := by
  cases style with
  | fixed => exact Decimal.isNumberChar_of_mem_fixedText member
  | trailingPoint =>
      by_cases none : places = 0
      · subst none
        rw [styled_trailingPoint_zero, List.mem_append, List.mem_singleton] at member
        rcases member with inside | rfl
        · exact Decimal.isNumberChar_of_mem_fixedText inside
        · decide
      · rw [styled_trailingPoint_of_ne_zero none] at member
        exact Decimal.isNumberChar_of_mem_fixedText (Text.mem_of_mem_dropEndWhile member)

variable {α : Type} [Scalar α]

def rounded (dialect : Dialect) (value : α) : α :=
  let scaled := Scalar.scaled dialect.decimals value
  Scalar.ofDecimal (decide (scaled < 0)) scaled.natAbs dialect.decimals

theorem numberText_of_finite (dialect : Dialect) {value : α}
    (finite : Scalar.isFinite value = true) :
    dialect.numberText value = styled dialect.numberStyle
      (Decimal.fixedText dialect.decimals (Scalar.scaled dialect.decimals value)) := by
  simp [numberText, finite]

theorem numberValue_of_reads [DecimalScalar α] {text : Line} {negative : Bool}
    {coefficient places : Nat}
    (reads : Decimal.Numeral.Reads text negative coefficient places) :
    numberValue text = .number (Scalar.ofDecimal negative coefficient places : α) := by
  obtain ⟨short, zeros, fewer, read, rfl, rfl⟩ := reads
  have unit := DecimalScalar.ofDecimal_mul_pow (α := α) negative short zeros fewer
  rw [numberValue, read]
  exact congrArg Program.WordValue.number unit.symm

/-- A written number reads back rounded. -/
theorem numberValue_numberText [DecimalScalar α] (dialect : Dialect) {value : α}
    (finite : Scalar.isFinite value = true) :
    numberValue (dialect.numberText value) = .number (dialect.rounded value) := by
  rw [numberText_of_finite dialect finite]
  exact numberValue_of_reads
    (reads_styled dialect.numberStyle dialect.decimals
      (Scalar.scaled dialect.decimals value))

theorem isWord_word (dialect : Dialect) {letter : Char} {value : α}
    (capital : letter.isUpper = true) (finite : Scalar.isFinite value = true) :
    IsWord (dialect.word letter value) := by
  refine .intro letter (dialect.numberText value) capital ?_ ?_
  · rw [numberText_of_finite dialect finite]
    exact styled_ne_nil _ _ _
  · intro character member
    rw [numberText_of_finite dialect finite] at member
    exact isNumberChar_of_mem_styled member

theorem rounded_congr [DecimalScalar α] (dialect : Dialect) {first second : α}
    (equal : (first == second) = true) : dialect.rounded first = dialect.rounded second := by
  simp only [rounded, DecimalScalar.scaled_congr first second equal dialect.decimals]

/-- Numbers written alike read back as one number. -/
theorem rounded_eq_of_numberText_eq [DecimalScalar α] (dialect : Dialect) {first second : α}
    (firstFinite : Scalar.isFinite first = true) (secondFinite : Scalar.isFinite second = true)
    (alike : dialect.numberText first = dialect.numberText second) :
    dialect.rounded first = dialect.rounded second := by
  have firstValue := numberValue_numberText dialect firstFinite
  have secondValue := numberValue_numberText dialect secondFinite
  rw [alike, secondValue, Program.WordValue.number.injEq] at firstValue
  exact firstValue.symm

end Posting.Dialect

end Milling

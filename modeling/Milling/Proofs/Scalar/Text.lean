import Mathlib
import Milling.Proofs.Posting.Number
import Milling.Proofs.Scalar.Exact
import Milling.Scalar.Double

/-!
# Texts of numbers

Every number is written on one line, and the few that are not finite have names
of letters.  Doubles keep this, and so do exact numbers.
-/

namespace Milling

/-- The names of numbers that are not finite. -/
def unboundedNames : List String := ["NaN", "inf", "-inf"]

/-- Number types whose numbers have texts that can stand in a program. -/
class TextScalar (α : Type) [Scalar α] : Prop where
  isFinite_zero : Scalar.isFinite (0 : α) = true
  /-- A number is written on one line. -/
  toText_oneLine (value : α) : '\n' ∉ (Scalar.toText value).toList
  /-- What is not finite is written by name. -/
  toText_unbounded (value : α) (unbounded : Scalar.isFinite value = false) :
    Scalar.toText value ∈ unboundedNames

instance ExactScalar.instTextScalar {α : Type} [ExactScalar α] : TextScalar α where
  isFinite_zero := ExactScalar.finite _
  toText_oneLine := ExactScalar.toText_oneLine
  toText_unbounded value unbounded := by
    rw [ExactScalar.finite value] at unbounded
    cases unbounded

namespace Decimal.Layout

theorem newline_notMem_toDigits (value : Nat) : '\n' ∉ Nat.toDigits 10 value := fun member =>
  absurd (isDigit_of_mem_toDigits member) (by decide)

theorem newline_notMem_positionalText {digits : List Char} (oneLine : '\n' ∉ digits)
    (keepsFraction : Bool) (point : Int) :
    '\n' ∉ positionalText keepsFraction digits point := by
  have blank : ∀ count, '\n' ∉ List.replicate count '0' := fun count member =>
    absurd (List.eq_of_mem_replicate member) (by decide)
  unfold positionalText
  dsimp only
  split
  · simp [oneLine]
  · split
    · cases keepsFraction <;> simp [oneLine]
    · rw [List.mem_append, List.mem_cons]
      rintro (inWhole | isPoint | inFraction)
      · exact oneLine (List.mem_of_mem_take inWhole)
      · cases isPoint
      · exact oneLine (List.mem_of_mem_drop inFraction)

theorem newline_notMem_exponentText {digits : List Char} (oneLine : '\n' ∉ digits)
    (point : Int) : '\n' ∉ exponentText digits point := by
  have magnitude := newline_notMem_toDigits (point - 1).natAbs
  unfold exponentText
  dsimp only
  split
  · simp
  · split <;> simp_all
  · split <;> simp_all

theorem newline_notMem_text (layout : Layout) (value : ShortDecimal) :
    '\n' ∉ layout.text value := by
  have digits := newline_notMem_toDigits value.coefficient
  unfold text
  split
  · split <;> decide
  · dsimp only
    split
    · exact newline_notMem_positionalText digits _ _
    · exact newline_notMem_exponentText digits _

theorem newline_notMem_floatText (layout : Layout) (value : Float) :
    '\n' ∉ (layout.floatText value).toList := by
  unfold floatText
  split
  · rename_i binary _
    have digits := newline_notMem_text layout (ShortDecimal.ofBinary layout.tie binary)
    dsimp only
    rw [String.toList_ofList]
    split
    · simp [digits]
    · exact digits
  · split
    · decide
    · split <;> decide

end Decimal.Layout

instance : TextScalar Float where
  isFinite_zero := by decide
  toText_oneLine := Decimal.Layout.plain.newline_notMem_floatText
  toText_unbounded value unbounded := by
    have none : Decimal.Binary.ofFloat? value = none := by
      simpa [Scalar.isFinite] using unbounded
    simp only [Scalar.toText, Decimal.Layout.floatText, none, unboundedNames]
    split
    · simp
    · split <;> simp

namespace Posting.Dialect

variable {α : Type} [Scalar α]

/-- A number that is not finite is written by its name. -/
theorem numberText_unbounded [TextScalar α] (dialect : Dialect) {value : α}
    (unbounded : Scalar.isFinite value = false) :
    ∃ name ∈ unboundedNames, dialect.numberText value = styled dialect.numberStyle name.toList :=
  ⟨Scalar.toText value, TextScalar.toText_unbounded value unbounded, by
    simp [numberText, unbounded]⟩

/-- What the characters of all names of numbers that are not finite keep. -/
theorem numberText_unbounded_all [TextScalar α] (dialect : Dialect) {value : α}
    (unbounded : Scalar.isFinite value = false) {keeps : Char → Bool}
    (names : ['N', 'a', 'i', 'n', 'f', '-', '.'].all keeps = true) :
    ∀ character ∈ dialect.numberText value, keeps character = true := by
  obtain ⟨name, isName, text⟩ := dialect.numberText_unbounded unbounded
  have inside : ∀ style, ∀ name ∈ unboundedNames, (styled style name.toList).all
      (['N', 'a', 'i', 'n', 'f', '-', '.'].contains ·) = true := by
    intro style name isName
    simp only [unboundedNames, List.mem_cons, List.not_mem_nil, or_false] at isName
    rcases isName with rfl | rfl | rfl <;> cases style <;> decide
  intro character member
  rw [text] at member
  have isOne := List.all_eq_true.mp (inside dialect.numberStyle name isName) character member
  exact List.all_eq_true.mp names character (List.contains_iff_mem.mp isOne)

theorem isPlainWord_word [TextScalar α] (dialect : Dialect) {letter : Char}
    (capital : letter.isUpper = true) (value : α) :
    Program.IsPlainWord (dialect.word letter value) := by
  cases finite : Scalar.isFinite value with
  | true => exact (dialect.isWord_word capital finite).isPlain
  | false =>
      exact .intro letter _ capital (dialect.numberText_unbounded_all finite (by decide))

end Posting.Dialect

end Milling

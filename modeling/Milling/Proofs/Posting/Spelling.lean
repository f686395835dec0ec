import Mathlib
import Milling.Proofs.Decimal.Difference
import Milling.Proofs.Program.Rendering
import Milling.Proofs.Scalar.Measure

/-!
# Written numbers

A number is written to a number of decimals, in a word of a program that is posted or in a
command that is written again.  The word that is read back has the number that was written,
rounded once; rounding it again changes nothing, so it is written in the same way again.
-/

namespace Milling

/-- A real number rounded to some decimals, a half to the even neighbour. -/
noncomputable def nearestDecimal (places : Nat) (value : ℝ) : ℝ :=
  nearestEven (value * (10 ^ places : Nat)) / (10 ^ places : Nat)

theorem nearestEven_nearestDecimal (places : Nat) (value : ℝ) :
    nearestEven (nearestDecimal places value * (10 ^ places : Nat)) =
      nearestEven (value * (10 ^ places : Nat)) := by
  have unit : ((10 ^ places : Nat) : ℝ) ≠ 0 := by positivity
  rw [nearestDecimal, div_mul_cancel₀ _ unit, nearestEven_intCast]

namespace Decimal

/-- A minus with nothing but zeros and points behind it. -/
def SpellsNegativeZero (text : List Char) : Prop :=
  ∃ rest, text = '-' :: rest ∧ ∀ character ∈ rest, character = '0' ∨ character = '.'

/-- Behind a point no zero stands at the end, and the point itself does not. -/
def IsTrimmed (text : List Char) : Prop :=
  '.' ∈ text → ∀ last ∈ text.getLast?, last ≠ '0' ∧ last ≠ '.'

theorem appendDigits_of_zeros {digits : List Char} (zeros : ∀ digit ∈ digits, digit = '0') :
    appendDigits 0 digits = 0 := by
  rw [List.eq_replicate_of_mem zeros, appendDigits_replicate_zero, Nat.zero_mul]

namespace Numeral

theorem readMagnitude?_of_zeros {negative : Bool} {text : List Char} {numeral : Numeral}
    (zeros : ∀ character ∈ text, character = '0' ∨ character = '.')
    (read : readMagnitude? negative text = some numeral) :
    numeral.negative = negative ∧ numeral.coefficient = 0 := by
  have zero {digit : Char} (member : digit ∈ text) (isDigit : digit.isDigit = true) :
      digit = '0' := by
    rcases zeros digit member with same | rfl
    · exact same
    · cases isDigit
  have whole : ∀ digit ∈ text.takeWhile Char.isDigit, digit = '0' := fun digit member =>
    zero ((List.takeWhile_sublist _).subset member) (List.mem_takeWhile_imp member)
  unfold readMagnitude? at read
  dsimp only at read
  split at read
  · split at read
    · cases read
    · cases read
      exact ⟨rfl, appendDigits_of_zeros whole⟩
  · rename_i fraction behind
    split at read
    · rename_i digits
      cases read
      refine ⟨rfl, appendDigits_of_zeros fun digit member => ?_⟩
      rcases List.mem_append.mp member with inWhole | inFraction
      · exact whole digit inWhole
      · have inside : digit ∈ text.dropWhile Char.isDigit := by
          rw [behind]
          exact List.mem_cons_of_mem _ inFraction
        exact zero ((List.dropWhile_sublist _).subset inside)
          (List.all_eq_true.mp digits.1 digit inFraction)
    · cases read
  · cases read

theorem Reads.not_spellsNegativeZero {text : List Char} {scaled : Int} {places : Nat}
    (reads : Reads text (decide (scaled < 0)) scaled.natAbs places) :
    ¬SpellsNegativeZero text := by
  rintro ⟨rest, rfl, zeros⟩
  obtain ⟨short, count, fewer, read, units, -⟩ := reads
  obtain ⟨isNegative, isZero⟩ := readMagnitude?_of_zeros zeros read
  have below : scaled < 0 := of_decide_eq_true isNegative
  have none : short = 0 := isZero
  rw [none, Nat.zero_mul] at units
  omega

end Numeral

theorem isTrimmed_trimDecimal {places : Nat} (some : places ≠ 0) (scaled : Int) :
    IsTrimmed (Program.trimDecimal (fixedText places scaled)) := by
  obtain ⟨kept, keptNumeric, pointed, trimmed⟩ := trimDecimal_fixedText some scaled
  intro point last isLast
  have regroup : Numeral.signed (decide (scaled < 0))
      (Nat.toDigits 10 (scaled.natAbs / 10 ^ places) ++ '.' :: kept) =
        Numeral.signed (decide (scaled < 0))
          (Nat.toDigits 10 (scaled.natAbs / 10 ^ places) ++ ['.']) ++ kept := by
    cases decide (scaled < 0) <;> simp [Numeral.signed]
  by_cases none : kept = []
  · -- no digit is left behind the point, and so no point
    rw [trimmed, if_pos none, List.append_nil] at point
    have digit : ('.').isDigit = true := by
      unfold Numeral.signed at point
      split at point
      · rcases List.mem_cons.mp point with minus | inWhole
        · cases minus
        · exact isDigit_of_mem_toDigits inWhole
      · exact isDigit_of_mem_toDigits point
    cases digit
  · rw [trimmed, if_neg none] at isLast
    constructor
    · rintro rfl
      rw [← pointed] at isLast
      cases Text.drops_getLast?_dropEndWhile isLast
    · rintro rfl
      rw [regroup, List.getLast?_append_of_ne_nil _ none] at isLast
      cases keptNumeric '.' (List.mem_of_getLast? isLast)

end Decimal

namespace Program

open Decimal

variable {letter : Char} {text : List Char} {scaled : Int} {places : Nat}

/-- A letter and a text that reads as a number are one word with that number. -/
theorem tokenize_reads (isLetter : letter.isAlpha = true)
    (numeric : ∀ character ∈ text, isNumberChar character = true)
    (reads : Numeral.Reads text (decide (scaled < 0)) scaled.natAbs places) :
    tokenize (α := ℝ) (letter :: text) =
      [.word letter.toUpper (.number (scaled / (10 ^ places : Nat))) (String.ofList text)] := by
  have nonempty : text ≠ [] := by
    rintro rfl
    obtain ⟨short, zeros, fewer, read, _⟩ := reads
    cases read
  have word := @tokenize_lettered_append ℝ _ _ [] (.intro letter text isLetter nonempty numeric)
    (by simp)
  rw [List.append_nil] at word
  rw [word, capitalized, tokenOf, Posting.Dialect.numberValue_of_reads reads,
    Numeral.ofDecimal_natAbs, tokenize]

end Program

section Written

open Decimal

variable {α : Type} [Scalar α] [MeasuredScalar α] {value : α}

/-- The number that is read back is written with the same digits. -/
theorem scaled_nearestDecimal (places : Nat) (finite : Scalar.isFinite value = true) :
    Scalar.scaled places (nearestDecimal places (MeasuredScalar.toReal value)) =
      Scalar.scaled places value := by
  rw [MeasuredScalar.scaled_eq places value finite]
  exact nearestEven_nearestDecimal places (MeasuredScalar.toReal value)

theorem scaled_div (places : Nat) (finite : Scalar.isFinite value = true) :
    (Scalar.scaled places value : ℝ) / (10 ^ places : Nat) =
      nearestDecimal places (MeasuredScalar.toReal value) := by
  rw [MeasuredScalar.scaled_eq places value finite, nearestDecimal]

theorem Posting.Dialect.numberText_nearestDecimal (dialect : Dialect)
    (finite : Scalar.isFinite value = true) :
    dialect.numberText (nearestDecimal dialect.decimals (MeasuredScalar.toReal value)) =
      dialect.numberText value := by
  rw [numberText_of_finite dialect finite, numberText_of_finite dialect (ExactScalar.finite _),
    scaled_nearestDecimal dialect.decimals finite]

theorem Program.numberText_nearestDecimal (finite : Scalar.isFinite value = true) :
    numberText (nearestDecimal writtenPlaces (MeasuredScalar.toReal value)) =
      numberText value := by
  simp only [numberText, finite, ExactScalar.finite, if_true,
    scaled_nearestDecimal writtenPlaces finite]

/-- Every finite number, a double as well as a real one, is read back from the word that a dialect
writes for it, and from the word of a command that is written again, as its real value rounded to
the decimals of the word, a half to the even neighbour.  Neither text is a negative zero, the
command's has no zero or point too many at its end, and the number that is read back is written
in the same way again. -/
theorem written_numbers_read_back (dialect : Posting.Dialect) {letter : Char}
    (isLetter : letter.isAlpha = true) (finite : Scalar.isFinite value = true) :
    let posted := nearestDecimal dialect.decimals (MeasuredScalar.toReal value)
    let listed := nearestDecimal Program.writtenPlaces (MeasuredScalar.toReal value)
    (Program.tokenize (dialect.word letter value) =
          [.word letter.toUpper (.number posted) (String.ofList (dialect.numberText value))] ∧
        ¬SpellsNegativeZero (dialect.numberText value) ∧
        dialect.word letter posted = dialect.word letter value) ∧
      Program.tokenize (letter :: (Program.numberText value).toList) =
          [.word letter.toUpper (.number listed) (Program.numberText value)] ∧
        ¬SpellsNegativeZero (Program.numberText value).toList ∧
        IsTrimmed (Program.numberText value).toList ∧
        Program.numberText listed = Program.numberText value := by
  intro posted listed
  have places : Program.writtenPlaces ≠ 0 := by decide
  have postedReads := Posting.Dialect.reads_styled dialect.numberStyle dialect.decimals
    (Scalar.scaled dialect.decimals value)
  rw [← Posting.Dialect.numberText_of_finite dialect finite] at postedReads
  have listedReads := reads_trimDecimal places (Scalar.scaled Program.writtenPlaces value)
  rw [← Program.toList_numberText finite] at listedReads
  refine ⟨⟨?_, postedReads.not_spellsNegativeZero, ?_⟩, ?_, listedReads.not_spellsNegativeZero,
    ?_, Program.numberText_nearestDecimal finite⟩
  · have numeric : ∀ character ∈ dialect.numberText value,
        Program.isNumberChar character = true := by
      rw [Posting.Dialect.numberText_of_finite dialect finite]
      exact fun character member => Posting.Dialect.isNumberChar_of_mem_styled member
    have word := Program.tokenize_reads isLetter numeric postedReads
    rwa [scaled_div dialect.decimals finite] at word
  · exact congrArg (letter :: ·) (dialect.numberText_nearestDecimal finite)
  · have numeric : ∀ character ∈ (Program.numberText value).toList,
        Program.isNumberChar character = true := by
      rw [Program.toList_numberText finite]
      exact fun character member => isNumberChar_of_mem_fixedText
        (Text.mem_of_mem_dropEndWhile (Text.mem_of_mem_dropEndWhile member))
    have word := Program.tokenize_reads isLetter numeric listedReads
    rwa [scaled_div Program.writtenPlaces finite, String.ofList_toList] at word
  · rw [Program.toList_numberText finite]
    exact isTrimmed_trimDecimal places _

/-- Half a unit of the fourth decimal goes to the even neighbour. -/
theorem written_numbers_read_back_half :
    ('x').isAlpha = true ∧ Scalar.isFinite (-1 / 32 : ℝ) = true ∧
      Program.tokenize ('x' :: (Program.numberText (-1 / 32 : ℝ)).toList) =
        [.word 'X' (.number (-312 / 10000 : ℝ)) (Program.numberText (-1 / 32 : ℝ))] := by
  have isLetter : ('x').isAlpha = true := by decide
  have finite : Scalar.isFinite (-1 / 32 : ℝ) = true := ExactScalar.finite _
  have nearest : nearestDecimal Program.writtenPlaces (-1 / 32) = -312 / 10000 := by
    have floor : ⌊(-1 / 32 * (10 ^ 4 : Nat) : ℝ)⌋ = -313 := by norm_num [Int.floor_eq_iff]
    have half : Int.fract (-1 / 32 * (10 ^ 4 : Nat) : ℝ) = 1 / 2 := by
      rw [Int.fract, floor]
      norm_num
    rw [nearestDecimal, Program.writtenPlaces, nearestEven, half, floor]
    norm_num
  have word := (written_numbers_read_back Posting.Dialect.fanuc isLetter finite).2.1
  exact ⟨isLetter, finite, nearest ▸ word⟩

end Written

end Milling

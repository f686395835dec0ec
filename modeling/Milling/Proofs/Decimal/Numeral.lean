import Milling.Decimal.Binary
import Milling.Decimal.Numeral
import Milling.Proofs.Text.Blank

/-!
# Reading written decimals

A decimal with a set number of places reads back as the whole number of its
smallest unit.  Zeros dropped behind the point only move that unit.
-/

namespace Milling.Decimal

theorem appendDigits_eq_ofDigitChars (value : Nat) (digits : List Char) :
    appendDigits value digits = Nat.ofDigitChars 10 digits value := rfl

theorem appendDigits_append (value : Nat) (first second : List Char) :
    appendDigits value (first ++ second) =
      appendDigits (appendDigits value first) second :=
  Nat.ofDigitChars_append value

theorem appendDigits_toDigits (value : Nat) :
    appendDigits 0 (Nat.toDigits 10 value) = value :=
  Nat.ofDigitChars_ten_toDigits

theorem appendDigits_replicate_zero (value count : Nat) :
    appendDigits value (List.replicate count '0') = value * 10 ^ count := by
  rw [appendDigits_eq_ofDigitChars, Nat.ofDigitChars_replicate_zero, Nat.mul_comm]

theorem isDigit_of_mem_toDigits {value : Nat} {digit : Char}
    (member : digit ∈ Nat.toDigits 10 value) : digit.isDigit = true :=
  Nat.isDigit_of_mem_toDigits (by decide) (by decide) member

theorem isDigit_of_mem_fractionDigits {places value : Nat} {digit : Char}
    (member : digit ∈ fractionDigits places value) : digit.isDigit = true := by
  rcases List.mem_append.mp member with padding | digits
  · rw [List.eq_of_mem_replicate padding]
    decide
  · exact isDigit_of_mem_toDigits digits

/-- The digits behind a point fill its places. -/
theorem length_fractionDigits {places : Nat} (some : places ≠ 0) (value : Nat) :
    (fractionDigits places value).length = places := by
  have bounded : value % 10 ^ places < 10 ^ places :=
    Nat.mod_lt _ (Nat.pow_pos (by decide))
  have fits : (Nat.toDigits 10 (value % 10 ^ places)).length ≤ places :=
    (Nat.length_toDigits_le_iff (by decide) (Nat.pos_of_ne_zero some)).mpr bounded
  simp only [fractionDigits, List.length_append, List.length_replicate, Nat.pow_eq]
  omega

theorem appendDigits_fractionDigits {places : Nat} (some : places ≠ 0)
    (start value : Nat) :
    appendDigits start (fractionDigits places value) =
      start * 10 ^ places + value % 10 ^ places := by
  have length := length_fractionDigits some value
  rw [appendDigits_eq_ofDigitChars, Nat.ofDigitChars_eq_ofDigitChars_zero, length,
    Nat.mul_comm, fractionDigits, Nat.ofDigitChars_append,
    Nat.ofDigitChars_replicate_zero, Nat.mul_zero]
  exact congrArg _ (appendDigits_toDigits (value % 10 ^ places))

theorem fixedMagnitude_zero (magnitude : Nat) :
    fixedMagnitude 0 magnitude = Nat.toDigits 10 magnitude := by
  simp [fixedMagnitude]

theorem fixedMagnitude_of_ne_zero {places : Nat} (some : places ≠ 0)
    (magnitude : Nat) :
    fixedMagnitude places magnitude =
      Nat.toDigits 10 (magnitude / 10 ^ places) ++
        '.' :: fractionDigits places magnitude := by
  simp [fixedMagnitude, some]

namespace Numeral

private theorem span_digits {digits after : List Char}
    (numeric : ∀ digit ∈ digits, digit.isDigit = true)
    (stop : ∀ character ∈ after.head?, character.isDigit = false) :
    (digits ++ after).takeWhile Char.isDigit = digits ∧
      (digits ++ after).dropWhile Char.isDigit = after := by
  have ends : after.takeWhile Char.isDigit = [] ∧
      after.dropWhile Char.isDigit = after := by
    cases after with
    | nil => exact ⟨rfl, rfl⟩
    | cons head tail => simp [stop head (by simp)]
  rw [List.takeWhile_append_of_pos numeric, List.dropWhile_append_of_pos numeric,
    ends.1, ends.2]
  simp

theorem readMagnitude?_digits (negative : Bool) {digits : List Char}
    (numeric : ∀ digit ∈ digits, digit.isDigit = true) (nonempty : digits ≠ []) :
    readMagnitude? negative digits =
      some { negative, coefficient := appendDigits 0 digits, places := 0 } := by
  have split : (digits ++ []).takeWhile Char.isDigit = digits ∧
      (digits ++ []).dropWhile Char.isDigit = [] :=
    span_digits numeric (by simp)
  simp only [List.append_nil] at split
  simp [readMagnitude?, split, nonempty]

/-- Digits around a point read as the number of all of them, with a place for
each behind the point. -/
theorem readMagnitude?_point (negative : Bool) {whole fraction : List Char}
    (wholeNumeric : ∀ digit ∈ whole, digit.isDigit = true)
    (fractionNumeric : ∀ digit ∈ fraction, digit.isDigit = true)
    (nonempty : whole ≠ []) :
    readMagnitude? negative (whole ++ '.' :: fraction) =
      some {
        negative
        coefficient := appendDigits 0 (whole ++ fraction)
        places := fraction.length } := by
  have split : (whole ++ '.' :: fraction).takeWhile Char.isDigit = whole ∧
      (whole ++ '.' :: fraction).dropWhile Char.isDigit = '.' :: fraction :=
    span_digits wholeNumeric (by simp)
  have fractionAll : fraction.all Char.isDigit = true :=
    List.all_eq_true.mpr fractionNumeric
  simp [readMagnitude?, split, fractionAll, nonempty]

/-- A text reads as the number `± coefficient / 10 ^ places`, perhaps in a
larger unit. -/
def Reads (text : List Char) (negative : Bool) (coefficient places : Nat) : Prop :=
  ∃ short zeros fewer,
    read? text = some { negative, coefficient := short, places := fewer } ∧
      coefficient = short * 10 ^ zeros ∧ places = fewer + zeros

/-- A sign in front of a magnitude. -/
def signed (negative : Bool) (magnitude : List Char) : List Char :=
  if negative then '-' :: magnitude else magnitude

theorem read?_signed (negative : Bool) {magnitude : List Char}
    (numeric : ∀ first ∈ magnitude.head?, first.isDigit = true) :
    read? (signed negative magnitude) = readMagnitude? negative magnitude := by
  cases negative with
  | true => rfl
  | false =>
      have unsigned : splitSign magnitude = (false, magnitude) := by
        unfold splitSign
        split
        · simp at numeric
        · simp at numeric
        · rfl
      simp [signed, read?, unsigned]

theorem fixedText_eq_signed (places : Nat) (scaled : Int) :
    fixedText places scaled =
      signed (decide (scaled < 0)) (fixedMagnitude places scaled.natAbs) := by
  by_cases negative : scaled < 0 <;> simp [fixedText, signed, negative]

theorem head?_toDigits_append (value : Nat) (after : List Char) :
    ∀ first ∈ (Nat.toDigits 10 value ++ after).head?, first.isDigit = true := by
  intro first member
  cases digits : Nat.toDigits 10 value with
  | nil => exact absurd digits Nat.toDigits_ne_nil
  | cons head tail =>
      rw [digits, List.cons_append, List.head?_cons, Option.mem_some_iff] at member
      subst member
      have inside : head ∈ Nat.toDigits 10 value := by simp [digits]
      exact isDigit_of_mem_toDigits inside

private theorem appendDigits_whole_fraction {places : Nat} (some : places ≠ 0)
    (magnitude : Nat) :
    appendDigits 0 (Nat.toDigits 10 (magnitude / 10 ^ places) ++
      fractionDigits places magnitude) = magnitude := by
  rw [appendDigits_append, appendDigits_toDigits, appendDigits_fractionDigits some,
    Nat.mul_comm]
  exact Nat.div_add_mod magnitude (10 ^ places)

/-- A written decimal reads as what was written. -/
theorem reads_fixedText (places : Nat) (scaled : Int) :
    Reads (fixedText places scaled) (decide (scaled < 0)) scaled.natAbs places := by
  refine ⟨scaled.natAbs, 0, places, ?_, by simp, by simp⟩
  rw [fixedText_eq_signed]
  by_cases none : places = 0
  · subst none
    rw [fixedMagnitude_zero]
    have first := head?_toDigits_append scaled.natAbs []
    rw [List.append_nil] at first
    rw [read?_signed _ first,
      readMagnitude?_digits _ (fun _ member => isDigit_of_mem_toDigits member)
        Nat.toDigits_ne_nil,
      appendDigits_toDigits]
  · rw [fixedMagnitude_of_ne_zero none, read?_signed _ (head?_toDigits_append _ _),
      readMagnitude?_point _ (fun _ member => isDigit_of_mem_toDigits member)
        (fun _ member => isDigit_of_mem_fractionDigits member) Nat.toDigits_ne_nil,
      appendDigits_whole_fraction none, length_fractionDigits none]

/-- A whole number with a point behind it reads as that number. -/
theorem reads_fixedText_zero_point (scaled : Int) :
    Reads (fixedText 0 scaled ++ ['.']) (decide (scaled < 0)) scaled.natAbs 0 := by
  refine ⟨scaled.natAbs, 0, 0, ?_, by simp, by simp⟩
  have regroup : fixedText 0 scaled ++ ['.'] =
      signed (decide (scaled < 0)) (Nat.toDigits 10 scaled.natAbs ++ ['.']) := by
    rw [fixedText_eq_signed, fixedMagnitude_zero]
    by_cases negative : scaled < 0 <;> simp [signed, negative]
  rw [regroup, read?_signed _ (head?_toDigits_append _ _),
    readMagnitude?_point _ (fun _ member => isDigit_of_mem_toDigits member)
      (by simp) Nat.toDigits_ne_nil,
    List.append_nil, appendDigits_toDigits]
  rfl

/-- A decimal without the zeros at its end has the digits before them. -/
theorem exists_dropEndWhile_zero {places : Nat} (some : places ≠ 0) (scaled : Int) :
    ∃ kept zeros, fractionDigits places scaled.natAbs = kept ++ List.replicate zeros '0' ∧
      Text.dropEndWhile (· == '0') (fixedText places scaled) =
        signed (decide (scaled < 0))
          (Nat.toDigits 10 (scaled.natAbs / 10 ^ places) ++ '.' :: kept) := by
  let whole := Nat.toDigits 10 (scaled.natAbs / 10 ^ places)
  let fraction := fractionDigits places scaled.natAbs
  obtain ⟨dropped, fractionEq, droppedZero⟩ :=
    Text.exists_dropEndWhile_append (· == '0') fraction
  have zeros : dropped = List.replicate dropped.length '0' :=
    List.eq_replicate_of_mem fun digit member => by
      simpa using droppedZero digit member
  refine ⟨Text.dropEndWhile (· == '0') fraction, dropped.length, ?_, ?_⟩
  · rw [← zeros]
    exact fractionEq
  · rw [fixedText_eq_signed, fixedMagnitude_of_ne_zero some]
    by_cases negative : scaled < 0
    · simp only [signed, negative, decide_true, if_true]
      exact Text.dropEndWhile_append_cons (by decide) ('-' :: whole) fraction
    · simp only [signed, negative, decide_false, Bool.false_eq_true, if_false]
      exact Text.dropEndWhile_append_cons (by decide) whole fraction

theorem reads_dropEndWhile_zero {places : Nat} (some : places ≠ 0) (scaled : Int) :
    Reads (Text.dropEndWhile (· == '0') (fixedText places scaled))
      (decide (scaled < 0)) scaled.natAbs places := by
  let whole := Nat.toDigits 10 (scaled.natAbs / 10 ^ places)
  obtain ⟨kept, zeros, fraction, text⟩ := exists_dropEndWhile_zero some scaled
  have keptNumeric : ∀ digit ∈ kept, digit.isDigit = true := fun digit member =>
    isDigit_of_mem_fractionDigits (fraction ▸ List.mem_append_left _ member)
  refine ⟨appendDigits 0 (whole ++ kept), zeros, kept.length, ?_, ?_, ?_⟩
  · rw [text, read?_signed _ (head?_toDigits_append _ _),
      readMagnitude?_point _ (fun _ member => isDigit_of_mem_toDigits member)
        keptNumeric Nat.toDigits_ne_nil]
  · calc
      scaled.natAbs = appendDigits 0 (whole ++ fractionDigits places scaled.natAbs) :=
        (appendDigits_whole_fraction some scaled.natAbs).symm
      _ = appendDigits 0 ((whole ++ kept) ++ List.replicate zeros '0') := by
        rw [List.append_assoc, ← fraction]
      _ = appendDigits 0 (whole ++ kept) * 10 ^ zeros := by
        rw [appendDigits_append, appendDigits_replicate_zero]
  · have length := congrArg List.length fraction
    rw [length_fractionDigits some, List.length_append, List.length_replicate] at length
    exact length

/-- A text without a digit is not a number. -/
theorem read?_eq_none {text : List Char}
    (noDigit : ∀ character ∈ text, character.isDigit = false) : read? text = none := by
  have magnitude (negative : Bool) {rest : List Char} (inside : rest ⊆ text) :
      readMagnitude? negative rest = none := by
    have stops : rest.takeWhile Char.isDigit = [] ∧ rest.dropWhile Char.isDigit = rest := by
      cases rest with
      | nil => exact ⟨rfl, rfl⟩
      | cons first others =>
          have notDigit := noDigit first (inside List.mem_cons_self)
          exact ⟨List.takeWhile_cons_of_neg (by simp [notDigit]),
            List.dropWhile_cons_of_neg (by simp [notDigit])⟩
    unfold readMagnitude?
    dsimp only
    rw [stops.1, stops.2]
    split
    · rfl
    · rename_i fraction
      cases fraction with
      | nil => rfl
      | cons digit others =>
          have notDigit := noDigit digit (inside (by simp))
          simp [notDigit]
    · rfl
  unfold read? splitSign
  split
  rename_i split
  split at split <;> obtain ⟨-, rfl⟩ := Prod.mk.inj split
  · exact magnitude _ (List.subset_cons_self _ _)
  · exact magnitude _ (List.subset_cons_self _ _)
  · exact magnitude _ (List.Subset.refl _)

end Numeral

theorem natural?_eq_some {text : List Char} {value : Nat} (read : natural? text = some value) :
    text ≠ [] ∧ ∀ digit ∈ text, digit.isDigit = true := by
  unfold natural? at read
  split at read
  · rename_i digits
    exact ⟨digits.1, List.all_eq_true.mp digits.2⟩
  · cases read

/-- A text that reads as a whole number from zero on is a numeral without a point. -/
theorem isSome_read?_of_boundedNatural? {bound : Nat} {text : List Char} {value : Nat}
    (read : boundedNatural? bound text = some value) :
    (Numeral.read? text).isSome = true ∧ '.' ∉ text := by
  obtain ⟨digits, isSplit, isNatural⟩ : ∃ digits,
      (text = digits ∨ text = '+' :: digits) ∧ natural? digits = some value := by
    obtain ⟨found, _⟩ := Option.filter_eq_some_iff.mp read
    split at found
    · exact ⟨_, .inr rfl, found⟩
    · exact ⟨_, .inl rfl, found⟩
  obtain ⟨nonempty, numeric⟩ := natural?_eq_some isNatural
  have noPoint : '.' ∉ digits := fun inside => absurd (numeric '.' inside) (by decide)
  have magnitude := Numeral.readMagnitude?_digits false numeric nonempty
  rcases isSplit with rfl | rfl
  · have unsigned : Numeral.read? text = Numeral.readMagnitude? false text :=
      Numeral.read?_signed false fun first isFirst => numeric first (List.mem_of_mem_head? isFirst)
    rw [unsigned, magnitude]
    exact ⟨rfl, noPoint⟩
  · have plus : Numeral.read? ('+' :: digits) = Numeral.readMagnitude? false digits := rfl
    rw [plus, magnitude]
    exact ⟨rfl, by simpa using noPoint⟩

end Milling.Decimal

import Mathlib
import Milling.Proofs.Posting.Number
import Milling.Proofs.Program.Command
import Milling.Proofs.Program.Line
import Milling.Proofs.Scalar.Rounding

/-!
# Commands written again

A command that was read has codes and parameters that can be written, and the
line that is written reads back with the same codes and with numbers that
differ from its own by their rounding alone.
-/

namespace Milling

namespace Decimal

/-- The digits of a number read as the number. -/
theorem boundedNatural?_toDigits {bound value : Nat} (bounded : value ≤ bound) :
    boundedNatural? bound (Nat.toDigits 10 value) = some value := by
  have numeric : ∀ digit ∈ Nat.toDigits 10 value, digit.isDigit = true :=
    fun _ member => isDigit_of_mem_toDigits member
  have natural : natural? (Nat.toDigits 10 value) = some value := by
    unfold natural?
    rw [if_pos ⟨Nat.toDigits_ne_nil, List.all_eq_true.mpr numeric⟩, appendDigits_toDigits]
  unfold boundedNatural?
  split
  · rename_i rest digits
    exact absurd (numeric '+' (by simp [digits])) (by decide)
  · simp [natural, bounded]

/-- Digits keep what stands before them from being trimmed. -/
theorem dropEndWhile_point_append {digits : List Char} (nonempty : digits ≠ [])
    (numeric : ∀ digit ∈ digits, digit.isDigit = true) (front : List Char) :
    Text.dropEndWhile (· == '.') (front ++ digits) = front ++ digits := by
  apply Text.dropEndWhile_eq_self
  intro last isLast
  rw [List.getLast?_append_of_ne_nil front nonempty] at isLast
  rw [beq_eq_false_iff_ne]
  rintro rfl
  exact absurd (numeric '.' (List.mem_of_getLast? isLast)) (by decide)

/-- A trimmed decimal keeps its point only with digits behind it. -/
theorem trimDecimal_fixedText {places : Nat} (some : places ≠ 0) (scaled : Int) :
    ∃ kept, (∀ digit ∈ kept, digit.isDigit = true) ∧
      Text.dropEndWhile (· == '0') (fixedText places scaled) =
        Numeral.signed (decide (scaled < 0))
          (Nat.toDigits 10 (scaled.natAbs / 10 ^ places) ++ '.' :: kept) ∧
      Program.trimDecimal (fixedText places scaled) =
        Numeral.signed (decide (scaled < 0))
          (Nat.toDigits 10 (scaled.natAbs / 10 ^ places) ++
            if kept = [] then [] else '.' :: kept) := by
  obtain ⟨kept, zeros, fraction, text⟩ := Numeral.exists_dropEndWhile_zero some scaled
  have wholeNumeric : ∀ digit ∈ Nat.toDigits 10 (scaled.natAbs / 10 ^ places),
      digit.isDigit = true := fun _ member => isDigit_of_mem_toDigits member
  have keptNumeric : ∀ digit ∈ kept, digit.isDigit = true := fun digit member =>
    isDigit_of_mem_fractionDigits (fraction ▸ List.mem_append_left _ member)
  have nonempty : Nat.toDigits 10 (scaled.natAbs / 10 ^ places) ≠ [] := Nat.toDigits_ne_nil
  refine ⟨kept, keptNumeric, text, ?_⟩
  rw [Program.trimDecimal, text]
  generalize decide (scaled < 0) = negative
  generalize Nat.toDigits 10 (scaled.natAbs / 10 ^ places) = whole at wholeNumeric nonempty
  have regroup (front back : List Char) :
      Numeral.signed negative (front ++ back) = Numeral.signed negative front ++ back := by
    cases negative <;> rfl
  cases kept with
  | nil =>
      -- the point goes too, and the digits before it stay
      have stays := dropEndWhile_point_append nonempty wholeNumeric (Numeral.signed negative [])
      rw [← regroup, List.nil_append] at stays
      rw [regroup, Text.dropEndWhile_eq_rdropWhile, List.rdropWhile_concat_pos _ _ _ rfl,
        if_pos rfl, List.append_nil]
      exact stays
  | cons digit rest =>
      have stays := dropEndWhile_point_append (List.cons_ne_nil digit rest) keptNumeric
        (Numeral.signed negative (whole ++ ['.']))
      rw [if_neg (List.cons_ne_nil digit rest)]
      rwa [← regroup, List.append_assoc, List.singleton_append] at stays

theorem reads_trimDecimal {places : Nat} (some : places ≠ 0) (scaled : Int) :
    Numeral.Reads (Program.trimDecimal (fixedText places scaled)) (decide (scaled < 0))
      scaled.natAbs places := by
  obtain ⟨short, zeros, fewer, read, units⟩ := Numeral.reads_dropEndWhile_zero some scaled
  refine ⟨short, zeros, fewer, ?_, units⟩
  rw [← read]
  obtain ⟨kept, keptNumeric, pointed, trimmed⟩ := trimDecimal_fixedText some scaled
  have wholeNumeric : ∀ digit ∈ Nat.toDigits 10 (scaled.natAbs / 10 ^ places),
      digit.isDigit = true := fun _ member => isDigit_of_mem_toDigits member
  rw [pointed, trimmed, Numeral.read?_signed _ (Numeral.head?_toDigits_append _ _),
    Numeral.read?_signed _ (Numeral.head?_toDigits_append _ _),
    Numeral.readMagnitude?_point _ wholeNumeric keptNumeric Nat.toDigits_ne_nil]
  split
  · rename_i none
    rw [none, List.append_nil,
      Numeral.readMagnitude?_digits _ wholeNumeric Nat.toDigits_ne_nil]
    rfl
  · rw [Numeral.readMagnitude?_point _ wholeNumeric keptNumeric Nat.toDigits_ne_nil]

end Decimal

namespace Program

namespace Code

/-- The number of a code as it is written. -/
def digits (code : Code) : List Char :=
  match code.minor with
  | some minor => Nat.toDigits 10 code.major ++ '.' :: Nat.toDigits 10 minor
  | none => Nat.toDigits 10 code.major

theorem toList_text (code : Code) : code.text.toList = code.letter :: code.digits := by
  unfold text digits
  cases code.minor with
  | none => simp [toString, Nat.repr]
  | some minor => simp [toString, Nat.repr]

theorem isNumberChar_of_mem_digits {code : Code} {character : Char}
    (member : character ∈ code.digits) : isNumberChar character = true := by
  have numeric (value : Nat) : ∀ digit ∈ Nat.toDigits 10 value, isNumberChar digit = true :=
    fun _ isDigit => Decimal.isNumberChar_of_isDigit (Decimal.isDigit_of_mem_toDigits isDigit)
  unfold digits at member
  split at member
  · rename_i minor _
    rcases List.mem_append.mp member with inMajor | inRest
    · exact numeric code.major character inMajor
    · rcases List.mem_cons.mp inRest with rfl | inMinor
      · decide
      · exact numeric minor character inMinor
  · exact numeric code.major character member

theorem digits_ne_nil (code : Code) : code.digits ≠ [] := by
  unfold digits
  split
  · simp
  · exact Nat.toDigits_ne_nil

theorem isWord_text {code : Code} (isRead : code.IsRead) : IsWord code.text.toList := by
  rw [toList_text]
  refine .intro code.letter code.digits ?_ code.digits_ne_nil
    fun _ member => isNumberChar_of_mem_digits member
  rcases isRead.letter with isG | isM
  · rw [isG]
    rfl
  · rw [isM]
    rfl

theorem isSome_read?_digits (code : Code) :
    (Decimal.Numeral.read? code.digits).isSome = true := by
  have numeric (value : Nat) : ∀ digit ∈ Nat.toDigits 10 value, digit.isDigit = true :=
    fun _ member => Decimal.isDigit_of_mem_toDigits member
  have unsigned := @Decimal.Numeral.read?_signed false code.digits
  simp only [Decimal.Numeral.signed, Bool.false_eq_true, if_false] at unsigned
  unfold digits at unsigned ⊢
  split at unsigned
  · rename_i minor _
    rw [unsigned (Decimal.Numeral.head?_toDigits_append _ _),
      Decimal.Numeral.readMagnitude?_point _ (numeric code.major) (numeric minor)
        Nat.toDigits_ne_nil]
    rfl
  · have start := Decimal.Numeral.head?_toDigits_append code.major []
    rw [List.append_nil] at start
    rw [unsigned start,
      Decimal.Numeral.readMagnitude?_digits _ (numeric code.major) Nat.toDigits_ne_nil]
    rfl

/-- A written code reads as the code. -/
theorem read?_digits {code : Code} (isRead : code.IsRead) :
    read? code.letter code.digits = some code := by
  have upper : code.letter.toUpper = code.letter := by
    rcases isRead.letter with isG | isM
    · rw [isG]
      rfl
    · rw [isM]
      rfl
  have known : ¬(code.letter ≠ 'G' ∧ code.letter ≠ 'M') := by
    rcases isRead.letter with isG | isM
    · exact fun other => other.1 isG
    · exact fun other => other.2 isM
  have whole : ∀ digit ∈ Nat.toDigits 10 code.major, (digit != '.') = true := by
    intro digit member
    rw [bne_iff_ne]
    rintro rfl
    exact absurd (Decimal.isDigit_of_mem_toDigits member) (by decide)
  have major := Decimal.boundedNatural?_toDigits isRead.major
  unfold read? digits
  simp only [upper, if_neg known]
  cases isMinor : code.minor with
  | none =>
      have all : (Nat.toDigits 10 code.major).takeWhile (· != '.') =
          Nat.toDigits 10 code.major := List.takeWhile_eq_self_iff.mpr whole
      have rest : (Nat.toDigits 10 code.major).dropWhile (· != '.') = [] :=
        List.dropWhile_eq_nil_iff.mpr whole
      simp [all, rest, major, ← isMinor]
  | some minor =>
      have bounded := Decimal.boundedNatural?_toDigits (isRead.minor minor isMinor)
      rw [List.takeWhile_append_of_pos whole, List.dropWhile_append_of_pos whole]
      cases code
      cases isMinor
      simp [major, bounded]

end Code

section Numbers

variable {α : Type} [Scalar α]

/-- The number that a written one reads back as. -/
def reread (value : α) : α :=
  match numberValue (numberText value).toList with
  | .number read => read
  | _ => value

variable {value : α}

theorem toList_numberText (finite : Scalar.isFinite value = true) :
    (numberText value).toList =
      trimDecimal (Decimal.fixedText writtenPlaces (Scalar.scaled writtenPlaces value)) := by
  simp [numberText, finite]

theorem isSome_read?_numberText (finite : Scalar.isFinite value = true) :
    (Decimal.Numeral.read? (numberText value).toList).isSome = true := by
  have some : writtenPlaces ≠ 0 := by decide
  obtain ⟨_, _, _, read, _⟩ :=
    Decimal.reads_trimDecimal some (Scalar.scaled writtenPlaces value)
  rw [toList_numberText finite, read]
  rfl

theorem numberValue_toList_numberText (finite : Scalar.isFinite value = true) :
    numberValue (numberText value).toList = .number (reread value) := by
  obtain ⟨numeral, isNumeral⟩ :=
    Option.isSome_iff_exists.mp (isSome_read?_numberText finite)
  simp [reread, numberValue, isNumeral]

theorem isWord_numberText {letter : Char} (capital : letter.isUpper = true)
    (finite : Scalar.isFinite value = true) :
    IsWord (letter :: (numberText value).toList) := by
  refine .intro letter _ capital ?_ ?_
  · intro empty
    have isNumber := isSome_read?_numberText finite
    rw [empty] at isNumber
    cases isNumber
  · intro character member
    rw [toList_numberText finite] at member
    exact Decimal.isNumberChar_of_mem_fixedText
      (Text.mem_of_mem_dropEndWhile (Text.mem_of_mem_dropEndWhile member))

/-- Equal numbers are written alike, and so read back alike. -/
theorem reread_congr [RoundingScalar α] {other : α} (equal : (value == other) = true)
    (finite : Scalar.isFinite value = true) : reread value = reread other := by
  have otherFinite : Scalar.isFinite other = true :=
    (RoundingScalar.isFinite_congr value other equal).symm.trans finite
  have text : numberText value = numberText other := by
    simp only [numberText, finite, otherFinite, if_true,
      RoundingScalar.scaled_congr value other equal]
  have first := numberValue_toList_numberText finite
  have second := numberValue_toList_numberText otherFinite
  rw [text, second] at first
  exact (WordValue.number.inj first).symm

end Numbers

namespace Command

variable {α : Type} [Scalar α]

def IsFinite (command : Command α) : Prop :=
  ∀ entry ∈ command.parameters.entries, Scalar.isFinite entry.2 = true

/-- The numbers that the written command reads back with. -/
def numbers (command : Command α) (letter : Char) : Option α :=
  (command.get? letter).map reread

def words (command : Command α) : List (List Char) :=
  (command.codes.map fun code => code.text.toList) ++
    writtenOrder.filterMap fun letter =>
      (command.get? letter).map fun value => letter :: (numberText value).toList

variable {command : Command α}

theorem IsFinite.get? (isFinite : command.IsFinite) {letter : Char} {value : α}
    (given : command.get? letter = some value) : Scalar.isFinite value = true := by
  obtain ⟨before, after, entries, _⟩ := List.lookup_eq_some_iff.mp given
  exact isFinite (letter, value) (by simp [entries])

omit [Scalar α] in
theorem get?_eq_none (isRead : command.IsRead) {letter : Char}
    (unknown : letter ∉ writtenOrder) : command.get? letter = none := by
  refine List.lookup_eq_none_iff.mpr ?_
  intro entry member
  rw [bne_iff_ne]
  rintro rfl
  exact unknown (isRead.parameters.known entry member)

theorem toList_text (isRead : command.IsRead) : command.text.toList = joined command.words := by
  have noOthers : (command.parameters.entries.filterMap fun entry =>
      if entry.1 ∈ writtenOrder then none
      else some (entry.1.toString ++ numberText entry.2)) = [] := by
    refine List.filterMap_eq_nil_iff.mpr ?_
    intro entry member
    exact if_pos (isRead.parameters.known entry member)
  have known : (writtenOrder.filterMap fun letter =>
      (command.get? letter).map fun value => letter.toString ++ numberText value).map
        String.toList =
      writtenOrder.filterMap fun letter =>
        (command.get? letter).map fun value => letter :: (numberText value).toList := by
    rw [List.map_filterMap]
    congr 1
    funext letter
    rw [Option.map_map]
    congr 1
    funext value
    simp
  unfold text
  dsimp only
  rw [noOthers, List.append_nil, String.toList_intercalate, List.map_append, known,
    List.map_map]
  rfl

theorem isUpper_of_mem_writtenOrder {letter : Char} (member : letter ∈ writtenOrder) :
    letter.isUpper = true := by
  have all : writtenOrder.all Char.isUpper = true := by decide
  exact List.all_eq_true.mp all letter member

theorem isWord_of_mem_words (isRead : command.IsRead) (isFinite : command.IsFinite) :
    ∀ word ∈ command.words, IsWord word := by
  intro word member
  rcases List.mem_append.mp member with inCodes | inNumbers
  · obtain ⟨code, isCode, rfl⟩ := List.mem_map.mp inCodes
    exact Code.isWord_text (isRead.codes code isCode)
  · obtain ⟨letter, isLetter, written⟩ := List.mem_filterMap.mp inNumbers
    obtain ⟨value, given, rfl⟩ := Option.map_eq_some_iff.mp written
    exact isWord_numberText (isUpper_of_mem_writtenOrder isLetter) (isFinite.get? given)

/-- The written command says what the command says. -/
theorem gathers_words (isRead : command.IsRead) (isFinite : command.IsFinite) :
    Gathers command.words command.codes
      (writtenOrder.filterMap fun letter => (command.numbers letter).map (letter, ·)) := by
  have codes : ∀ codes : List Code, (∀ code ∈ codes, code.IsRead) →
      Gathers (α := α) (codes.map fun code => code.text.toList) codes [] := by
    intro codes areRead
    induction codes with
    | nil => exact .nil
    | cons code codes ih =>
        have here := areRead code List.mem_cons_self
        rw [List.map_cons, Code.toList_text]
        exact .numbered here.letter code.isSome_read?_digits (Code.read?_digits here)
          (ih fun other member => areRead other (List.mem_cons_of_mem code member))
  have numbers : ∀ letters : List Char, (∀ letter ∈ letters, letter ∈ parameterLetters) →
      Gathers (letters.filterMap fun letter =>
          (command.get? letter).map fun value => letter :: (numberText value).toList) []
        (letters.filterMap fun letter => (command.numbers letter).map (letter, ·)) := by
    intro letters known
    induction letters with
    | nil => exact .nil
    | cons letter letters ih =>
        have rest := ih fun other member => known other (List.mem_cons_of_mem letter member)
        cases given : command.get? letter with
        | none => simpa [List.filterMap_cons, given, Command.numbers] using rest
        | some value =>
            have word := numberValue_toList_numberText (isFinite.get? given)
            simpa [List.filterMap_cons, given, Command.numbers] using
              Gathers.parameter (known letter List.mem_cons_self) word rest
  have both := (codes command.codes isRead.codes).append
    (numbers writtenOrder fun _ member => member)
  rw [List.append_nil, List.nil_append] at both
  exact both

end Command

theorem lookup_reverse_filterMap {α : Type} {letters : List Char} (distinct : letters.Nodup)
    (numbers : Char → Option α) (wanted : Char) :
    ((letters.filterMap fun letter => (numbers letter).map (letter, ·)).reverse.lookup wanted) =
      if wanted ∈ letters then numbers wanted else none := by
  induction letters with
  | nil => rfl
  | cons letter letters ih =>
      obtain ⟨notLater, restDistinct⟩ := List.nodup_cons.mp distinct
      have rest := ih restDistinct
      cases given : numbers letter with
      | none =>
          rw [List.filterMap_cons_none (by simp [given]), rest]
          by_cases same : wanted = letter
          · subst same
            simp [notLater, given]
          · simp [same]
      | some value =>
          rw [List.filterMap_cons, given, Option.map_some, List.reverse_cons,
            List.lookup_append, rest, Entries.lookup_cons]
          by_cases same : wanted = letter
          · subst same
            simp [notLater, given]
          · simp [same]

/-- Each letter of a written command reads back with its number. -/
theorem Command.get?_insertAll {α : Type} [Scalar α] {command : Command α}
    (isRead : command.IsRead) (wanted : Char) :
    (Parameters.insertAll {} (writtenOrder.filterMap fun letter =>
      (command.numbers letter).map (letter, ·))).get? wanted = command.numbers wanted := by
  rw [Parameters.get?_insertAll, lookup_reverse_filterMap (by decide), Parameters.get?_empty,
    Option.or_none]
  split
  · rfl
  · rename_i unknown
    rw [Command.numbers, Command.get?_eq_none isRead unknown]
    rfl

end Program

end Milling

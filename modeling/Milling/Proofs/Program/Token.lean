import Milling.Program.Token
import Milling.Proofs.Decimal.Numeral
import Milling.Proofs.Text.Blank

/-!
# Tokens of written words

A line of words with blanks between them has a token for each of its words, in
order, whatever blanks stand at its end.
-/

namespace Milling.Program

/-- A capital letter with characters of a number behind it. -/
inductive IsWord : List Char → Prop where
  | intro (letter : Char) (number : List Char)
      (capital : letter.isUpper = true) (nonempty : number ≠ [])
      (numeric : ∀ character ∈ number, isNumberChar character = true) :
      IsWord (letter :: number)

theorem isWord_iff {word : List Char} :
    IsWord word ↔ (word.head?.any Char.isUpper && !word.tail.isEmpty &&
      word.tail.all isNumberChar) = true := by
  constructor
  · rintro ⟨letter, number, capital, nonempty, numeric⟩
    simp only [List.head?_cons, List.tail_cons, Option.any_some, Bool.and_eq_true,
      Bool.not_eq_true', List.isEmpty_eq_false_iff]
    exact ⟨⟨capital, nonempty⟩, List.all_eq_true.mpr numeric⟩
  · intro checked
    cases word with
    | nil => cases checked
    | cons letter number =>
        simp only [List.head?_cons, List.tail_cons, Option.any_some, Bool.and_eq_true,
          Bool.not_eq_true', List.isEmpty_eq_false_iff] at checked
        exact .intro letter number checked.1.1 checked.1.2 (List.all_eq_true.mp checked.2)

instance (word : List Char) : Decidable (IsWord word) := decidable_of_iff _ isWord_iff.symm

/-- A letter, in either case, with characters of a number behind it. -/
inductive IsLettered : List Char → Prop where
  | intro (letter : Char) (number : List Char)
      (alpha : letter.isAlpha = true) (nonempty : number ≠ [])
      (numeric : ∀ character ∈ number, isNumberChar character = true) :
      IsLettered (letter :: number)

theorem IsWord.isLettered {word : List Char} (isWord : IsWord word) : IsLettered word := by
  cases isWord with
  | intro letter number capital nonempty numeric =>
      exact .intro letter number (by simp [Char.isAlpha, capital]) nonempty numeric

theorem isLettered_iff {word : List Char} :
    IsLettered word ↔ (word.head?.any Char.isAlpha && !word.tail.isEmpty &&
      word.tail.all isNumberChar) = true := by
  constructor
  · rintro ⟨letter, number, alpha, nonempty, numeric⟩
    simp only [List.head?_cons, List.tail_cons, Option.any_some, Bool.and_eq_true,
      Bool.not_eq_true', List.isEmpty_eq_false_iff]
    exact ⟨⟨alpha, nonempty⟩, List.all_eq_true.mpr numeric⟩
  · intro checked
    cases word with
    | nil => cases checked
    | cons letter number =>
        simp only [List.head?_cons, List.tail_cons, Option.any_some, Bool.and_eq_true,
          Bool.not_eq_true', List.isEmpty_eq_false_iff] at checked
        exact .intro letter number checked.1.1 checked.1.2 (List.all_eq_true.mp checked.2)

instance (word : List Char) : Decidable (IsLettered word) :=
  decidable_of_iff _ isLettered_iff.symm

/-- A word with its letter in upper case. -/
def capitalized : List Char → List Char
  | [] => []
  | letter :: number => letter.toUpper :: number

/-- A capital letter with letters and characters of numbers behind it: a word, or
a letter with the name of something that is not a number. -/
inductive IsPlainWord : List Char → Prop where
  | intro (letter : Char) (text : List Char) (capital : letter.isUpper = true)
      (plain : ∀ character ∈ text, (isNumberChar character || character.isAlpha) = true) :
      IsPlainWord (letter :: text)

theorem IsWord.isPlain {word : List Char} (isWord : IsWord word) : IsPlainWord word := by
  cases isWord with
  | intro letter number capital _ numeric =>
      refine .intro letter number capital ?_
      intro character member
      rw [numeric character member, Bool.true_or]

/-- Words with one blank between each. -/
abbrev joined (words : List (List Char)) : List Char := [' '].intercalate words

/-- Words with a blank before each. -/
def spaced (words : List (List Char)) : List Char :=
  words.flatMap fun word => ' ' :: word

@[simp] theorem spaced_nil : spaced [] = [] := rfl

@[simp] theorem spaced_cons (word : List Char) (words : List (List Char)) :
    spaced (word :: words) = ' ' :: word ++ spaced words := rfl

theorem joined_cons (word : List Char) (words : List (List Char)) :
    joined (word :: words) = word ++ spaced words := by
  induction words generalizing word with
  | nil => simp [joined, List.intercalate]
  | cons next words ih =>
      have rest := ih next
      simp only [joined, List.intercalate] at rest ⊢
      simp [rest]

theorem joined_append_singleton {words : List (List Char)} (nonempty : words ≠ [])
    (last : List Char) : joined (words ++ [last]) = joined words ++ ' ' :: last := by
  cases words with
  | nil => exact absurd rfl nonempty
  | cons word words =>
      rw [List.cons_append, joined_cons, joined_cons]
      simp [spaced, List.flatMap_append]

section Characters

theorem isUpper_iff {character : Char} :
    character.isUpper = true ↔ 65 ≤ character.toNat ∧ character.toNat ≤ 90 := by
  simp [Char.isUpper, UInt32.le_iff_toNat_le]

theorem numberChar_range {character : Char} (numeric : isNumberChar character = true) :
    43 ≤ character.toNat ∧ character.toNat ≤ 57 := by
  simp only [isNumberChar, Bool.or_eq_true, beq_iff_eq, Char.isDigit_iff_toNat] at numeric
  rcases numeric with ((digit | rfl) | rfl) | rfl
  · simp only [Char.reduceToNat] at digit
    omega
  · decide
  · decide
  · decide

theorem isAlpha_range {character : Char} (alpha : character.isAlpha = true) :
    65 ≤ character.toNat ∧ character.toNat ≤ 122 := by
  rcases Bool.or_eq_true_iff.mp alpha with upper | lower
  · have range := isUpper_iff.mp upper
    omega
  · have range : 97 ≤ character.toNat ∧ character.toNat ≤ 122 := by
      simpa [Char.isLower, UInt32.le_iff_toNat_le] using lower
    omega

theorem isBlank_of_range {character : Char}
    (range : 33 ≤ character.toNat ∧ character.toNat ≤ 132) :
    Text.isBlank character = false := by
  simp only [Text.isBlank, Bool.or_eq_false_iff, Bool.and_eq_false_iff, decide_eq_false_iff_not,
    beq_eq_false_iff_ne]
  omega

theorem toUpper_of_lt {character : Char} (below : character.toNat < 97) :
    character.toUpper = character := by
  simp only [Char.toUpper]
  split
  · rename_i lower
    simp only [UInt32.le_iff_toNat_le] at lower
    exact absurd (Nat.lt_of_le_of_lt lower.1 below) (Nat.lt_irrefl _)
  · rfl

theorem toUpper_of_isUpper {character : Char} (capital : character.isUpper = true) :
    character.toUpper = character :=
  toUpper_of_lt (Nat.lt_of_le_of_lt (isUpper_iff.mp capital).2 (by decide))

end Characters

namespace IsPlainWord

theorem ne_nil {word : List Char} (plain : IsPlainWord word) : word ≠ [] := by
  cases plain
  simp

/-- The characters of plain words. -/
theorem char_range {word : List Char} (plain : IsPlainWord word) :
    ∀ character ∈ word, 43 ≤ character.toNat ∧ character.toNat ≤ 122 ∧
      character ≠ ';' ∧ character ≠ '[' := by
  intro character member
  cases plain with
  | intro letter text capital plain =>
      have numberOrLetter : (isNumberChar character || character.isAlpha) = true := by
        rcases List.mem_cons.mp member with rfl | inside
        · simp [Char.isAlpha, capital]
        · exact plain character inside
      refine ⟨?_, ?_, ?_, ?_⟩
      · rcases Bool.or_eq_true_iff.mp numberOrLetter with numeric | alpha
        · exact (numberChar_range numeric).1
        · exact Nat.le_trans (by decide) (isAlpha_range alpha).1
      · rcases Bool.or_eq_true_iff.mp numberOrLetter with numeric | alpha
        · exact Nat.le_trans (numberChar_range numeric).2 (by decide)
        · exact (isAlpha_range alpha).2
      · rintro rfl
        exact absurd numberOrLetter (by decide)
      · rintro rfl
        exact absurd numberOrLetter (by decide)

theorem isSolid {word : List Char} (plain : IsPlainWord word) : Text.IsSolid word := by
  refine ⟨plain.ne_nil, ?_⟩
  intro character member
  have range := plain.char_range character member
  exact isBlank_of_range ⟨by omega, by omega⟩

end IsPlainWord

variable {α : Type} [Scalar α]

def tokenOf : List Char → Token α
  | [] => .expression ""
  | letter :: number => .word letter (numberValue number) (String.ofList number)

theorem isGap_of_numeric {character : Char} (numeric : isNumberChar character = true) :
    isGap character = false := by
  have range := numberChar_range numeric
  simp only [isGap, Bool.or_eq_false_iff, beq_eq_false_iff_ne]
  constructor
  · rintro rfl
    simp at range
  · rintro rfl
    simp at range

private theorem dropWhile_isGap {gaps number after : List Char}
    (areGaps : ∀ gap ∈ gaps, isGap gap = true) (nonempty : number ≠ [])
    (numeric : ∀ character ∈ number, isNumberChar character = true) :
    (gaps ++ (number ++ after)).dropWhile isGap = number ++ after := by
  rw [List.dropWhile_append_of_pos areGaps]
  cases number with
  | nil => exact absurd rfl nonempty
  | cons first rest =>
      exact List.dropWhile_cons_of_neg
        (by simp [isGap_of_numeric (numeric first List.mem_cons_self)])

private theorem wordValue_number {number after : List Char} (nonempty : number ≠ [])
    (numeric : ∀ character ∈ number, isNumberChar character = true)
    (stop : ∀ character ∈ after.head?, isNumberChar character = false) :
    wordValue (α := α) (number ++ after) =
      (numberValue number, String.ofList number, after) := by
  have ends : after.takeWhile isNumberChar = [] ∧
      after.dropWhile isNumberChar = after := by
    cases after with
    | nil => exact ⟨rfl, rfl⟩
    | cons head tail => simp [stop head (by simp)]
  have split : (number ++ after).takeWhile isNumberChar = number ∧
      (number ++ after).dropWhile isNumberChar = after := by
    rw [List.takeWhile_append_of_pos numeric, List.dropWhile_append_of_pos numeric,
      ends.1, ends.2]
    simp
  cases number with
  | nil => exact absurd rfl nonempty
  | cons first rest =>
      have numericFirst := numeric first List.mem_cons_self
      unfold wordValue
      split
      · rename_i equation
        rw [List.cons_append, List.cons.injEq] at equation
        rw [equation.1] at numericFirst
        simp [isNumberChar] at numericFirst
      · rename_i equation
        rw [List.cons_append, List.cons.injEq] at equation
        rw [equation.1] at numericFirst
        simp [isNumberChar] at numericFirst
      · rw [split.1, split.2]

private theorem span_append_cons (holds : Char → Bool) {stop : Char}
    (stops : holds stop = false) (text rest : List Char) :
    (text ++ stop :: rest).takeWhile holds = text.takeWhile holds ∧
      (text ++ stop :: rest).dropWhile holds = text.dropWhile holds ++ stop :: rest := by
  induction text with
  | nil => simp [stops]
  | cons head tail ih =>
      by_cases kept : holds head = true
      · simp [kept, ih]
      · simp [kept]

private theorem wordValue_append_blank {text : List Char} (plain : '[' ∉ text)
    (rest : List Char) :
    wordValue (α := α) (text ++ ' ' :: rest) =
      ((wordValue text).1, (wordValue (α := α) text).2.1,
        (wordValue (α := α) text).2.2 ++ ' ' :: rest) := by
  have digits := @span_append_cons Char.isDigit ' ' (by decide)
  have numbers := @span_append_cons isNumberChar ' ' (by decide) text rest
  unfold wordValue
  split
  · rename_i inside equation
    cases text with
    | nil => cases equation
    | cons first others =>
        rw [List.cons_append, List.cons.injEq] at equation
        exact absurd (equation.1 ▸ List.mem_cons_self) plain
  · rename_i reference equation
    cases text with
    | nil => cases equation
    | cons first others =>
        rw [List.cons_append, List.cons.injEq] at equation
        obtain ⟨rfl, rfl⟩ := equation
        simp [digits]
  · rename_i notBracket notReference
    rw [numbers.1, numbers.2]
    split
    · exact absurd List.mem_cons_self plain
    · exact absurd rfl (notReference _)
    · rfl

theorem bracketBody_subset (depth : Nat) (text : List Char) :
    (bracketBody depth text).2 ⊆ text := by
  induction text generalizing depth with
  | nil => simp [bracketBody]
  | cons character rest ih =>
      unfold bracketBody
      split
      · cases depth with
        | zero => exact List.subset_cons_self character rest
        | succ inner => exact List.subset_cons_of_subset character (ih inner)
      · exact List.subset_cons_of_subset character (ih _)

theorem wordValue_subset (text : List Char) : (wordValue (α := α) text).2.2 ⊆ text := by
  unfold wordValue
  split
  · exact List.subset_cons_of_subset _ (bracketBody_subset 0 _)
  · exact List.subset_cons_of_subset _ (List.dropWhile_sublist _).subset
  · exact (List.dropWhile_sublist _).subset

private theorem dropWhile_isGap_append (text : List Char) {rest : List Char}
    (start : ∀ first ∈ rest.head?, first.isAlpha = true) :
    (text ++ ' ' :: rest).dropWhile isGap =
      if text.dropWhile isGap = [] then rest else text.dropWhile isGap ++ ' ' :: rest := by
  induction text with
  | nil =>
      have blank : isGap ' ' = true := by decide
      simp only [List.nil_append, List.dropWhile_nil, if_true]
      rw [List.dropWhile_cons_of_pos blank]
      cases rest with
      | nil => rfl
      | cons first others =>
          refine List.dropWhile_cons_of_neg ?_
          intro gap
          have alpha := isAlpha_range (start first rfl)
          simp only [isGap, Bool.or_eq_true, beq_iff_eq] at gap
          rcases gap with rfl | rfl <;> simp at alpha
  | cons head tail ih =>
      by_cases gap : isGap head = true
      · rw [List.cons_append, List.dropWhile_cons_of_pos gap, List.dropWhile_cons_of_pos gap, ih]
      · rw [List.cons_append, List.dropWhile_cons_of_neg gap, List.dropWhile_cons_of_neg gap]
        rfl

private theorem wordValue_letter {rest : List Char}
    (start : ∀ first ∈ rest.head?, first.isAlpha = true) :
    wordValue (α := α) rest = (numberValue [], "", rest) := by
  cases rest with
  | nil => rfl
  | cons first others =>
      have alpha := isAlpha_range (start first rfl)
      have notNumeric : isNumberChar first = false := by
        rw [Bool.eq_false_iff]
        intro numeric
        have range := numberChar_range numeric
        omega
      unfold wordValue
      split
      · rename_i equation
        rw [List.cons.injEq] at equation
        exact absurd (start first rfl) (by simp [equation.1])
      · rename_i equation
        rw [List.cons.injEq] at equation
        exact absurd (start first rfl) (by simp [equation.1])
      · simp [notNumeric]

/-- Blanks are neither letters nor brackets, and no part of numbers. -/
theorem isBlank_class {gap : Char} (blank : Text.isBlank gap = true) :
    gap ≠ '[' ∧ gap.isAlpha = false ∧ isNumberChar gap = false := by
  have outside : ¬(33 ≤ gap.toNat ∧ gap.toNat ≤ 132) := fun range =>
    absurd (isBlank_of_range range) (by simp [blank])
  refine ⟨?_, Bool.eq_false_iff.mpr fun alpha => ?_, Bool.eq_false_iff.mpr fun numeric => ?_⟩
  · rintro rfl
    exact outside (by decide)
  · have range := isAlpha_range alpha
    omega
  · have range := numberChar_range numeric
    omega

theorem tokenize_isBlank_cons {gap : Char} (blank : Text.isBlank gap = true)
    (rest : List Char) : tokenize (α := α) (gap :: rest) = tokenize rest := by
  obtain ⟨notBracket, notAlpha, _⟩ := isBlank_class blank
  rw [tokenize, if_neg notBracket, if_neg (by simp [notAlpha])]

theorem tokenize_blank_cons (rest : List Char) :
    tokenize (α := α) (' ' :: rest) = tokenize rest :=
  tokenize_isBlank_cons (by decide) rest

theorem tokenize_blanks_append {blanks : List Char}
    (blank : ∀ gap ∈ blanks, Text.isBlank gap = true) (code : List Char) :
    tokenize (α := α) (blanks ++ code) = tokenize code := by
  induction blanks with
  | nil => rfl
  | cons gap blanks ih =>
      obtain ⟨here, later⟩ := List.forall_mem_cons.mp blank
      rw [List.cons_append, tokenize_isBlank_cons here, ih later]

theorem tokenize_of_blank {blanks : List Char}
    (blank : ∀ gap ∈ blanks, Text.isBlank gap = true) : tokenize (α := α) blanks = [] := by
  have alone := tokenize_blanks_append (α := α) blank []
  rwa [List.append_nil, tokenize] at alone

theorem tokenize_append_blank {code rest : List Char} (plain : '[' ∉ code)
    (start : ∀ first ∈ rest.head?, first.isAlpha = true) :
    tokenize (α := α) (code ++ ' ' :: rest) = tokenize code ++ tokenize rest := by
  induction code using tokenize.induct (α := α) with
  | case1 =>
      rw [List.nil_append, tokenize_blank_cons, tokenize]
      rfl
  | case2 tail _ => exact absurd List.mem_cons_self plain
  | case3 letter tail notBracket alpha _ _ _ _ ih =>
      have tailPlain : '[' ∉ tail := fun inside =>
        plain (List.mem_cons_of_mem letter inside)
      have gapsDropped := dropWhile_isGap_append tail start
      rw [List.cons_append, tokenize, if_neg notBracket, if_pos alpha, tokenize,
        if_neg notBracket, if_pos alpha, List.cons_append]
      by_cases onlyGaps : tail.dropWhile isGap = []
      · rw [if_pos onlyGaps] at gapsDropped
        rw [gapsDropped, onlyGaps, wordValue_letter start]
        simp [wordValue, tokenize]
      · rw [if_neg onlyGaps] at gapsDropped
        have valuePlain : '[' ∉ tail.dropWhile isGap := fun inside =>
          tailPlain ((List.dropWhile_sublist isGap).subset inside)
        have split := wordValue_append_blank (α := α) valuePlain rest
        rw [gapsDropped, split]
        dsimp only
        rw [ih (fun inside => valuePlain (wordValue_subset _ inside))]
  | case4 letter tail notBracket notAlpha ih =>
      rw [List.cons_append, tokenize, if_neg notBracket, if_neg notAlpha, tokenize,
        if_neg notBracket, if_neg notAlpha]
      exact ih fun inside => plain (List.mem_cons_of_mem letter inside)

/-- A letter and a number with gaps between them are the first token of a line that goes
on with no number character. -/
theorem tokenize_gapped_append {letter : Char} {gaps number after : List Char}
    (alpha : letter.isAlpha = true) (areGaps : ∀ gap ∈ gaps, isGap gap = true)
    (nonempty : number ≠ [])
    (numeric : ∀ character ∈ number, isNumberChar character = true)
    (stop : ∀ character ∈ after.head?, isNumberChar character = false) :
    tokenize (α := α) (letter :: (gaps ++ (number ++ after))) =
      .word letter.toUpper (numberValue number) (String.ofList number) :: tokenize after := by
  have notBracket : letter ≠ '[' := by
    rintro rfl
    cases alpha
  rw [tokenize, if_neg notBracket, if_pos alpha, dropWhile_isGap areGaps nonempty numeric,
    wordValue_number nonempty numeric stop]

/-- A word in front of a line that goes on with no number character is its
first token. -/
theorem tokenize_lettered_append {word after : List Char} (lettered : IsLettered word)
    (stop : ∀ character ∈ after.head?, isNumberChar character = false) :
    tokenize (α := α) (word ++ after) = tokenOf (capitalized word) :: tokenize after := by
  cases lettered with
  | intro letter number alpha nonempty numeric =>
      exact @tokenize_gapped_append α _ letter [] number after alpha
        (List.forall_mem_nil _) nonempty numeric stop

theorem IsWord.capitalized_eq {word : List Char} (isWord : IsWord word) :
    capitalized word = word := by
  cases isWord with
  | intro letter number capital => rw [capitalized, toUpper_of_isUpper capital]

theorem tokenize_word_append {word after : List Char} (isWord : IsWord word)
    (stop : ∀ character ∈ after.head?, isNumberChar character = false) :
    tokenize (α := α) (word ++ after) = tokenOf word :: tokenize after := by
  rw [tokenize_lettered_append isWord.isLettered stop, isWord.capitalized_eq]

theorem tokenize_word {word : List Char} (isWord : IsWord word) :
    tokenize (α := α) word = [tokenOf word] := by
  have alone := @tokenize_word_append α _ _ [] isWord (by simp)
  rwa [List.append_nil, tokenize] at alone

theorem tokenize_append_replicate_blank {code : List Char} (plain : '[' ∉ code)
    (count : Nat) :
    tokenize (α := α) (code ++ List.replicate count ' ') = tokenize code := by
  induction count with
  | zero => simp
  | succ count ih =>
      have blanksPlain : '[' ∉ code ++ List.replicate count ' ' := by
        simp [plain]
      have onlyBlank := @tokenize_append_blank α _ _ [] blanksPlain (by simp)
      rw [List.replicate_succ', ← List.append_assoc, onlyBlank, ih]
      simp [tokenize]

private theorem tokenize_append_spaced {words : List (List Char)}
    (plain : ∀ word ∈ words, IsPlainWord word) {front : List Char} (frontPlain : '[' ∉ front) :
    tokenize (α := α) (front ++ spaced words) =
      tokenize front ++ words.flatMap tokenize := by
  induction words generalizing front with
  | nil => simp
  | cons word words ih =>
      have wordPlain := plain word List.mem_cons_self
      have noBracket : '[' ∉ word := fun inside =>
        (wordPlain.char_range '[' inside).2.2.2 rfl
      have later := ih (fun other member => plain other (List.mem_cons_of_mem word member))
        noBracket
      have start : ∀ first ∈ (word ++ spaced words).head?, first.isAlpha = true := by
        cases wordPlain with
        | intro letter text capital _ => simp [Char.isAlpha, capital]
      rw [spaced_cons, List.cons_append, tokenize_append_blank frontPlain start, later,
        List.flatMap_cons]

theorem tokenize_joined_plain {words : List (List Char)}
    (plain : ∀ word ∈ words, IsPlainWord word) (count : Nat) :
    tokenize (α := α) (joined words ++ List.replicate count ' ') =
      words.flatMap tokenize := by
  have noBracket : ∀ word ∈ words, '[' ∉ word := fun word member inside =>
    ((plain word member).char_range '[' inside).2.2.2 rfl
  cases words with
  | nil =>
      have blank : ∀ gap ∈ List.replicate count ' ', Text.isBlank gap = true := by
        intro gap isGap
        rw [List.eq_of_mem_replicate isGap]
        decide
      simpa [joined, List.intercalate] using tokenize_of_blank blank
  | cons word words =>
      have noBrackets : '[' ∉ joined (word :: words) := by
        rw [joined_cons, List.mem_append, spaced, List.mem_flatMap]
        rintro (inFirst | ⟨other, member, inside⟩)
        · exact noBracket word List.mem_cons_self inFirst
        · rcases List.mem_cons.mp inside with blank | inOther
          · cases blank
          · exact noBracket other (List.mem_cons_of_mem word member) inOther
      rw [tokenize_append_replicate_blank noBrackets, joined_cons,
        tokenize_append_spaced (fun other member => plain other (List.mem_cons_of_mem word member))
          (noBracket word List.mem_cons_self),
        List.flatMap_cons]

/-- The tokens of a line of words are those of its words. -/
theorem tokenize_joined {words : List (List Char)}
    (isWord : ∀ word ∈ words, IsWord word) (count : Nat) :
    tokenize (α := α) (joined words ++ List.replicate count ' ') =
      words.map tokenOf := by
  rw [tokenize_joined_plain (fun word member => (isWord word member).isPlain)]
  induction words with
  | nil => rfl
  | cons word words ih =>
      rw [List.flatMap_cons, tokenize_word (isWord word List.mem_cons_self), List.map_cons,
        ih fun other member => isWord other (List.mem_cons_of_mem word member)]
      rfl

theorem tokenize_eq_map_words {text : List Char}
    (lettered : ∀ word ∈ Text.words text, IsLettered word) :
    tokenize (α := α) text = (Text.words text).map fun word => tokenOf (capitalized word) := by
  induction size : text.length using Nat.strong_induction_on generalizing text with
  | _ size ih =>
      subst size
      cases text with
      | nil => simp [tokenize, Text.words]
      | cons first rest =>
          by_cases blank : Text.isBlank first = true
          · rw [Text.words_blank_cons blank] at lettered ⊢
            rw [tokenize_isBlank_cons blank]
            exact ih _ (by simp) lettered rfl
          · -- The word that the text starts with, and what is behind it.
            obtain ⟨word, after, split, solid, stop⟩ :=
              Text.exists_word_append (Bool.eq_false_iff.mpr blank) rest
            have words := Text.words_append_of_stop solid stop
            rw [split] at lettered ⊢
            rw [words] at lettered ⊢
            obtain ⟨isWord, later⟩ := List.forall_mem_cons.mp lettered
            have shorter : after.length < (first :: rest).length := by
              have nonempty := List.length_pos_iff.mpr solid.1
              rw [split, List.length_append]
              omega
            rw [tokenize_lettered_append isWord fun character member =>
              (isBlank_class (stop character member)).2.2, ih _ shorter later rfl, List.map_cons]

theorem exists_mem_of_mem_tokenize {text : List Char} {token : Token α} {letter : Char}
    (member : token ∈ tokenize text) (isLetter : token.letter? = some letter) :
    ∃ character ∈ text, character.toUpper = letter := by
  induction text using tokenize.induct (α := α) with
  | case1 =>
      rw [tokenize] at member
      cases member
  | case2 rest ih =>
      rw [tokenize, if_pos rfl] at member
      rcases List.mem_cons.mp member with rfl | later
      · cases isLetter
      · obtain ⟨character, inside, upper⟩ := ih later
        exact ⟨character, List.mem_cons_of_mem _ (bracketBody_subset 0 rest inside), upper⟩
  | case3 first rest notBracket alpha _ _ _ _ ih =>
      rw [tokenize, if_neg notBracket, if_pos alpha] at member
      rcases List.mem_cons.mp member with rfl | later
      · exact ⟨first, List.mem_cons_self, Option.some.inj isLetter⟩
      · obtain ⟨character, inside, upper⟩ := ih later
        exact ⟨character, List.mem_cons_of_mem first
          ((List.dropWhile_sublist isGap).subset (wordValue_subset _ inside)), upper⟩
  | case4 first rest notBracket notAlpha ih =>
      rw [tokenize, if_neg notBracket, if_neg notAlpha] at member
      obtain ⟨character, inside, upper⟩ := ih member
      exact ⟨character, List.mem_cons_of_mem first inside, upper⟩

/-- The letter and the number of a word that has one. -/
def Token.number? : Token α → Option (Char × α)
  | .word letter (.number value) _ => some (letter, value)
  | _ => none

def numbersOf (α : Type) [Scalar α] (text : List Char) : List (Char × α) :=
  (tokenize text).filterMap Token.number?

theorem numbersOf_word {word : List Char} (isWord : IsWord word) :
    numbersOf α word = (tokenOf (α := α) word).number?.toList := by
  rw [numbersOf, tokenize_word isWord]
  cases number : (tokenOf (α := α) word).number? with
  | none => exact List.filterMap_cons_none number
  | some entry => exact List.filterMap_cons_some number

theorem numbersOf_eq_nil {text : List Char}
    (noDigit : ∀ character ∈ text, character.isDigit = false) : numbersOf α text = [] := by
  have noNumber {text : List Char} (noDigit : ∀ character ∈ text, character.isDigit = false)
      (letter : Char) (raw : String) :
      (Token.word letter (wordValue (α := α) text).1 raw).number? = none := by
    unfold wordValue
    split
    · rfl
    · rfl
    · have unread : Decimal.Numeral.read? (text.takeWhile isNumberChar) = none :=
        Decimal.Numeral.read?_eq_none fun character member =>
          noDigit character ((List.takeWhile_sublist _).subset member)
      simp only [numberValue, unread, Token.number?]
  have noneOf {text rest : List Char} (noDigit : ∀ character ∈ text, character.isDigit = false)
      (inside : rest ⊆ text) : ∀ character ∈ rest, character.isDigit = false :=
    fun character member => noDigit character (inside member)
  unfold numbersOf
  induction text using tokenize.induct (α := α) with
  | case1 => simp [tokenize]
  | case2 rest ih =>
      rw [tokenize, if_pos rfl, List.filterMap_cons_none rfl]
      exact ih (noneOf noDigit (List.subset_cons_of_subset _ (bracketBody_subset 0 rest)))
  | case3 first rest notBracket alpha _ _ _ _ ih =>
      have later : rest.dropWhile isGap ⊆ first :: rest :=
        List.subset_cons_of_subset _ (List.dropWhile_sublist isGap).subset
      rw [tokenize, if_neg notBracket, if_pos alpha]
      rw [List.filterMap_cons_none (noNumber (noneOf noDigit later) _ _)]
      exact ih (noneOf noDigit (List.Subset.trans (wordValue_subset _) later))
  | case4 first rest notBracket notAlpha ih =>
      rw [tokenize, if_neg notBracket, if_neg notAlpha]
      exact ih (noneOf noDigit (List.subset_cons_self first rest))

end Milling.Program

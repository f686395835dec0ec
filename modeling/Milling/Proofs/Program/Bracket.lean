import Mathlib
import Milling.Proofs.Program.Rendering
import Milling.Proofs.Program.Widening
import Milling.Proofs.Text.Blank

/-!
# Brackets of assignments

What is assigned to a variable is kept without the brackets around it.  It keeps its
meaning if the first bracket and the last one belong to each other; whether they do is not
looked at.
-/

namespace Milling.Program

open Text

theorem ne_of_isBlank {gap character : Char} (blank : isBlank gap = true)
    (solid : isBlank character = false) : gap ≠ character := by
  rintro rfl
  exact absurd blank (by simp [solid])

section Nesting

/-- The number of open brackets behind a character; none if it closes one too many. -/
def nest? (depth : Nat) (character : Char) : Option Nat :=
  if character = '[' then some (depth + 1)
  else if character = ']' then if depth = 0 then none else some (depth - 1)
  else some depth

/-- The number of open brackets behind a text. -/
def nesting? (depth : Nat) (text : List Char) : Option Nat := text.foldlM nest? depth

/-- Each bracket has its partner. -/
def IsBalanced (text : List Char) : Prop := nesting? 0 text = some 0

instance (text : List Char) : Decidable (IsBalanced text) :=
  inferInstanceAs (Decidable (nesting? 0 text = some 0))

theorem nesting?_append (depth : Nat) (front back : List Char) :
    nesting? depth (front ++ back) = (nesting? depth front).bind (nesting? · back) :=
  List.foldlM_append

theorem nesting?_of_blank {blanks : List Char} (blank : ∀ gap ∈ blanks, isBlank gap = true)
    (depth : Nat) : nesting? depth blanks = some depth := by
  induction blanks with
  | nil => rfl
  | cons gap blanks ih =>
      have isGap := blank gap List.mem_cons_self
      have stays : nest? depth gap = some depth := by
        rw [nest?, if_neg (ne_of_isBlank isGap (by decide)),
          if_neg (ne_of_isBlank isGap (by decide))]
      rw [nesting?, List.foldlM_cons, stays]
      exact ih fun other isOther => blank other (List.mem_cons_of_mem gap isOther)

end Nesting

section Enclosing

/-- A text is another one with blanks around it. -/
def InBlanks (whole part : List Char) : Prop :=
  ∃ front back, (∀ gap ∈ front, isBlank gap = true) ∧ (∀ gap ∈ back, isBlank gap = true) ∧
    whole = front ++ part ++ back

/-- A text is another one up to blanks and one pair of characters around it. -/
inductive Encloses (opening closing : Char) (whole part : List Char) : Prop where
  | bare (blanks : InBlanks whole part)
  | paired {inner : List Char} (inside : InBlanks inner part)
      (outside : InBlanks whole (opening :: (inner ++ [closing])))

/-- Blanks and one pair of characters stay around a text that is rewritten. -/
theorem Encloses.map {opening closing opening' closing' : Char}
    {rewrite : List Char → List Char}
    (blanks : ∀ whole part, InBlanks whole part → InBlanks (rewrite whole) (rewrite part))
    (pairs : ∀ inner, rewrite (opening :: (inner ++ [closing])) =
      opening' :: (rewrite inner ++ [closing']))
    {whole part : List Char} (encloses : Encloses opening closing whole part) :
    Encloses opening' closing' (rewrite whole) (rewrite part) := by
  cases encloses with
  | bare inBlanks => exact .bare (blanks _ _ inBlanks)
  | @paired inner inside outside =>
      have rewritten := blanks _ _ outside
      rw [pairs] at rewritten
      exact .paired (blanks _ _ inside) rewritten

theorem inBlanks_trim (text : List Char) : InBlanks text (trim text) := by
  obtain ⟨back, whole, isBack⟩ := exists_dropEndWhile_append isBlank (trimStart text)
  refine ⟨text.takeWhile isBlank, back, fun gap isGap => List.mem_takeWhile_imp isGap, isBack, ?_⟩
  rw [List.append_assoc]
  exact (List.takeWhile_append_dropWhile.symm.trans (congrArg (_ ++ ·) whole))

theorem isBalanced_iff_of_inBlanks {whole part : List Char} (inBlanks : InBlanks whole part) :
    IsBalanced whole ↔ IsBalanced part := by
  obtain ⟨front, back, isFront, isBack, rfl⟩ := inBlanks
  rw [IsBalanced, IsBalanced, nesting?_append, nesting?_append, nesting?_of_blank isFront,
    Option.bind_some]
  cases nesting? 0 part with
  | none => rfl
  | some depth => rw [Option.bind_some, nesting?_of_blank isBack]

end Enclosing

section Rewriting

/-- Blanks are no part of numbers or names, and refer to nothing. -/
theorem isBlank_literal {gap : Char} (blank : isBlank gap = true) :
    isLiteralChar gap = false ∧ gap.isDigit = false ∧ gap ≠ '#' ∧ asParenthesis gap = gap := by
  obtain ⟨notOpening, notAlpha, notNumeric⟩ := isBlank_class blank
  have notDigit : gap.isDigit = false := by
    simp only [isNumberChar, Bool.or_eq_false_iff] at notNumeric
    exact notNumeric.1.1.1
  refine ⟨?_, notDigit, ne_of_isBlank blank (by decide), ?_⟩
  · simp [isLiteralChar, Char.isAlphanum, notAlpha, notDigit,
      ne_of_isBlank blank (by decide : isBlank '_' = false),
      ne_of_isBlank blank (by decide : isBlank '.' = false)]
  · rw [asParenthesis, if_neg notOpening, if_neg (ne_of_isBlank blank (by decide))]

theorem head?_notDigit {blanks : List Char} (blank : ∀ gap ∈ blanks, isBlank gap = true) :
    ∀ next ∈ blanks.head?, next.isDigit = false :=
  fun next isNext => (isBlank_literal (blank next (List.mem_of_mem_head? isNext))).2.1

theorem map_asParenthesis_of_blank {blanks : List Char}
    (blank : ∀ gap ∈ blanks, isBlank gap = true) : blanks.map asParenthesis = blanks :=
  (List.map_congr_left fun gap isGap => (isBlank_literal (blank gap isGap)).2.2.2).trans
    (List.map_id blanks)

theorem pieces_blanks_append {front back : List Char} (isFront : ∀ gap ∈ front, isBlank gap = true)
    (isBack : ∀ gap ∈ back, isBlank gap = true) (part : List Char) :
    pieces (front ++ part ++ back) = front.map .other ++ pieces part ++ back.map .other := by
  have plain {blanks : List Char} (blank : ∀ gap ∈ blanks, isBlank gap = true) :
      ∀ gap ∈ blanks, gap ≠ '#' :=
    fun gap isGap => (isBlank_literal (blank gap isGap)).2.2.1
  rw [List.append_assoc, pieces_plain_append (plain isFront),
    pieces_append (head?_notDigit isBack), pieces_of_plain (plain isBack), List.append_assoc]

/-- Brackets around an expression are pieces by themselves. -/
theorem pieces_paired (inner : List Char) :
    pieces ('[' :: (inner ++ [']'])) = .other '[' :: (pieces inner ++ [.other ']']) := by
  have apart : ∀ next ∈ [']'].head?, next.isDigit = false := by
    rintro next ⟨⟩
    decide
  rw [pieces_other (by decide), pieces_append apart, pieces_other (by decide), pieces_nil]

theorem widenIntegers_blank_append {front : List Char}
    (blank : ∀ gap ∈ front, isBlank gap = true) (rest : List Char) :
    widenIntegers (front ++ rest) = front ++ widenIntegers rest :=
  widenIntegers_plain_append (fun gap isGap => (isBlank_literal (blank gap isGap)).1) rest

theorem widenIntegers_append_blank {back : List Char}
    (blank : ∀ gap ∈ back, isBlank gap = true) (text : List Char) :
    widenIntegers (text ++ back) = widenIntegers text ++ back := by
  have apart : ∀ next ∈ back.head?, isLiteralChar next = false := fun next isNext =>
    (isBlank_literal (blank next (List.mem_of_mem_head? isNext))).1
  have kept := widenIntegers_blank_append blank []
  rw [List.append_nil, widenIntegers_nil, List.append_nil] at kept
  rw [widenIntegers_append apart, kept]

section Blanks

variable {α : Type} [Scalar α] (held : Nat → Option α) {whole part : List Char}
  (blanks : InBlanks whole part)

include blanks

theorem InBlanks.map_asParenthesis :
    InBlanks (whole.map asParenthesis) (part.map asParenthesis) := by
  obtain ⟨front, back, isFront, isBack, rfl⟩ := blanks
  refine ⟨front, back, isFront, isBack, ?_⟩
  rw [List.map_append, List.map_append, map_asParenthesis_of_blank isFront,
    map_asParenthesis_of_blank isBack]

theorem InBlanks.references_eq : references whole = references part := by
  obtain ⟨front, back, isFront, isBack, rfl⟩ := blanks
  rw [references, pieces_blanks_append isFront isBack, List.filterMap_append,
    List.filterMap_append, filterMap_number?_other, filterMap_number?_other, List.nil_append,
    List.append_nil, references]

theorem InBlanks.filled : InBlanks (filled held whole) (filled held part) := by
  obtain ⟨front, back, isFront, isBack, rfl⟩ := blanks
  refine ⟨front, back, isFront, isBack, ?_⟩
  rw [Program.filled, pieces_blanks_append isFront isBack, List.flatMap_append,
    List.flatMap_append, flatMap_filled_other, flatMap_filled_other,
    map_asParenthesis_of_blank isFront, map_asParenthesis_of_blank isBack, Program.filled]

omit [Scalar α] in
theorem InBlanks.widenIntegers : InBlanks (widenIntegers whole) (widenIntegers part) := by
  obtain ⟨front, back, isFront, isBack, rfl⟩ := blanks
  refine ⟨front, back, isFront, isBack, ?_⟩
  rw [List.append_assoc, widenIntegers_blank_append isFront, widenIntegers_append_blank isBack,
    List.append_assoc]

end Blanks

theorem references_paired (inner : List Char) :
    references ('[' :: (inner ++ [']'])) = references inner := by
  rw [references, pieces_paired, List.filterMap_cons_none rfl, List.filterMap_append, references]
  exact List.append_nil _

theorem filled_paired {α : Type} [Scalar α] (held : Nat → Option α) (inner : List Char) :
    filled held ('[' :: (inner ++ [']'])) = '(' :: (filled held inner ++ [')']) := by
  rw [filled, pieces_paired, List.flatMap_cons, List.flatMap_append, filled]
  rfl

theorem widenIntegers_paired (inner : List Char) :
    widenIntegers ('(' :: (inner ++ [')'])) = '(' :: (widenIntegers inner ++ [')']) := by
  have closing : ∀ next ∈ [')'].head?, isLiteralChar next = false := by
    rintro next ⟨⟩
    decide
  rw [widenIntegers_cons_plain (by decide), widenIntegers_append closing,
    widenIntegers_cons_plain (by decide), widenIntegers_nil]

end Rewriting

section Kept

theorem withoutBrackets_paired (inner : List Char) :
    withoutBrackets ('[' :: (inner ++ [']'])) = inner := by
  simp [withoutBrackets]

theorem withoutBrackets_eq_self {text : List Char}
    (unpaired : ∀ inner, text ≠ '[' :: (inner ++ [']'])) : withoutBrackets text = text := by
  unfold withoutBrackets
  split
  · rename_i rest
    split
    · rename_i closed
      obtain ⟨inner, rfl⟩ := List.getLast?_eq_some_iff.mp closed
      exact absurd rfl (unpaired inner)
    · rfl
  · rfl

/-- What an assignment keeps of its right-hand side. -/
def keptOf (text : List Char) : List Char := trim (withoutBrackets (trim text))

theorem encloses_keptOf (text : List Char) : Encloses '[' ']' text (keptOf text) := by
  by_cases paired : ∃ inner, trim text = '[' :: (inner ++ [']'])
  · obtain ⟨inner, isPaired⟩ := paired
    rw [keptOf, isPaired, withoutBrackets_paired]
    exact .paired (inBlanks_trim inner) (isPaired ▸ inBlanks_trim text)
  · rw [keptOf, withoutBrackets_eq_self (not_exists.mp paired)]
    exact .bare (by
      rw [trim_eq_self head?_trim getLast?_trimEnd]
      exact inBlanks_trim text)

/-- The brackets of what is kept are balanced unless two that do not belong to each other
are taken for a pair. -/
theorem isBalanced_keptOf_iff {text : List Char} (balanced : IsBalanced text) :
    IsBalanced (keptOf text) ↔
      ∀ inner, trim text = '[' :: (inner ++ [']']) → IsBalanced inner := by
  by_cases paired : ∃ inner, trim text = '[' :: (inner ++ [']'])
  · obtain ⟨inner, isPaired⟩ := paired
    rw [keptOf, isPaired, withoutBrackets_paired,
      ← isBalanced_iff_of_inBlanks (inBlanks_trim inner)]
    constructor
    · intro isBalanced other isOther
      obtain rfl : inner = other := by simpa using isOther
      exact isBalanced
    · exact fun each => each inner rfl
  · rw [keptOf, withoutBrackets_eq_self (not_exists.mp paired),
      trim_eq_self head?_trim getLast?_trimEnd,
      ← isBalanced_iff_of_inBlanks (inBlanks_trim text)]
    exact iff_of_true balanced fun inner isPaired => absurd ⟨inner, isPaired⟩ paired

end Kept

section Reading

def assignmentLine (number : Nat) (text : List Char) : List Char :=
  '#' :: (Nat.toDigits 10 number ++ ' ' :: '=' :: ' ' :: text)

theorem assignment?_assignmentLine {number : Nat} (bounded : number ≤ greatestVariable)
    (text : List Char) :
    assignment? (assignmentLine number text) = some (number, String.ofList (keptOf text)) := by
  have digit {character : Char} (isDigit : character ∈ Nat.toDigits 10 number) :
      48 ≤ character.toNat ∧ character.toNat ≤ 57 :=
    Char.isDigit_iff_toNat.mp (Decimal.isDigit_of_mem_toDigits isDigit)
  have trimmed : trim (assignmentLine number text) =
      '#' :: (Nat.toDigits 10 number ++ ' ' :: '=' :: trimEnd (' ' :: text)) := by
    have kept := dropEndWhile_append_cons (by decide : isBlank '=' = false)
      ('#' :: (Nat.toDigits 10 number ++ [' '])) (' ' :: text)
    rw [assignmentLine, trim_cons (by decide), trimEnd, trimEnd]
    simpa using kept
  have cut : cutAt (· == '=') (Nat.toDigits 10 number ++ ' ' :: '=' :: trimEnd (' ' :: text)) =
      some (Nat.toDigits 10 number ++ [' '], trimEnd (' ' :: text)) := by
    have runs : ∀ character ∈ Nat.toDigits 10 number ++ [' '], (character == '=') = false := by
      intro character member
      rw [beq_eq_false_iff_ne]
      rintro rfl
      rcases List.mem_append.mp member with isDigit | isGap
      · exact absurd (digit isDigit) (by decide)
      · exact absurd (List.mem_singleton.mp isGap) (by decide)
    have found := cutAt_append_cons runs (beq_self_eq_true '=') (trimEnd (' ' :: text))
    rwa [List.append_assoc] at found
  have name : trim (Nat.toDigits 10 number ++ [' ']) = Nat.toDigits 10 number := by
    rw [trim_concat_blank (by decide)]
    exact trim_eq_self
      (fun first isFirst => isBlank_of_range (by
        have := digit (List.mem_of_mem_head? isFirst)
        omega))
      (fun last isLast => isBlank_of_range (by
        have := digit (List.mem_of_mem_getLast? isLast)
        omega))
  have value : trim (trimEnd (' ' :: text)) = trim text := by
    rw [trimEnd, trim_dropEndWhile fun _ isGap => isGap]
    rfl
  rw [assignment?, trimmed]
  simp only [cut, name, value, Decimal.boundedNatural?_toDigits bounded, Option.bind_eq_bind,
    Option.bind_some, keptOf]

/-- An assignment keeps the text of its right-hand side up to blanks and the brackets around
it, both as it is written and as it is calculated, and the variables that it refers to. -/
theorem assignment_encloses {α : Type} [Scalar α] {number : Nat}
    (bounded : number ≤ greatestVariable) {text : List Char} (balanced : IsBalanced text) :
    ∃ expression, assignment? (assignmentLine number text) = some (number, expression) ∧
      (IsBalanced expression.toList ↔
        ∀ inner, trim text = '[' :: (inner ++ [']']) → IsBalanced inner) ∧
      Encloses '(' ')' (text.map asParenthesis) (expression.toList.map asParenthesis) ∧
      references text = references expression.toList ∧
      ∀ held : Nat → Option α, Encloses '(' ')' (calculated held (String.ofList text)).toList
        (calculated held expression).toList := by
  refine ⟨_, assignment?_assignmentLine bounded text, ?_⟩
  rw [String.toList_ofList]
  refine ⟨isBalanced_keptOf_iff balanced, ?_, ?_, fun held => ?_⟩
  · refine (encloses_keptOf text).map (fun _ _ => InBlanks.map_asParenthesis) fun inner => ?_
    rw [List.map_cons, List.map_append]
    rfl
  · cases encloses_keptOf text with
    | bare blanks => exact blanks.references_eq
    | @paired inner inside outside =>
        rw [outside.references_eq, references_paired, inside.references_eq]
  · have filled := (encloses_keptOf text).map (fun _ _ => InBlanks.filled held)
      (filled_paired held)
    have widened := filled.map (fun _ _ => InBlanks.widenIntegers) widenIntegers_paired
    simpa only [calculated, String.toList_ofList] using widened

theorem assignment_encloses_nested :
    3 ≤ greatestVariable ∧ IsBalanced " [2 * [#1 + 4]] ".toList ∧
      ∃ expression, assignment? (assignmentLine 3 " [2 * [#1 + 4]] ".toList) =
          some (3, expression) ∧
        (IsBalanced expression.toList ↔
          ∀ inner, trim " [2 * [#1 + 4]] ".toList = '[' :: (inner ++ [']']) →
            IsBalanced inner) ∧
        Encloses '(' ')' (" [2 * [#1 + 4]] ".toList.map asParenthesis)
          (expression.toList.map asParenthesis) ∧
        references " [2 * [#1 + 4]] ".toList = references expression.toList ∧
        ∀ held : Nat → Option Float, Encloses '(' ')'
          (calculated held (String.ofList " [2 * [#1 + 4]] ".toList)).toList
          (calculated held expression).toList :=
  ⟨by decide, by decide, assignment_encloses (by decide) (by decide)⟩

/-- Two pairs of brackets side by side are taken for one around everything. -/
theorem assignment_unpaired :
    assignmentLine 1 "[1+2]*[3+4]".toList = "#1 = [1+2]*[3+4]".toList ∧
      IsBalanced "[1+2]*[3+4]".toList ∧
      assignment? "#1 = [1+2]*[3+4]".toList = some (1, "1+2]*[3+4") ∧
      ¬IsBalanced "1+2]*[3+4".toList := by
  decide

end Reading

end Milling.Program

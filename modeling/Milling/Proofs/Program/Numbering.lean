import Mathlib
import Milling.Expression.Evaluation
import Milling.Proofs.Program.Gathering
import Milling.Proofs.Program.Line

/-!
# Line numbers

A line number is a word in front of a line.  The reader passes over it, and the
line does what it does without it.  Two kinds of lines are told by how they
start, and so are no longer what they were behind a number: remarks, which are
not numbered, and assignments, which then assign nothing.
-/

namespace Milling.Program

variable {α : Type}

/-- The digits of a line number. -/
structure LineNumber where
  digits : List Char
  nonempty : digits ≠ []
  isDigits : ∀ digit ∈ digits, digit.isDigit = true

/-- A line with a number in front of it, or as it is without one. -/
def numberedLine : Option LineNumber → List Char → List Char
  | some number, line => 'N' :: number.digits ++ ' ' :: line
  | none, line => line

/-- A text with numbers in front of some of its lines, by their places from zero on. -/
def numberedText (numbers : Nat → Option LineNumber) (text : String) : String :=
  textOf ((textLines text.toList).zipIdx.map fun entry =>
    numberedLine (numbers entry.2) entry.1)

/-- A line that says the same behind a number: neither blank nor a remark nor a frame, and no
assignment. -/
structure IsNumberable (line : List Char) : Prop where
  filled : Text.trim line ≠ []
  noRemark : (Text.trim line).head? ≠ some ';' ∧ (Text.trim line).head? ≠ some '('
  unframed : Text.trim line ≠ ['%']
  noAssignment : assignment? (stripComments (Text.trim line)) = none

instance (line : List Char) : Decidable (IsNumberable line) :=
  decidable_of_iff
    (Text.trim line ≠ [] ∧
      ((Text.trim line).head? ≠ some ';' ∧ (Text.trim line).head? ≠ some '(') ∧
      Text.trim line ≠ ['%'] ∧ assignment? (stripComments (Text.trim line)) = none)
    ⟨fun ⟨filled, noRemark, unframed, noAssignment⟩ => ⟨filled, noRemark, unframed, noAssignment⟩,
      fun ⟨filled, noRemark, unframed, noAssignment⟩ =>
        ⟨filled, noRemark, unframed, noAssignment⟩⟩

def LineEffect.withoutCommand (effect : LineEffect α) : LineEffect α :=
  { effect with command := none }

section Words

variable [Scalar α]

theorem LineNumber.isWord (number : LineNumber) : IsWord ('N' :: number.digits) := by
  refine .intro 'N' number.digits rfl number.nonempty fun digit member => ?_
  simp [isNumberChar, number.isDigits digit member]

theorem tokenize_numbered (number : LineNumber) {blanks : List Char}
    (blank : ∀ gap ∈ blanks, Text.isBlank gap = true) (code : List Char) :
    tokenize (α := α) ('N' :: number.digits ++ ' ' :: (blanks ++ code)) =
      tokenOf ('N' :: number.digits) :: tokenize code := by
  have stop : ∀ character ∈ (' ' :: (blanks ++ code)).head?, isNumberChar character = false := by
    intro character isFirst
    obtain rfl := Option.mem_some_iff.mp isFirst
    decide
  rw [tokenize_word_append number.isWord stop, tokenize_blank_cons, tokenize_blanks_append blank]

variable (calculate : String → Except String α)

theorem add_lineNumber (number : LineNumber) (table : Variables α) (line : Nat)
    (words : WordReading α) :
    words.add calculate table line (tokenOf ('N' :: number.digits)) = words := by
  have unknown : 'N' ∉ parameterLetters := by decide
  simp [tokenOf, WordReading.add, unknown]

end Words

section Lines

variable [Scalar α] (calculate : String → Except String α)

/-- What a line gives besides its command comes from what its words say. -/
theorem readWords_withoutCommand {code other : List Char} {line : Nat} {state : ReadingState α}
    (same : (tokenize code).foldl (WordReading.add calculate state.assigned line) {} =
      (tokenize other).foldl (WordReading.add calculate state.assigned line) {})
    (raw otherRaw : String) (comment : Option String) :
    (readWords calculate line raw code comment state).1.withoutCommand =
        (readWords calculate line otherRaw other comment state).1.withoutCommand ∧
      (readWords calculate line raw code comment state).2 =
        (readWords calculate line otherRaw other comment state).2 := by
  simp [readWords, same, LineEffect.withoutCommand]

theorem trim_numbered (number : LineNumber) {written : List Char}
    (filled : Text.trim written ≠ []) :
    ∃ blanks, (∀ gap ∈ blanks, Text.isBlank gap = true) ∧
      Text.trim (numberedLine (some number) written) =
        'N' :: number.digits ++ ' ' :: (blanks ++ Text.trim written) ∧
      splitComments (Text.trim (numberedLine (some number) written)) =
        ('N' :: number.digits ++ ' ' :: (blanks ++ (splitComments (Text.trim written)).1),
          (splitComments (Text.trim written)).2) := by
  obtain ⟨blanks, first, rest, whole, blank, solid, shape⟩ := Text.exists_trim_cons filled
  have trimmed : Text.trim (numberedLine (some number) written) =
      ('N' :: number.digits ++ ' ' :: blanks) ++ Text.trim written := by
    have kept := Text.dropEndWhile_append_cons solid ('N' :: number.digits ++ ' ' :: blanks) rest
    have front : numberedLine (some number) written =
        ('N' :: number.digits ++ ' ' :: blanks) ++ first :: rest := by
      rw [numberedLine, whole, List.append_assoc]
      rfl
    rw [front, shape]
    exact (Text.trim_cons (by decide : Text.isBlank 'N' = false) _).trans kept
  have plain : ∀ character ∈ 'N' :: number.digits ++ ' ' :: blanks,
      character ≠ ';' ∧ character ≠ '(' := by
    intro character member
    have known : character = 'N' ∨ character = ' ' ∨ character.isDigit = true ∨
        Text.isBlank character = true := by
      simp only [List.cons_append, List.mem_cons, List.mem_append] at member
      rcases member with isN | isDigit | isGap | isBlank
      · exact .inl isN
      · exact .inr (.inr (.inl (number.isDigits character isDigit)))
      · exact .inr (.inl isGap)
      · exact .inr (.inr (.inr (blank character isBlank)))
    constructor <;> (rintro rfl; exact absurd known (by decide))
  have split := splitComments_append plain (Text.trim written)
  rw [← trimmed] at split
  refine ⟨blanks, blank, trimmed.trans (by simp), split.trans (by simp)⟩

theorem readLine_numbered (number : LineNumber) {written : List Char}
    (numberable : IsNumberable written) (line : Nat) (state : ReadingState α) :
    (readLine calculate line (numberedLine (some number) written) state).1.withoutCommand =
        (readLine calculate line written state).1.withoutCommand ∧
      (readLine calculate line (numberedLine (some number) written) state).2 =
        (readLine calculate line written state).2 := by
  obtain ⟨blanks, blank, trimmed, split⟩ := trim_numbered number numberable.filled
  obtain ⟨first, starts⟩ : ∃ first, (Text.trim written).head? = some first :=
    Option.isSome_iff_exists.mp (List.isSome_head?.mpr numberable.filled)
  have plain : first ≠ ';' ∧ first ≠ '(' := by
    simpa [starts] using numberable.noRemark
  -- Both lines are read word by word, with the same comment and one word more.
  have read := readLine_code calculate line state starts plain numberable.unframed
    numberable.noAssignment
  have code : stripComments (Text.trim (numberedLine (some number) written)) =
      'N' :: number.digits ++ ' ' :: (blanks ++ stripComments (Text.trim written)) :=
    congrArg Prod.fst split
  have comment : comment? (Text.trim (numberedLine (some number) written)) =
      comment? (Text.trim written) := by
    rw [comment?, split, comment?]
  have startsNumbered : (Text.trim (numberedLine (some number) written)).head? = some 'N' := by
    rw [trimmed]
    rfl
  have readNumbered := readLine_code calculate line state startsNumbered (by decide)
    (by rw [trimmed]; simp)
    (by rw [code]; exact assignment?_eq_none (by decide) (by decide) _)
  rw [read, readNumbered, code, comment]
  refine readWords_withoutCommand calculate ?_ _ _ _
  rw [tokenize_numbered number blank, List.foldl_cons, add_lineNumber]

theorem readLines_numbered (numbers : Nat → Option LineNumber) (lines : List (List Char))
    (start : Nat) (numberable : ∀ entry ∈ lines.zipIdx start,
      (numbers entry.2).isSome → IsNumberable entry.1) (line : Nat) (state : ReadingState α) :
    let read := readLines calculate line state lines
    let again := readLines calculate line state
      ((lines.zipIdx start).map fun entry => numberedLine (numbers entry.2) entry.1)
    again.1.map LineEffect.withoutCommand = read.1.map LineEffect.withoutCommand ∧
      again.2 = read.2 := by
  induction lines generalizing start line state with
  | nil => exact ⟨rfl, rfl⟩
  | cons written rest ih =>
      rw [List.zipIdx_cons] at numberable ⊢
      obtain ⟨here, later⟩ := List.forall_mem_cons.mp numberable
      have step : (readLine calculate line (numberedLine (numbers start) written)
            state).1.withoutCommand = (readLine calculate line written state).1.withoutCommand ∧
          (readLine calculate line (numberedLine (numbers start) written) state).2 =
            (readLine calculate line written state).2 := by
        cases isNumber : numbers start with
        | none => exact ⟨rfl, rfl⟩
        | some number =>
            exact readLine_numbered calculate number (here (by rw [isNumber]; rfl)) line state
      obtain ⟨effect, next⟩ := step
      obtain ⟨effects, final⟩ := ih (start + 1) later (line + 1)
        (readLine calculate line written state).2
      simp only [List.map_cons, readLines, next]
      exact ⟨congrArg₂ List.cons effect effects, final⟩

theorem runsBetweenChanges_withoutCommand {α : Type} (effects : List (LineEffect α)) :
    runsBetweenChanges (effects.map LineEffect.withoutCommand) = runsBetweenChanges effects := by
  induction effects with
  | nil => rfl
  | cons effect rest ih =>
      simp only [List.map_cons, runsBetweenChanges, ih, LineEffect.withoutCommand]

theorem newline_notMem_numberedLine (number : Option LineNumber) {line : List Char}
    (oneLine : '\n' ∉ line) : '\n' ∉ numberedLine number line := by
  cases number with
  | none => exact oneLine
  | some number =>
      have inDigits : '\n' ∉ number.digits := fun inside =>
        absurd (number.isDigits '\n' inside) (by decide)
      simp [numberedLine, inDigits, oneLine]

theorem textLines_numberedText (numbers : Nat → Option LineNumber) (text : String) :
    textLines (numberedText numbers text).toList =
      (textLines text.toList).zipIdx.map fun entry => numberedLine (numbers entry.2) entry.1 := by
  have nonempty : ((textLines text.toList).zipIdx.map fun entry =>
      numberedLine (numbers entry.2) entry.1) ≠ [] := by
    simpa [textLines] using Text.splitOn_ne_nil (· == '\n') text.toList
  rw [numberedText, textLines_textOf, if_neg nonempty]
  intro numbered isNumbered
  obtain ⟨entry, isEntry, rfl⟩ := List.mem_map.mp isNumbered
  have isLine : entry.1 ∈ textLines text.toList := List.fst_mem_of_mem_zipIdx isEntry
  exact newline_notMem_numberedLine _ fun inside =>
    absurd (Text.notSeparates_of_mem_splitOn isLine '\n' inside) (by simp)

end Lines

section Programs

variable [Scalar α] (calculate : String → Except String α)

/-- Line numbers are transparent: a program with numbers in front of lines that are neither
blank nor remarks nor assignments has the same points, runs, units and warnings. -/
theorem readProgram_numberedText (tool : Nat) (numbers : Nat → Option LineNumber) (text : String)
    (numberable : ∀ entry ∈ (textLines text.toList).zipIdx,
      (numbers entry.2).isSome → IsNumberable entry.1) :
    let outcome := readProgram calculate tool text
    let again := readProgram calculate tool (numberedText numbers text)
    again.toolpath = outcome.toolpath ∧ again.segments = outcome.segments ∧
      again.units = outcome.units ∧ again.warnings = outcome.warnings := by
  obtain ⟨effects, final⟩ := readLines_numbered calculate numbers (textLines text.toList) 0
    numberable 1 (.start tool)
  have points := congrArg (List.filterMap LineEffect.point) effects
  have warnings := congrArg (List.flatMap LineEffect.warnings) effects
  have runs := congrArg runsBetweenChanges effects
  rw [List.filterMap_map, List.filterMap_map] at points
  rw [List.flatMap_map, List.flatMap_map] at warnings
  rw [runsBetweenChanges_withoutCommand, runsBetweenChanges_withoutCommand] at runs
  simp only [readProgram, textLines_numberedText, segmentsOf, runs, final, true_and]
  exact ⟨congrArg wholePath points, warnings⟩

end Programs

section Instance

/-- A number in decimal digits. -/
def LineNumber.ofNat (number : Nat) : LineNumber where
  digits := Nat.toDigits 10 number
  nonempty := Nat.toDigits_ne_nil
  isDigits _digit := Nat.isDigit_of_mem_toDigits (by decide) (by decide)

/-- Words, an expression, an unknown variable, comments and blanks, with an assignment. -/
def holesText : String :=
  "%\nO7\n#1=5 (depth)\n(holes)\n T2 M6 (drill)\r\nG81 X1 Z[0-#1] R2\n\n X4 ; more\nG2 Z[#2]\n%"

/-- Numbers for the lines of words alone. -/
def holesNumbers (index : Nat) : Option LineNumber :=
  if index ∈ [1, 4, 5, 7, 8] then some (.ofNat (10 * index)) else none

theorem readProgram_numberedText_holes :
    (∀ entry ∈ (textLines holesText.toList).zipIdx,
        (holesNumbers entry.2).isSome → IsNumberable entry.1) ∧
      let outcome := readProgram Expression.number 1 holesText
      let again := readProgram Expression.number 1 (numberedText holesNumbers holesText)
      again.toolpath = outcome.toolpath ∧ again.segments = outcome.segments ∧
        again.units = outcome.units ∧ again.warnings = outcome.warnings := by
  have numberable : ∀ entry ∈ (textLines holesText.toList).zipIdx,
      (holesNumbers entry.2).isSome → IsNumberable entry.1 := by
    decide +kernel
  exact ⟨numberable, readProgram_numberedText Expression.number 1 holesNumbers holesText numberable⟩

/-- An assignment, and a move to its variable. -/
def offsetText : String := "#1=5\nG0 X#1"

/-- An assignment behind a number assigns nothing, and the move goes elsewhere. -/
theorem readProgram_numberedText_offset :
    let numbers (index : Nat) := some (LineNumber.ofNat (10 * index + 10))
    let outcome := readProgram Expression.number 1 offsetText
    let again := readProgram Expression.number 1 (numberedText numbers offsetText)
    numberedText numbers offsetText = "N10 #1=5\nN20 G0 X#1" ∧
      outcome.toolpath.points.map (·.position.x) = [5] ∧ outcome.warnings = [] ∧
      again.toolpath.points.map (·.position.x) = [0] ∧
      again.warnings = [.unresolvedVariable 2 "1"] := by
  decide +kernel

end Instance

end Milling.Program

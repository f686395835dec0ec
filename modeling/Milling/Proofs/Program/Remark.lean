import Mathlib
import Milling.Proofs.Program.Gathering
import Milling.Proofs.Program.Line

/-!
# Reading past remarks

Lines that differ at most in what their remarks say lead to the same state and
to the same points, their comments aside.
-/

namespace Milling

variable {α : Type}

/-- A point without its comment. -/
def MotionPoint.uncommented (point : MotionPoint α) : MotionPoint α :=
  { point with comment := none }

namespace Program

/-- What reading a program gives whatever its comments say. -/
def Outcome.uncommented (outcome : Outcome α) : List (MotionPoint α) × Units :=
  (outcome.toolpath.points.map MotionPoint.uncommented, outcome.units)

/-- A remark on one line without blanks at its end. -/
structure IsTidyNote (note : List Char) : Prop where
  isNote : IsNote note
  oneLine : '\n' ∉ note
  trimmed : ∀ last ∈ note.getLast?, Text.isBlank last = false

/-- Lines that differ at most in their remarks. -/
inductive Alike : List Char → List Char → Prop where
  | same (line : List Char) : Alike line line
  | remarks {first second : List Char} (isFirst : IsTidyNote first)
      (isSecond : IsTidyNote second) : Alike first second
  | noted {words : List (List Char)} {first second : Option (List Char)}
      (nonempty : words ≠ []) (plain : ∀ word ∈ words, IsPlainWord word)
      (isFirst : ∀ note ∈ first, IsTidyNote note)
      (isSecond : ∀ note ∈ second, IsTidyNote note) :
      Alike (noted words first) (noted words second)

/-- Lines that are alike are equal, or neither of them has a line break. -/
theorem Alike.oneLine {first second : List Char} (alike : Alike first second) :
    first = second ∨ ('\n' ∉ first ∧ '\n' ∉ second) := by
  cases alike with
  | same => exact .inl rfl
  | remarks isFirst isSecond => exact .inr ⟨isFirst.oneLine, isSecond.oneLine⟩
  | noted _ plain isFirst isSecond =>
      exact .inr ⟨newline_notMem_noted plain fun note member => (isFirst note member).oneLine,
        newline_notMem_noted plain fun note member => (isSecond note member).oneLine⟩

theorem forall₂_textLines {firsts seconds : List (List Char)}
    (alike : List.Forall₂ Alike firsts seconds) :
    List.Forall₂ Alike (textLines (firsts.flatMap fun line => line ++ ['\n']))
      (textLines (seconds.flatMap fun line => line ++ ['\n'])) := by
  induction alike with
  | nil => exact .cons (.same []) .nil
  | @cons first second firsts seconds here _ ih =>
      rw [List.flatMap_cons, List.flatMap_cons, List.append_assoc, List.append_assoc]
      rcases here.oneLine with rfl | ⟨firstLine, secondLine⟩
      · have unbroken : ∀ pieces : List (List Char), List.Forall₂ Alike pieces pieces :=
          fun pieces => List.forall₂_same.mpr fun line _ => .same line
        have broken := @Text.splitOn_append_separator _ (· == '\n') '\n' rfl first
        simp only [textLines, List.singleton_append] at ih ⊢
        rw [broken, broken]
        exact List.rel_append (unbroken _) ih
      · have whole : ∀ line : List Char, '\n' ∉ line → ∀ character ∈ line,
            (character == '\n') = false := by
          intro line notIn character member
          rw [beq_eq_false_iff_ne]
          rintro rfl
          exact notIn member
        simp only [textLines, List.singleton_append] at ih ⊢
        rw [Text.splitOn_append_cons (whole first firstLine) rfl,
          Text.splitOn_append_cons (whole second secondLine) rfl]
        exact .cons here ih

variable [Scalar α] (calculate : String → Except String α)

theorem readWords_congr {code other : List Char}
    (tokens : tokenize (α := α) code = tokenize other) (line : Nat) (raw rawOther : String)
    (comment commentOther : Option String) (state : ReadingState α) :
    (readWords calculate line raw code comment state).2 =
        (readWords calculate line rawOther other commentOther state).2 ∧
      (readWords calculate line raw code comment state).1.point.map
          MotionPoint.uncommented =
        (readWords calculate line rawOther other commentOther state).1.point.map
          MotionPoint.uncommented := by
  simp only [readWords, tokens]
  split
  · exact ⟨rfl, rfl⟩
  · split
    · simp only [moveTo]
      split
      · exact ⟨rfl, rfl⟩
      · exact ⟨rfl, rfl⟩
    · exact ⟨rfl, rfl⟩

theorem readLine_alike {first second : List Char} (alike : Alike first second) (line : Nat)
    (state : ReadingState α) :
    (readLine calculate line first state).2 = (readLine calculate line second state).2 ∧
      (readLine calculate line first state).1.point.map MotionPoint.uncommented =
        (readLine calculate line second state).1.point.map MotionPoint.uncommented := by
  cases alike with
  | same => exact ⟨rfl, rfl⟩
  | remarks isFirst isSecond =>
      rw [readLine_note calculate line state isFirst.isNote,
        readLine_note calculate line state isSecond.isNote]
      exact ⟨rfl, rfl⟩
  | @noted words firstNote secondNote nonempty plain isFirst isSecond =>
      obtain ⟨raw, count, comment, read⟩ := readLine_plain calculate line state nonempty plain
        (fun note member => (isFirst note member).isNote)
        (fun note member => (isFirst note member).trimmed)
      obtain ⟨rawOther, countOther, commentOther, readOther⟩ :=
        readLine_plain calculate line state nonempty plain
          (fun note member => (isSecond note member).isNote)
          (fun note member => (isSecond note member).trimmed)
      have tokens : tokenize (α := α) (joined words ++ List.replicate count ' ') =
          tokenize (joined words ++ List.replicate countOther ' ') := by
        rw [tokenize_joined_plain plain, tokenize_joined_plain plain]
      rw [read, readOther]
      exact readWords_congr calculate tokens line raw rawOther comment commentOther state

theorem readLines_alike {firsts seconds : List (List Char)}
    (alike : List.Forall₂ Alike firsts seconds) (line : Nat) (state : ReadingState α) :
    (readLines calculate line state firsts).2 = (readLines calculate line state seconds).2 ∧
      ((readLines calculate line state firsts).1.filterMap LineEffect.point).map
          MotionPoint.uncommented =
        ((readLines calculate line state seconds).1.filterMap LineEffect.point).map
          MotionPoint.uncommented := by
  induction alike generalizing line state with
  | nil => exact ⟨rfl, rfl⟩
  | @cons first second firsts seconds here _ ih =>
      obtain ⟨next, points⟩ := readLine_alike calculate here line state
      obtain ⟨final, later⟩ := ih (line + 1) (readLine calculate line second state).2
      simp only [readLines, next]
      refine ⟨final, ?_⟩
      simp only [List.map_filterMap] at later ⊢
      rw [List.filterMap_cons, List.filterMap_cons, points, later]

theorem readProgram_alike {firsts seconds : List (List Char)}
    (alike : List.Forall₂ Alike firsts seconds) (tool : Nat) :
    (readProgram calculate tool
        (String.ofList (firsts.flatMap fun line => line ++ ['\n']))).uncommented =
      (readProgram calculate tool
        (String.ofList (seconds.flatMap fun line => line ++ ['\n']))).uncommented := by
  obtain ⟨final, points⟩ :=
    readLines_alike calculate (forall₂_textLines alike) 1 (.start tool)
  simp only [Outcome.uncommented, readProgram, String.toList_ofList, wholePath_points, points,
    final]

end Program

end Milling

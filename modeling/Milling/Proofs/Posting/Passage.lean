import Milling.Proofs.Posting.Compaction
import Milling.Proofs.Program.Gathering

/-!
# From draft lines to points

The lines of a draft are compacted and then read.  `Passes` follows both at
once: what compaction has in force and what the reading has reached, before
and after the lines, and the points that come out.
-/

namespace Milling.Posting

open Program (IsWord IsNote Gathers LineEffect Parameters ReadingState obey readLine readLines)

/-- What compaction has in force, and what the reading has reached. -/
structure Stage (α : Type) where
  inForce : InForce
  reading : ReadingState α

variable {α : Type} [Scalar α] (calculate : String → Except String α)

/-- Lines, compacted and read from a stage on, lead to another stage and to
points of a kind, on whatever lines of the program they stand. -/
def Passes (lines : List Line) (before after : Stage α)
    (given : List (MotionPoint α) → Prop) : Prop :=
  ∃ written,
    (∀ rest, compactFrom before.inForce (lines ++ rest) =
      written ++ compactFrom after.inForce rest) ∧
    (∀ line ∈ written, '\n' ∉ line) ∧
    ∀ number, ∃ effects,
      readLines calculate number before.reading written = (effects, after.reading) ∧
        given (effects.filterMap LineEffect.point)

theorem readLines_append (number : Nat) (state : ReadingState α)
    (first second : List (List Char)) :
    readLines calculate number state (first ++ second) =
      ((readLines calculate number state first).1 ++
          (readLines calculate (number + first.length)
            (readLines calculate number state first).2 second).1,
        (readLines calculate (number + first.length)
          (readLines calculate number state first).2 second).2) := by
  induction first generalizing number state with
  | nil => rfl
  | cons line first ih =>
      have tail := ih (number + 1) (readLine calculate number line state).2
      have shift : number + (first.length + 1) = number + 1 + first.length := by omega
      simp only [List.cons_append, readLines, tail, List.length_cons, shift]

namespace Passes

variable {calculate}

theorem nil (stage : Stage α) : Passes calculate [] stage stage (· = []) :=
  ⟨[], fun _ => rfl, by simp, fun _ => ⟨[], rfl, rfl⟩⟩

theorem append {first second : List Line} {before middle after : Stage α}
    {firstGiven secondGiven given : List (MotionPoint α) → Prop}
    (front : Passes calculate first before middle firstGiven)
    (back : Passes calculate second middle after secondGiven)
    (both : ∀ left right, firstGiven left → secondGiven right → given (left ++ right)) :
    Passes calculate (first ++ second) before after given := by
  obtain ⟨frontWritten, frontCompact, frontLines, frontRead⟩ := front
  obtain ⟨backWritten, backCompact, backLines, backRead⟩ := back
  refine ⟨frontWritten ++ backWritten, ?_, ?_, ?_⟩
  · intro rest
    rw [List.append_assoc, frontCompact, backCompact, List.append_assoc]
  · intro line member
    rcases List.mem_append.mp member with inFront | inBack
    · exact frontLines line inFront
    · exact backLines line inBack
  · intro number
    obtain ⟨frontEffects, frontEq, frontHolds⟩ := frontRead number
    obtain ⟨backEffects, backEq, backHolds⟩ := backRead (number + frontWritten.length)
    refine ⟨frontEffects ++ backEffects, ?_, ?_⟩
    · rw [readLines_append, frontEq]
      simp only [backEq]
    · rw [List.filterMap_append]
      exact both _ _ frontHolds backHolds

theorem mono {lines : List Line} {before after : Stage α}
    {strong weak : List (MotionPoint α) → Prop}
    (passes : Passes calculate lines before after strong)
    (implies : ∀ points, strong points → weak points) :
    Passes calculate lines before after weak := by
  obtain ⟨written, compacted, oneLine, read⟩ := passes
  refine ⟨written, compacted, oneLine, ?_⟩
  intro number
  obtain ⟨effects, equation, holds⟩ := read number
  exact ⟨effects, equation, implies _ holds⟩

theorem andThen {first second : List Line} {before middle after : Stage α}
    {firstGiven secondGiven : List (MotionPoint α) → Prop}
    (front : Passes calculate first before middle firstGiven)
    (back : Passes calculate second middle after secondGiven) :
    Passes calculate (first ++ second) before after (fun given =>
      ∃ left right, given = left ++ right ∧ firstGiven left ∧ secondGiven right) :=
  front.append back fun left right inFirst inSecond => ⟨left, right, rfl, inFirst, inSecond⟩

/-- Lines that give no points, one after the other. -/
theorem append_silent {first second : List Line} {before middle after : Stage α}
    (front : Passes calculate first before middle (· = []))
    {given : List (MotionPoint α) → Prop}
    (back : Passes calculate second middle after given) :
    Passes calculate (first ++ second) before after given := by
  refine front.append back ?_
  rintro left right rfl holds
  exact holds

theorem line {line written : Line} {inForce nextForce : InForce} {state next : ReadingState α}
    (compacted : compactLine inForce line = (nextForce, some written))
    (oneLine : '\n' ∉ written) {given : List (MotionPoint α) → Prop}
    (read : ∀ number, ∃ effect, readLine calculate number written state = (effect, next) ∧
      given effect.point.toList) :
    Passes calculate [line] { inForce, reading := state }
      { inForce := nextForce, reading := next } given := by
  refine ⟨[written], ?_, by simpa using oneLine, ?_⟩
  · intro rest
    rw [List.cons_append, compactFrom, compacted]
    rfl
  · intro number
    obtain ⟨effect, equation, holds⟩ := read number
    refine ⟨[effect], by simp only [readLines, equation], ?_⟩
    cases result : effect.point with
    | none => simpa [result] using holds
    | some point => simpa [result] using holds

theorem remark {first : Char} {rest : Line}
    (starts : startsComment first = true ∨ (first = '%' ∧ rest = []))
    (oneLine : '\n' ∉ first :: rest) (stage : Stage α) :
    Passes calculate [first :: rest] stage stage (· = []) := by
  have solid : Text.isBlank first = false := by
    rcases starts with comment | ⟨rfl, _⟩
    · simp only [startsComment, Bool.or_eq_true, beq_iff_eq] at comment
      rcases comment with rfl | rfl <;> decide
    · decide
  have compacted : compactLine stage.inForce (first :: rest) =
      (stage.inForce, some (first :: Text.trimEnd rest)) :=
    compactLine_remark stage.inForce rest solid (starts.imp id And.left)
  have skipped : ∀ number,
      readLine calculate number (first :: Text.trimEnd rest) stage.reading =
        ({}, stage.reading) := by
    intro number
    rcases starts with comment | ⟨rfl, rfl⟩
    · exact Program.readLine_remark calculate number stage.reading
        (by simpa [startsComment] using comment) _
    · exact Program.readLine_percent calculate number stage.reading
  refine Passes.line compacted ?_ fun number => ⟨{}, skipped number, rfl⟩
  intro inside
  apply oneLine
  rcases List.mem_cons.mp inside with head | tail
  · exact head ▸ List.mem_cons_self
  · exact List.mem_cons_of_mem first (Text.mem_of_mem_dropEndWhile tail)

theorem words {inForce : InForce} {state next : ReadingState α} {words : List Line}
    (nonempty : words ≠ []) (plain : ∀ word ∈ words, IsWord word)
    {note : Option Line} (isNote : ∀ remark ∈ note, IsNote remark)
    (oneLine : ∀ remark ∈ note, '\n' ∉ remark)
    (noteKept : (keepWords inForce words).2 = [] → note = none)
    {codes : List Program.Code} {entries : List (Char × α)}
    (gathers : Gathers (keepWords inForce words).2 codes entries)
    {given : List (MotionPoint α) → Prop}
    (obeyed : ∀ line comment,
      (obey line comment codes (Parameters.insertAll {} entries) state).2 = next ∧
        given (obey line comment codes (Parameters.insertAll {} entries) state).1.toList) :
    Passes calculate [Program.noted words note] { inForce, reading := state }
      { inForce := (keepWords inForce words).1, reading := next } given := by
  have compacted := compactLine_noted inForce nonempty
    (fun word member => (plain word member).isPlain) isNote
  by_cases empty : (keepWords inForce words).2 = []
  · have noNote := noteKept empty
    subst noNote
    rw [empty] at gathers
    cases gathers
    have still := obeyed 0 none
    rw [Parameters.insertAll, List.foldl_nil, Program.obey_nothing] at still
    obtain ⟨rfl, holds⟩ := still
    refine ⟨[], ?_, by simp, fun _ => ⟨[], rfl, holds⟩⟩
    intro rest
    rw [List.cons_append, compactFrom, compacted, empty]
    rfl
  · have keptPlain : ∀ word ∈ (keepWords inForce words).2, IsWord word :=
      fun word member => plain word (mem_of_mem_keepWords member)
    have keptNote : ∀ remark ∈ note.map Text.trimEnd, IsNote remark := by
      intro remark member
      obtain ⟨original, originalMember, rfl⟩ := Option.map_eq_some_iff.mp member
      exact isNote_trimEnd (isNote original originalMember)
    have keptTrimmed : ∀ remark ∈ note.map Text.trimEnd,
        ∀ last ∈ remark.getLast?, Text.isBlank last = false := by
      intro remark member
      obtain ⟨original, _, rfl⟩ := Option.map_eq_some_iff.mp member
      exact Text.getLast?_trimEnd
    have keptOneLine : ∀ remark ∈ note.map Text.trimEnd, '\n' ∉ remark := by
      intro remark member inside
      obtain ⟨original, originalMember, rfl⟩ := Option.map_eq_some_iff.mp member
      exact oneLine original originalMember (Text.mem_of_mem_dropEndWhile inside)
    rw [if_neg fun gone => empty gone.1] at compacted
    refine Passes.line compacted (Program.newline_notMem_noted
      (fun word inKept => (keptPlain word inKept).isPlain) keptOneLine) ?_
    intro number
    obtain ⟨raw, code, comment, read, tokenized⟩ :=
      Program.readLine_noted calculate number state empty keptPlain keptNote keptTrimmed
    have results := Program.readWords_of_gathers calculate gathers number raw comment
      state tokenized
    obtain ⟨reached, holds⟩ := obeyed number comment
    rw [← results] at reached holds
    exact ⟨_, by rw [read, ← reached], holds⟩

end Passes

end Milling.Posting

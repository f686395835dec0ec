import Mathlib
import Milling.Proofs.Program.Findings

/-!
# Where results come from

Commands, points and warnings carry the number of the line that they come from.
Lines are read in order, so each of these lists names its lines in order too,
and a line that gives a point has a command.
-/

namespace Milling.Program

variable {α : Type}

/-- Faults that are all found on one line. -/
def AllOn (line : Nat) (faults : List (Fault α)) : Prop :=
  ∀ fault ∈ faults, fault.line? = some line

theorem AllOn.nil (line : Nat) : AllOn (α := α) line [] := List.forall_mem_nil _

theorem AllOn.append {line : Nat} {first second : List (Fault α)} (front : AllOn line first)
    (back : AllOn line second) : AllOn line (first ++ second) :=
  List.forall_mem_append.mpr ⟨front, back⟩

theorem AllOn.singleton {line : Nat} {fault : Fault α} (found : fault.line? = some line) :
    AllOn line [fault] :=
  List.forall_mem_singleton.mpr found

variable [Scalar α] (calculate : String → Except String α)

section Lines

theorem allOn_evaluateOn (table : Variables α) (line : Nat) (expression : String) :
    AllOn line (evaluateOn calculate table line expression).2 := by
  refine AllOn.append ?_ ?_
  · intro fault member
    obtain ⟨number, _, rfl⟩ := List.mem_map.mp member
    rfl
  · split
    · exact .singleton rfl
    · exact .nil line

theorem allOn_resolve (table : Variables α) (line : Nat) (letter : Char) (value : WordValue α) :
    AllOn line (resolve calculate table line letter value).2 := by
  cases value with
  | number value => exact .nil line
  | expression text => exact allOn_evaluateOn calculate table line text
  | invalid text => exact .singleton rfl

theorem WordReading.allOn_add {reading : WordReading α} {line : Nat}
    (before : AllOn line reading.warnings) (table : Variables α) (token : Token α) :
    AllOn line (reading.add calculate table line token).warnings := by
  cases token with
  | expression text => exact before.append (allOn_evaluateOn calculate table line text)
  | word letter value raw =>
      unfold WordReading.add
      dsimp only
      split
      · split
        · exact before
        · exact before.append (.singleton rfl)
      · split
        · exact before.append (allOn_resolve calculate table line letter value)
        · exact before

theorem WordReading.allOn_foldl {reading : WordReading α} {line : Nat}
    (before : AllOn line reading.warnings) (table : Variables α) (tokens : List (Token α)) :
    AllOn line (tokens.foldl (WordReading.add calculate table line) reading).warnings := by
  induction tokens generalizing reading with
  | nil => exact before
  | cons token tokens ih => exact ih (WordReading.allOn_add calculate before table token)

theorem allOn_selectTool (line : Nat) (word : Option α) (state : ReadingState α) :
    AllOn line (selectTool line word state).2.2 := by
  unfold selectTool
  split
  · exact .nil line
  · split
    · exact .singleton rfl
    · split <;> exact .nil line

theorem allOn_moveTo (line : Nat) (parameters : Parameters α) (comment : Option String)
    (state : ReadingState α) : AllOn line (moveTo line parameters comment state).2.2 := by
  cases given : motionOf? state parameters with
  | none =>
      simp only [moveTo, given]
      exact .nil line
  | some found =>
      obtain ⟨motion, retract⟩ := found
      simp only [moveTo, given]
      split
      · split
        · exact .nil line
        · exact .singleton rfl
      · exact .nil line

theorem allOn_readWords (line : Nat) (raw : String) (code : List Char)
    (comment : Option String) (state : ReadingState α) :
    AllOn line (readWords calculate line raw code comment state).1.warnings := by
  simp only [readWords]
  refine ((WordReading.allOn_foldl calculate (.nil line) _ _).append
    (allOn_selectTool line _ _)).append ?_
  split
  · exact .nil line
  · split
    · exact allOn_moveTo line _ comment _
    · exact .nil line

/-- What the effect of a line tells of the line: its number and its text. -/
structure LineEffect.StemsFrom (line : Nat) (written : List Char) (effect : LineEffect α) :
    Prop where
  command : ∀ command ∈ effect.command, command.line = line ∧
    command.raw = String.ofList (Text.dropEndWhile (· == '\r') written)
  point : ∀ point ∈ effect.point, point.line = some line ∧ effect.command.isSome = true
  warnings : AllOn line effect.warnings

theorem readLine_stemsFrom (line : Nat) (written : List Char) (state : ReadingState α) :
    (readLine calculate line written state).1.StemsFrom line written := by
  have follows := (readLine_follows calculate line written state).1
  refine ⟨?_, ?_, ?_⟩
  · intro command isCommand
    refine ⟨follows.command command isCommand, ?_⟩
    simp only [readLine] at isCommand
    split at isCommand
    · cases isCommand
    · split at isCommand
      · cases isCommand
      · obtain rfl := Option.some.inj isCommand
        rfl
  · intro point isPoint
    obtain ⟨command, isCommand, _⟩ := readLine_gives calculate line written state point isPoint
    exact ⟨(follows.point point isPoint).1, Option.isSome_of_mem isCommand⟩
  · simp only [readLine]
    split
    · exact .nil line
    · split
      · exact allOn_evaluateOn calculate _ line _
      · exact allOn_readWords calculate line _ _ _ state

end Lines

section Programs

/-- The effects of lines, numbered from `line` on, one for each of them. -/
inductive Stems : Nat → List (List Char) → List (LineEffect α) → Prop where
  | nil {line : Nat} : Stems line [] []
  | cons {line : Nat} {first : List Char} {rest : List (List Char)} {effect : LineEffect α}
      {effects : List (LineEffect α)} (here : effect.StemsFrom line first)
      (later : Stems (line + 1) rest effects) : Stems line (first :: rest) (effect :: effects)

theorem readLines_stems (line : Nat) (state : ReadingState α) (written : List (List Char)) :
    Stems line written (readLines calculate line state written).1 := by
  induction written generalizing line state with
  | nil => exact .nil
  | cons first rest ih =>
      exact .cons (readLine_stemsFrom calculate line first state) (ih (line + 1) _)

omit [Scalar α] in
theorem Stems.source {line : Nat} {written : List (List Char)} {effects : List (LineEffect α)}
    (stems : Stems line written effects) :
    ∀ command ∈ effects.filterMap LineEffect.command, ∃ index text,
      command.line = line + index ∧ written[index]? = some text ∧
        command.raw = String.ofList (Text.dropEndWhile (· == '\r') text) := by
  induction stems with
  | nil => simp
  | @cons line first rest effect effects here _ ih =>
      intro command isListed
      obtain ⟨source, isSource, isCommand⟩ := List.mem_filterMap.mp isListed
      rcases List.mem_cons.mp isSource with rfl | inLater
      · obtain ⟨numbered, raw⟩ := here.command command isCommand
        exact ⟨0, first, numbered, rfl, raw⟩
      · obtain ⟨index, text, numbered, isText, raw⟩ :=
          ih command (List.mem_filterMap.mpr ⟨source, inLater, isCommand⟩)
        exact ⟨index + 1, text, by omega, isText, raw⟩

omit [Scalar α] in
theorem Stems.points {line : Nat} {written : List (List Char)} {effects : List (LineEffect α)}
    (stems : Stems line written effects) :
    ∃ numbers : List Nat,
      (effects.filterMap LineEffect.point).map MotionPoint.line = numbers.map some ∧
      numbers.Sublist ((effects.filterMap LineEffect.command).map Command.line) := by
  induction stems with
  | nil => exact ⟨[], rfl, .slnil⟩
  | @cons line first rest effect effects here _ ih =>
      obtain ⟨numbers, numbered, onCommands⟩ := ih
      cases isPoint : effect.point with
      | none =>
          rw [List.filterMap_cons_none isPoint]
          refine ⟨numbers, numbered, onCommands.trans ?_⟩
          exact ((List.sublist_cons_self effect effects).filterMap _).map _
      | some point =>
          obtain ⟨onLine, commanded⟩ := here.point point isPoint
          obtain ⟨command, isCommand⟩ := Option.isSome_iff_exists.mp commanded
          have sameLine := (here.command command isCommand).1
          rw [List.filterMap_cons_some isPoint, List.filterMap_cons_some isCommand,
            List.map_cons, List.map_cons, sameLine]
          exact ⟨line :: numbers, by rw [onLine, numbered]; rfl, onCommands.cons_cons line⟩

omit [Scalar α] in
theorem Stems.warnings {line : Nat} {written : List (List Char)} {effects : List (LineEffect α)}
    (stems : Stems line written effects) :
    ∃ numbers : List Nat, (effects.flatMap LineEffect.warnings).map Fault.line? = numbers.map some ∧
      numbers.Pairwise (· ≤ ·) ∧
      ∀ number ∈ numbers, line ≤ number ∧ number < line + written.length := by
  induction stems with
  | nil => exact ⟨[], rfl, .nil, by simp⟩
  | @cons line first rest effect effects here _ ih =>
      obtain ⟨numbers, numbered, ordered, bounded⟩ := ih
      have found : effect.warnings.map Fault.line? =
          (List.replicate effect.warnings.length line).map some := by
        rw [List.map_replicate, List.eq_replicate_iff]
        refine ⟨List.length_map _, fun number isFound => ?_⟩
        obtain ⟨fault, isFault, rfl⟩ := List.mem_map.mp isFound
        exact here.warnings fault isFault
      refine ⟨List.replicate effect.warnings.length line ++ numbers, ?_, ?_, ?_⟩
      · rw [List.flatMap_cons, List.map_append, List.map_append, found, numbered]
      · refine List.pairwise_append.mpr ⟨List.pairwise_replicate.mpr (.inr le_rfl), ordered, ?_⟩
        intro here isHere later isLater
        obtain rfl := List.eq_of_mem_replicate isHere
        have beyond := (bounded later isLater).1
        omega
      · intro number member
        rw [List.length_cons]
        rcases List.mem_append.mp member with isHere | isLater
        · obtain rfl := List.eq_of_mem_replicate isHere
          omega
        · have within := bounded number isLater
          omega

/-- What ties the results of a reading to the lines that were read. -/
structure Outcome.IsTraceable (outcome : Outcome α) (lines : List (List Char)) : Prop where
  commands : (outcome.commands.map Command.line).Pairwise (· < ·)
  sources : ∀ command ∈ outcome.commands, ∃ index text,
    command.line = index + 1 ∧ lines[index]? = some text ∧
      command.raw = String.ofList (Text.dropEndWhile (· == '\r') text)
  points : ∃ numbers : List Nat,
    outcome.toolpath.points.map MotionPoint.line = numbers.map some ∧
      numbers.Pairwise (· < ·) ∧
      ∀ number ∈ numbers, ∃ command ∈ outcome.commands, command.line = number
  warnings : ∃ numbers : List Nat,
    outcome.warnings.map Fault.line? = numbers.map some ∧ numbers.Pairwise (· ≤ ·) ∧
      ∀ number ∈ numbers, 1 ≤ number ∧ number ≤ lines.length

/-- Every result of reading a text is traceable to the line that it comes from. -/
theorem readProgram_isTraceable (tool : Nat) (text : String) :
    (readProgram calculate tool text).IsTraceable (textLines text.toList) := by
  have stems := readLines_stems calculate 1 (.start tool) (textLines text.toList)
  have runs : Runs 1 tool (readLines calculate 1 (.start tool) (textLines text.toList)).1 :=
    readLines_runs calculate 1 (.start tool) (textLines text.toList)
  have rising : ((readProgram calculate tool text).commands.map Command.line).Pairwise (· < ·) :=
    List.pairwise_map.mpr runs.commands_sorted
  refine ⟨rising, ?_, ?_, ?_⟩
  · intro command isCommand
    obtain ⟨index, written, numbered, isLine, raw⟩ := stems.source command isCommand
    exact ⟨index, written, by omega, isLine, raw⟩
  · obtain ⟨numbers, numbered, onCommands⟩ := stems.points
    refine ⟨numbers, by simpa [readProgram] using numbered, rising.sublist onCommands, ?_⟩
    exact fun number member => List.mem_map.mp (onCommands.subset member)
  · obtain ⟨numbers, numbered, ordered, bounded⟩ := stems.warnings
    refine ⟨numbers, numbered, ordered, fun number member => ?_⟩
    have within := bounded number member
    omega

end Programs

end Milling.Program

import Milling.Expression.Evaluation
import Milling.Proofs.Posting.Audit
import Milling.Proofs.Program.Command
import Milling.Proofs.Program.Effect

/-!
# Travel that an audit sees

An audit reads a program on its own, without the state that places depend on.  On
a line that gives plain numbers in absolute mode it sees what the reading of the
program sees: a place out of reach is an error of the line that leads there.
-/

namespace Milling

variable {α : Type}

namespace Program

/-- The value that a token sets a letter to; text that is no number sets nothing. -/
def Token.setting? (letter : Char) : Token α → Option (WordValue α)
  | .word _ (.invalid _) _ => none
  | .word other value _ => if other = letter then some value else none
  | .expression _ => none

/-- The value that tokens set a letter to: the last one counts. -/
def settingValue? (letter : Char) (tokens : List (Token α)) : Option (WordValue α) :=
  (tokens.filterMap (Token.setting? letter)).getLast?

theorem settingValue?_concat (letter : Char) (tokens : List (Token α)) (token : Token α) :
    settingValue? letter (tokens ++ [token]) =
      (token.setting? letter).or (settingValue? letter tokens) := by
  cases set : token.setting? letter with
  | none => simp [settingValue?, List.filterMap_append, set]
  | some value => simp [settingValue?, List.filterMap_append, set]

theorem exists_token_of_settingValue? {letter : Char} {tokens : List (Token α)}
    {value : WordValue α} (set : settingValue? letter tokens = some value) :
    ∃ raw, Token.word letter value raw ∈ tokens := by
  obtain ⟨token, member, isSetting⟩ := List.mem_filterMap.mp (List.mem_of_getLast? set)
  unfold Token.setting? at isSetting
  split at isSetting
  · cases isSetting
  · split at isSetting
    · rename_i same
      obtain rfl := same
      obtain rfl := Option.some.inj isSetting
      exact ⟨_, member⟩
    · cases isSetting
  · cases isSetting

variable [Scalar α] (calculate : String → Except String α)

section Words

variable (table : Variables α) (line : Nat)

/-- A token changes the number of a letter only by setting it. -/
theorem get?_add (letter : Char) (noCode : ¬(letter = 'G' ∨ letter = 'M'))
    (known : letter ∈ parameterLetters) (words : WordReading α) (token : Token α) :
    (words.add calculate table line token).parameters.get? letter =
      match token.setting? letter with
      | some value => (resolve calculate table line letter value).1
      | none => words.parameters.get? letter := by
  cases token with
  | expression text => rfl
  | word other value raw =>
      by_cases same : other = letter
      · subst same
        simp only [WordReading.add, if_neg noCode, if_pos known]
        cases value <;> simp [Token.setting?, resolve, Parameters.get?_insert]
      · have unset : (Token.word other value raw).setting? letter = none := by
          cases value <;> simp [Token.setting?, same]
        have different : ¬letter = other := fun equal => same equal.symm
        rw [unset]
        simp only [WordReading.add]
        split
        · split <;> rfl
        · split
          · cases value <;> simp [resolve, Parameters.get?_insert, different]
          · rfl

theorem get?_foldl_add (letter : Char) (noCode : ¬(letter = 'G' ∨ letter = 'M'))
    (known : letter ∈ parameterLetters) (tokens : List (Token α)) :
    (tokens.foldl (WordReading.add calculate table line) {}).parameters.get? letter =
      match settingValue? letter tokens with
      | some value => (resolve calculate table line letter value).1
      | none => none := by
  induction tokens using List.reverseRecOn with
  | nil => rfl
  | append_singleton tokens token ih =>
      rw [List.foldl_append, List.foldl_cons, List.foldl_nil,
        get?_add calculate table line letter noCode known, ih, settingValue?_concat]
      cases token.setting? letter <;> rfl

end Words

section Lines

variable {line : Nat} {state : ReadingState α} {point : MotionPoint α} {command : Command α}

/-- In absolute mode a point that moves goes where the words of its line say. -/
theorem along_of_readWords {raw : String} {code : List Char} {comment : Option String}
    (isPoint : (readWords calculate line raw code comment state).1.point = some point)
    (isCommand : (readWords calculate line raw code comment state).1.command = some command)
    (moves : point.isDwell = false) (absolute : command.modal.isIncremental = false)
    {axis : Axis} {value : α}
    (set : settingValue? axis.letter command.tokens = some (.number value)) :
    point.position.along axis = value := by
  have given := get?_foldl_add calculate state.assigned line axis.letter
    (by cases axis <;> decide) (by cases axis <;> decide) (tokenize code)
  simp only [readWords] at isPoint isCommand
  rw [← Option.some.inj isCommand] at absolute set
  rw [set] at given
  split at isPoint
  · rw [← Option.some.inj isPoint] at moves
    cases moves
  · split at isPoint
    · unfold moveTo at isPoint
      dsimp only at isPoint
      split at isPoint
      · cases isPoint
      · rw [← Option.some.inj isPoint]
        cases axis <;>
          simp_all [Position.along, targetPosition, targetAlong, selectTool_modal, Axis.letter,
            resolve]
    · cases isPoint

theorem readLine_of_command {written : List Char}
    (isCommand : (readLine calculate line written state).1.command = some command) :
    ∃ comment,
      readLine calculate line written state =
          readWords calculate line command.raw
            (stripComments (Text.trim command.raw.toList)) comment state ∧
        command.raw.toList = Text.dropEndWhile (· == '\r') written ∧
        (Text.trim command.raw.toList).head? ∉ [none, some ';', some '('] := by
  generalize isRead : readLine calculate line written state = result at isCommand ⊢
  simp only [readLine] at isRead
  split at isRead
  · rw [← isRead] at isCommand
    cases isCommand
  · rename_i kept
    split at isRead
    · rw [← isRead] at isCommand
      cases isCommand
    · rw [← isRead] at isCommand
      have isRaw : command.raw = String.ofList (Text.dropEndWhile (· == '\r') written) := by
        rw [← Option.some.inj isCommand]
      refine ⟨_, by rw [isRaw, String.toList_ofList]; exact isRead.symm,
        by rw [isRaw, String.toList_ofList], ?_⟩
      rw [isRaw, String.toList_ofList]
      cases text : Text.trim (Text.dropEndWhile (· == '\r') written) <;> simp_all

end Lines

section Programs

theorem exists_readLine_of_mem {tool : Nat} {text : String} {point : MotionPoint α}
    {command : Command α}
    (isPoint : point ∈ (readProgram calculate tool text).toolpath.points)
    (isCommand : command ∈ (readProgram calculate tool text).commands)
    (together : point.line = some command.line) :
    ∃ index written state, (textLines text.toList)[index]? = some written ∧
      command.line = 1 + index ∧
      (readLine calculate (1 + index) written state).1.point = some point ∧
      (readLine calculate (1 + index) written state).1.command = some command := by
  simp only [readProgram, wholePath_points, List.mem_filterMap] at isPoint isCommand
  obtain ⟨effect, isEffect, hasPoint⟩ := isPoint
  obtain ⟨other, isOther, hasCommand⟩ := isCommand
  obtain ⟨index, isAt⟩ := List.mem_iff_getElem?.mp isEffect
  obtain ⟨place, isThere⟩ := List.mem_iff_getElem?.mp isOther
  obtain ⟨written, state, isWritten, rfl⟩ := exists_of_getElem?_readLines calculate isAt
  obtain ⟨_, _, _, given⟩ := exists_of_getElem?_readLines calculate isThere
  have pointed := ((readLine_follows calculate (1 + index) written state).1.point point hasPoint).1
  have numbered : command.line = 1 + place := by
    rw [given] at hasCommand
    exact (readLine_follows calculate (1 + place) _ _).1.command command hasCommand
  -- A line has one effect, so the same number is the same effect.
  rw [pointed, Option.some.injEq, numbered] at together
  obtain rfl : index = place := by omega
  rw [isAt] at isThere
  obtain rfl := Option.some.inj isThere
  exact ⟨index, written, state, isWritten, numbered, hasPoint, hasCommand⟩

end Programs

end Program

namespace Posting

open Program (readProgram settingValue? textLines tokenize stripComments)

variable [Scalar α] {limits : Limits α}

theorem mem_errors_auditLine {line : Line} {axis : Axis} {value : α} {raw : String}
    (kept : isSkipped (Text.trim line) = false)
    (isToken : .word axis.letter (.number value) raw ∈ tokenize (stripComments (Text.trim line)))
    (outside : limits.along axis / 2 < Scalar.magnitude value) (number : Nat) :
    .outOfBounds number axis.letter value (limits.along axis / 2) ∈
      (auditLine limits number line).errors := by
  have found : .outOfBounds number axis.letter value (limits.along axis / 2) ∈
      (auditWord limits number (.word axis.letter (.number value) raw)).errors := by
    have travel := limits.travel?_letter axis
    cases axis <;>
      simp_all [auditWord, Axis.letter, Report.errorIf, Report.error]
  unfold auditLine
  dsimp only
  rw [kept, if_neg Bool.false_ne_true]
  exact List.mem_append_left _ (List.mem_append_left _
    (List.mem_flatMap.mpr ⟨_, List.mem_map_of_mem isToken, found⟩))

theorem mem_errors_auditProgram {text : String} {index : Nat} {written : Line}
    (isWritten : (textLines text.toList)[index]? = some written)
    {fault : Fault α} (found : fault ∈ (auditLine limits (index + 1) written).errors) :
    fault ∈ (auditProgram limits text).errors := by
  have nonempty : written ≠ [] := by
    rintro rfl
    cases found
  obtain ⟨line, isLine, same⟩ := Text.exists_getElem?_lines isWritten nonempty
  rw [auditLine_of_trim_eq same.symm] at found
  refine List.mem_flatMap.mpr ⟨_, List.mem_map.mpr ⟨(line, index), ?_, rfl⟩, found⟩
  exact List.mem_zipIdx_iff_getElem?.mpr isLine

/-- The audit sees the travel that the reading sees, where a plain number leads there. -/
theorem auditProgram_outOfBounds (calculate : String → Except String α) (tool : Nat)
    (limits : Limits α) (text : String) {point : MotionPoint α} {command : Program.Command α}
    (isPoint : point ∈ (readProgram calculate tool text).toolpath.points)
    (isCommand : command ∈ (readProgram calculate tool text).commands)
    (together : point.line = some command.line)
    (absolute : command.modal.isIncremental = false) (moves : point.isDwell = false)
    (noFrame : (Text.trim command.raw.toList).head? ≠ some '%')
    {axis : Axis} {value : α}
    (set : settingValue? axis.letter command.tokens = some (.number value))
    (outside : limits.along axis / 2 < Scalar.magnitude (point.position.along axis)) :
    .outOfBounds command.line axis.letter (point.position.along axis) (limits.along axis / 2) ∈
      (auditProgram limits text).errors := by
  obtain ⟨index, written, state, isWritten, numbered, hasPoint, hasCommand⟩ :=
    Program.exists_readLine_of_mem calculate isPoint isCommand together
  obtain ⟨comment, isRead, isRaw, starts⟩ := Program.readLine_of_command calculate hasCommand
  rw [isRead] at hasPoint hasCommand
  have reached := Program.along_of_readWords calculate hasPoint hasCommand moves absolute set
  obtain ⟨raw, isToken⟩ := Program.exists_token_of_settingValue? set
  have tokens : command.tokens = tokenize (stripComments (Text.trim command.raw.toList)) := by
    rw [← Option.some.inj hasCommand]
  rw [tokens] at isToken
  -- Of the lines that an audit skips only those of a frame can have a command.
  have kept : isSkipped (Text.trim command.raw.toList) = false := by
    cases text : Text.trim command.raw.toList <;> simp_all [isSkipped]
  have same : Text.trim command.raw.toList = Text.trim written := by
    rw [isRaw]
    refine Text.trim_dropEndWhile (fun character returns => ?_) written
    rw [eq_of_beq returns]
    decide
  rw [same] at kept isToken
  rw [reached] at outside ⊢
  rw [numbered, Nat.add_comm]
  exact mem_errors_auditProgram isWritten (mem_errors_auditLine kept isToken outside _)

section Instance

/-- A slot that ends out of reach. -/
def longSlot : String := "G21 G90\nG0 X10 Y5 ; start\nG1 Y20 F100 X300.5 (slot)\n"

theorem auditProgram_outOfBounds_longSlot :
    let outcome := readProgram Expression.number 1 longSlot
    ∃ point ∈ outcome.toolpath.points, ∃ command ∈ outcome.commands,
      (point.line = some command.line ∧ command.modal.isIncremental = false ∧
        point.isDwell = false ∧ (Text.trim command.raw.toList).head? ≠ some '%' ∧
        settingValue? Axis.x.letter command.tokens = some (.number 300.5) ∧
        Limits.standard.along .x / 2 < Scalar.magnitude (point.position.along .x)) ∧
      .outOfBounds command.line Axis.x.letter (point.position.along .x)
          (Limits.standard.along .x / 2) ∈
        (auditProgram Limits.standard longSlot).errors := by
  have leads : ∃ point ∈ (readProgram Expression.number 1 longSlot).toolpath.points,
      ∃ command ∈ (readProgram Expression.number 1 longSlot).commands,
        point.line = some command.line ∧ command.modal.isIncremental = false ∧
          point.isDwell = false ∧ (Text.trim command.raw.toList).head? ≠ some '%' ∧
          settingValue? Axis.x.letter command.tokens = some (.number 300.5) ∧
          Limits.standard.along .x / 2 < Scalar.magnitude (point.position.along .x) := by
    decide +kernel
  obtain ⟨point, isPoint, command, isCommand, together, absolute, moves, noFrame, set,
    outside⟩ := leads
  exact ⟨point, isPoint, command, isCommand,
    ⟨together, absolute, moves, noFrame, set, outside⟩,
    auditProgram_outOfBounds Expression.number 1 Limits.standard longSlot isPoint isCommand
      together absolute moves noFrame set outside⟩

/-- Only the plain number is seen: the wait at the place that it leads to, the line behind a
percent sign and the number in brackets are not. -/
theorem auditProgram_unseen :
    let text := "G0 X300\nG4 X1 P1\n%G0 X301\nG0 X[302]\n"
    let outcome := readProgram Expression.number 1 text
    (outcome.toolpath.points.map fun point => (point.line, point.position.x)) =
        [(some 1, 300), (some 2, 300), (some 3, 301), (some 4, 302)] ∧
      (outcome.commands.map fun command => (command.line, command.modal.isIncremental,
          (settingValue? 'X' command.tokens).isSome)) =
        [(1, false, true), (2, false, true), (3, false, true), (4, false, true)] ∧
      Limits.standard.along .x / 2 = (250 : Float) ∧
      (auditProgram (α := Float) Limits.standard text).errors.map Fault.line? = [some 1] := by
  decide +kernel

end Instance

end Posting

end Milling

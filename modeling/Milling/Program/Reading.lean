import Milling.Program.Command
import Milling.Program.Token
import Milling.Program.Variable
import Milling.Report.Basic
import Milling.Toolpath.Basic

/-!
# Reading programs

A program is read line by line.  A line changes the state of the reading and
has an effect of its own: a command, at most one motion point, a change of
tool, and the faults found on it.  Nothing stops the reading; a word that
makes no sense is a warning.
-/

namespace Milling.Program

variable {α : Type}

/-- What is carried from line to line. -/
structure ReadingState (α : Type) where
  modal : ModalState := {}
  assigned : Variables α := {}
  position : Position α
  rotary : Option α := none
  feed : Option α := none
  spindle : Option α := none
  retract : Option α := none
  tool : Nat

/-- What one line gives. -/
structure LineEffect (α : Type) where
  command : Option (Command α) := none
  point : Option (MotionPoint α) := none
  /-- The tool that the line changes to. -/
  toolChange : Option Nat := none
  warnings : List (Fault α) := []

/-- The result of reading a program. -/
structure Outcome (α : Type) where
  toolpath : Toolpath α
  segments : List (Toolpath α)
  commands : List (Command α)
  /-- The units in force at the end. -/
  units : Units
  warnings : List (Fault α)

def defaultTool : Nat := 1

def parameterLetters : List Char := writtenOrder

/-- Words read so far on a line. -/
structure WordReading (α : Type) where
  codes : List Code := []
  parameters : Parameters α := {}
  warnings : List (Fault α) := []

section

variable [Scalar α] (calculate : String → Except String α)

def ReadingState.start (tool : Nat) : ReadingState α := { position := .origin, tool }

def evaluateOn (table : Variables α) (line : Nat) (expression : String) :
    α × List (Fault α) :=
  let evaluation := table.evaluate calculate expression
  let unresolved := evaluation.unresolved.map fun number =>
    Fault.unresolvedVariable line (toString number)
  let failed := match evaluation.error with
    | some reason => [.expressionFailed line expression reason]
    | none => []
  (evaluation.value, unresolved ++ failed)

def resolve (table : Variables α) (line : Nat) (letter : Char) :
    WordValue α → Option α × List (Fault α)
  | .number value => (some value, [])
  | .expression text =>
      let (value, faults) := evaluateOn calculate table line text
      (some value, faults)
  | .invalid text =>
      (none, [.invalidParameter line letter.toString ("'" ++ text ++ "' is not a number")])

def WordReading.add (table : Variables α) (line : Nat) (words : WordReading α) :
    Token α → WordReading α
  | .expression text =>
      { words with
        warnings := words.warnings ++ (evaluateOn calculate table line text).2 }
  | .word letter value raw =>
      if letter = 'G' ∨ letter = 'M' then
        match value, Code.read? letter raw.toList with
        | .number _, some code => { words with codes := words.codes ++ [code] }
        | _, _ =>
            { words with
              warnings := words.warnings ++ [.invalidParameter line letter.toString
                ("'" ++ raw ++ "' is not a valid code number")] }
      else if letter ∈ parameterLetters then
        let (number, faults) := resolve calculate table line letter value
        { words with
          parameters := match number with
            | some given => words.parameters.insert letter given
            | none => words.parameters
          warnings := words.warnings ++ faults }
      else words

/-- The tool that a tool word selects; `none` where it is no tool number. -/
def selectedTool? (value : α) : Option Nat :=
  if decide (0 ≤ value) && Scalar.isWhole value &&
      decide (value ≤ Scalar.ofInt ToolChange.greatestTool) then
    some (Scalar.floor value).toNat
  else none

def selectTool (line : Nat) (word : Option α) (state : ReadingState α) :
    ReadingState α × Option Nat × List (Fault α) :=
  match word with
  | none => (state, none, [])
  | some value =>
      match selectedTool? value with
      | none =>
          (state, none, [.invalidParameter line "T"
            (Scalar.toText value ++ " is not a tool number")])
      | some tool =>
          if tool = state.tool then (state, none, [])
          else ({ state with tool }, some tool, [])

def targetAlong (incremental : Bool) (current : α) : Option α → α
  | some value => if incremental then current + value else value
  | none => current

def targetPosition (state : ReadingState α) (parameters : Parameters α) : Position α :=
  let incremental := state.modal.isIncremental
  { x := targetAlong incremental state.position.x (parameters.get? 'X')
    y := targetAlong incremental state.position.y (parameters.get? 'Y')
    z := targetAlong incremental state.position.z (parameters.get? 'Z') }

def targetRotary (state : ReadingState α) (parameters : Parameters α) : Option α :=
  match parameters.get? 'A' with
  | none => state.rotary
  | some angle =>
      match state.modal.isIncremental, state.rotary with
      | true, some current => some (current + angle)
      | _, _ => some angle

omit [Scalar α] in
def arcOf (rotation : Rotation) (parameters : Parameters α) : Arc α :=
  { rotation
    i := parameters.get? 'I'
    j := parameters.get? 'J'
    k := parameters.get? 'K'
    radius := parameters.get? 'R' }

omit [Scalar α] in
/-- The motion in force with the payload that a line gives it, and the retract
height after the line; `none` where motion is cancelled. -/
def motionOf? (state : ReadingState α) (parameters : Parameters α) :
    Option (Motion α × Option α) :=
  match state.modal.motion with
  | 0 => some (.rapid, state.retract)
  | 1 => some (.linear, state.retract)
  | 2 => some (.arc (arcOf .clockwise parameters), state.retract)
  | 3 => some (.arc (arcOf .counterclockwise parameters), state.retract)
  | number =>
      if ModalState.isDrillCycle number then
        let retract := (parameters.get? 'R').or state.retract
        some (.drill {
          cycle := number
          retract
          dwell := parameters.get? 'P'
          peck := parameters.get? 'Q' }, retract)
      else none

def moveTo (line : Nat) (parameters : Parameters α) (comment : Option String)
    (state : ReadingState α) : ReadingState α × Option (MotionPoint α) × List (Fault α) :=
  let position := targetPosition state parameters
  let rotary := targetRotary state parameters
  match motionOf? state parameters with
  | none => ({ state with position, rotary }, none, [])
  | some (motion, retract) =>
      let faults := match motion with
        | .arc shape => if shape.form?.isSome then [] else [.missingArcCenter line]
        | _ => []
      let point : MotionPoint α := {
        position, motion, rotary
        feed := if motion.isCutting then state.feed else parameters.get? 'F'
        spindle := state.spindle
        tool := state.tool
        line := some line
        comment }
      ({ state with position, rotary, retract }, some point, faults)

/-- Holds the position for the seconds of a `P` word. -/
def dwellFor (line : Nat) (parameters : Parameters α) (comment : Option String)
    (state : ReadingState α) : MotionPoint α :=
  { position := state.position
    motion := .dwell ((parameters.get? 'P').getD 0)
    spindle := state.spindle
    tool := state.tool
    line := some line
    comment }

def readWords (line : Nat) (raw : String) (code : List Char) (comment : Option String)
    (state : ReadingState α) : LineEffect α × ReadingState α :=
  let tokens := tokenize code
  let words := tokens.foldl (WordReading.add calculate state.assigned line) {}
  let parameters := words.parameters
  let modal := words.codes.foldl ModalState.apply state.modal
  let fed : ReadingState α := { state with
    modal
    feed := (parameters.get? 'F').or state.feed
    spindle := (parameters.get? 'S').or state.spindle }
  let (tooled, toolChange, toolFaults) := selectTool line (parameters.get? 'T') fed
  let (next, point, moveFaults) :=
    if words.codes.any (· == Code.g 4) then
      (tooled, some (dwellFor line parameters comment tooled), [])
    else if ['X', 'Y', 'Z', 'A'].any parameters.has then
      moveTo line parameters comment tooled
    else (tooled, none, [])
  let command : Command α :=
    { line, raw, codes := words.codes, parameters, tokens, modal, comment }
  ({ command := some command
     point
     toolChange
     warnings := words.warnings ++ toolFaults ++ moveFaults },
    next)

def readLine (line : Nat) (written : List Char) (state : ReadingState α) :
    LineEffect α × ReadingState α :=
  let raw := Text.dropEndWhile (· == '\r') written
  let text := Text.trim raw
  let skipped := text.isEmpty || text.head? == some ';' || text.head? == some '(' ||
    text == ['%']
  let code := stripComments text
  if skipped || (Text.trim code).isEmpty then ({}, state)
  else
    match assignment? code with
    | some (number, expression) =>
        let (value, faults) := evaluateOn calculate state.assigned line expression
        ({ warnings := faults },
          { state with assigned := state.assigned.set number value })
    | none =>
        let comment := (comment? text).filter (· ≠ "")
        readWords calculate line (String.ofList raw) code comment state

/-- Reads lines in order, numbered from `line` on. -/
def readLines (line : Nat) (state : ReadingState α) :
    List (List Char) → List (LineEffect α) × ReadingState α
  | [] => ([], state)
  | written :: rest =>
      let (effect, next) := readLine calculate line written state
      let (effects, final) := readLines (line + 1) next rest
      (effect :: effects, final)

end

/-- The points before the first tool change, and the points after each change
with its tool. -/
def runsBetweenChanges : List (LineEffect α) →
    List (MotionPoint α) × List (Nat × List (MotionPoint α))
  | [] => ([], [])
  | effect :: rest =>
      let (points, runs) := runsBetweenChanges rest
      let leading := effect.point.toList ++ points
      match effect.toolChange with
      | some tool => ([], (tool, leading) :: runs)
      | none => (leading, runs)

/-- The points in runs between tool changes, as paths of one tool each; runs
without a point are left out. -/
def segmentsOf (tool : Nat) (effects : List (LineEffect α)) : List (Toolpath α) :=
  let (leading, runs) := runsBetweenChanges effects
  (((tool, leading) :: runs).filter fun run => !run.2.isEmpty).map
    fun (number, points) => { points, tool := some number }

def wholePath (points : List (MotionPoint α)) : Toolpath α :=
  let path : Toolpath α := { points }
  match path.tools with
  | [only] => { path with tool := some only }
  | _ => path

/-- The lines of a text, a last empty one included. -/
def textLines (text : List Char) : List (List Char) := Text.splitOn (· == '\n') text

def readProgram [Scalar α] (calculate : String → Except String α) (tool : Nat)
    (text : String) : Outcome α :=
  let (effects, final) := readLines calculate 1 (.start tool) (textLines text.toList)
  { toolpath := wholePath (effects.filterMap LineEffect.point)
    segments := segmentsOf tool effects
    commands := effects.filterMap LineEffect.command
    units := final.modal.unitsInForce
    warnings := effects.flatMap LineEffect.warnings }

def Outcome.toolChanges [Scalar α] (outcome : Outcome α) : List ToolChange :=
  ToolChange.ofCommands defaultTool outcome.commands

end Milling.Program

import Milling.Archive.Interchange
import Milling.Archive.Outcome
import Milling.Json.Reader
import Milling.Machining.Generation
import Milling.Machining.Interchange
import Milling.Machining.Verification
import Milling.Offset.Parallel
import Milling.Posting.Audit

/-!
# Files of programs and operations

What a file holds, and the toolpath that comes of it.
-/

/-!
## Loaded programs

The toolpaths of a file, whether it holds the text of a program or an archive.
-/

namespace Milling

/-- What a file turned out to hold. -/
inductive ProgramSource where
  | text
  | archive
  /-- An archive by its first bytes that could only be read as text. -/
  | fallback
deriving Repr, DecidableEq

/-- The toolpaths of a file. -/
structure LoadedProgram where
  path : String
  source : ProgramSource
  units : Units
  toolpaths : List (Toolpath Float)
  warnings : List (Fault Float)
  /-- The text of a program, kept to be checked line by line. -/
  text : Option String
deriving Repr, DecidableEq

namespace LoadedProgram

def ofBytes (path : String) (bytes : List UInt8)
    (calculate : String → Except String Float := Expression.number) :
    Except Archive.DecodeError LoadedProgram :=
  if Archive.hasMagic bytes then
    match Archive.decode bytes calculate with
    | .archive file =>
        .ok {
          path, source := .archive, units := file.header.units, toolpaths := file.toolpaths
          warnings := [], text := none }
    | .program outcome =>
        .ok {
          path, source := .fallback, units := outcome.units, toolpaths := outcome.segments
          warnings := outcome.warnings, text := none }
    | .failure error => .error error
  else
    let text := Text.ofBytes bytes
    let outcome := Archive.readText calculate text
    .ok {
      path, source := .text, units := outcome.units, toolpaths := outcome.segments
      warnings := outcome.warnings, text := some text }

def combined (program : LoadedProgram) : Toolpath Float :=
  { points := program.toolpaths.flatMap Toolpath.points }

/-- What there is to report about a program on a machine: the text line by
line where there is one, else the points, for a tool without width. -/
def check (limits : Limits Float) (program : LoadedProgram) : Report Float :=
  let found := match program.text with
    | some text => Posting.auditProgram limits text
    | none => program.combined.verify limits 0
  { warnings := program.warnings } ++ found

end LoadedProgram

end Milling

/-!
## Loaded programs as data
-/

namespace Milling

def ProgramSource.name : ProgramSource → String
  | .text => "gcode"
  | .archive => "mcam"
  | .fallback => "gcode_fallback"

def ProgramSource.display : ProgramSource → String
  | .text => "Gcode"
  | .archive => "Mcam"
  | .fallback => "GcodeFallback"

def LoadedProgram.toJson (program : LoadedProgram) : Json :=
  .record [
    ("path", .text program.path), ("source", .text program.source.name),
    ("units", program.units.toJson),
    ("toolpaths", .list (program.toolpaths.map Toolpath.toJson)),
    ("warnings", .list (program.warnings.map (Fault.toJson "warning")))]

end Milling

/-!
## Lists of operations

The operations of a file and the toolpath they make together.
-/

namespace Milling

/-- Operations with their toolpaths one after the other. -/
structure MachinedList where
  operations : List (Operation Float)
  toolpath : Toolpath Float

/-- Why a list of operations makes no toolpath. -/
inductive ListError where
  | unreadable
  | failed (number : Nat) (name : String) (cause : MachiningError Float)

namespace MachinedList

/-- Appends the toolpaths of operations to a toolpath, the first of them
having a number. -/
def extend (offsetter : Offsetter Float) (number : Nat) (path : Toolpath Float) :
    List (Operation Float) → Except ListError (Toolpath Float)
  | [] => .ok path
  | operation :: rest =>
      match operation.toolpath offsetter with
      | .ok next => extend offsetter (number + 1) (path.extend next.points) rest
      | .error cause => .error (.failed number operation.name cause)

def ofOperations (offsetter : Offsetter Float) (operations : List (Operation Float)) :
    Except ListError MachinedList := do
  let toolpath ← extend offsetter 1 {} operations
  pure { operations, toolpath }

def ofText (text : String) : Except ListError MachinedList :=
  match (JsonText.read? text).bind (Json.list? Operation.ofJson?) with
  | some operations => ofOperations Offset.offsetter operations
  | none => .error .unreadable

end MachinedList

end Milling

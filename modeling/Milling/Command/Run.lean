import Milling.Archive.Bytes
import Milling.Command.Arguments
import Milling.Loading.Program
import Milling.Machining.Error
import Milling.Posting.Interchange
import Milling.Posting.Poster
import Milling.Settings.Interchange

/-!
# Commands

What each command does with its files, and how it tells of a failure.
-/

/-!
## Failed commands

Why a command ends early, in the words the user is told.
-/

namespace Milling

/-- Why a command ends early. -/
inductive CommandError where
  | settings (path : String) (cause : Settings.Failure)
  | unreadable (path : String)
  | undecodable (path : String) (cause : Archive.DecodeError)
  | operations (path : String)
  /-- An operation, counted from one, fails. -/
  | operation (number : Nat) (name : String) (cause : MachiningError Float)
  | posting (path : String) (cause : Posting.PostError)
  | invalid (path : String) (count : Nat)
  | folder (path : String)
  | unwritable (path : String)

namespace CommandError

def message : CommandError → String
  | .settings path _ => "load config '" ++ path ++ "'"
  | .unreadable path => "Failed to read " ++ path
  | .undecodable path cause => "Failed to decode " ++ path ++ ": " ++ cause.message
  | .operations path => "Invalid operation list in " ++ path
  | .operation number name _ =>
      "Operation " ++ toString number ++ " (" ++ name ++ ") failed"
  | .posting path _ => "post '" ++ path ++ "'"
  | .invalid path count =>
      path ++ " failed validation with " ++ toString count ++ " error(s)"
  | .folder path => "create output dir '" ++ path ++ "'"
  | .unwritable path => "write '" ++ path ++ "'"

/-- The text of what is behind an error, where its own text does not give
it. -/
def cause? : CommandError → Option String
  | .settings _ cause => some cause.message
  | .operation _ _ cause => some cause.message
  | .posting _ cause => some cause.message
  | _ => none

end CommandError

end Milling

/-!
## Running commands

Each command reads files, puts its result out or into a file, and ends with a
status: zero when all went well, one after an error, two when the arguments
ask for nothing the program does.
-/

namespace Milling

variable {m : Type → Type} [Monad m] [Workplace m]

def programVersion : String := "0.4.0-alpha.0"

def printLine (line : String) : m Unit := Workplace.print (line ++ "\n")

namespace LoadedProgram

def load (path : String) (calculate : String → Except String Float := Expression.number) :
    ExceptT CommandError m LoadedProgram := do
  match ← Workplace.readFile path with
  | none => throw (.unreadable path)
  | some bytes => ofExcept ((ofBytes path bytes calculate).mapError (.undecodable path))

def summary (program : LoadedProgram) : List String :=
  let path := program.combined
  let range (low high : Float) : String :=
    Scalar.toFixed 3 low ++ ".." ++ Scalar.toFixed 3 high
  let bounds := match path.bounds? with
    | some box =>
        ["Bounds:    X " ++ range box.low.x box.high.x ++ "  Y " ++
          range box.low.y box.high.y ++ "  Z " ++ range box.low.z box.high.z]
    | none => []
  [ "File:      " ++ program.path, "Source:    " ++ program.source.display,
    "Units:     " ++ program.units.label, "Points:    " ++ toString path.points.length,
    "Tools:     [" ++ ", ".intercalate (path.tools.map toString) ++ "]"] ++ bounds ++
  [ "Length:    " ++ program.units.lengthText path.length,
    "Run time:  " ++ Scalar.toFixed 1 (Posting.durationSeconds path.cycleTime) ++ " s"] ++
  program.warnings.map fun fault => "warning: " ++ fault.message

def repost (settings : Settings Float) (program : LoadedProgram) (date dialect : String) :
    Except Posting.PostError String :=
  settings.poster.program date program.combined [] dialect

end LoadedProgram

def MachinedList.load (path : String) : ExceptT CommandError m MachinedList := do
  match (← Workplace.readFile path).bind Text.ofBytes? with
  | none => throw (.unreadable path)
  | some text =>
      ofExcept ((MachinedList.ofText text).mapError fun
        | .unreadable => .operations path
        | .failed number name cause => .operation number name cause)

namespace Command

def writeTo (path text : String) : ExceptT CommandError m Unit := do
  if !(← Workplace.writeFile path text) then throw (.unwritable path)

/-- Puts a program out, or into a file whose folder is made where it is
missing. -/
def deliver (out : Option String) (program : String) : ExceptT CommandError m Unit := do
  match out with
  | none => Workplace.print program
  | some path =>
      let folder := Path.parent path
      if folder ≠ "" then
        if !(← Workplace.makeFolder folder) then throw (.folder folder)
      writeTo path program
      Workplace.report ("wrote " ++ path)

def dialectLine (dialect : Posting.Dialect) : String :=
  let padded (width : Nat) (text : String) : String :=
    text ++ String.ofList (List.replicate (width - text.length) ' ')
  padded 14 dialect.id ++ " " ++ padded 22 dialect.name ++ " ." ++
    padded 6 dialect.extension ++ " " ++ dialect.description

def reportLines (report : Report Float) : List String :=
  (report.warnings.map fun fault => "warning: " ++ fault.message) ++
    report.errors.map fun fault => "error: " ++ fault.message

def sheetText (settings : Settings Float) (list : MachinedList) (clock : Clock)
    (dialect program : String) : String :=
  let sheet := Posting.SetupSheet.of (settings.poster.dialect dialect) program list.toolpath
    list.operations
  let fileName := "program_" ++ clock.number ++ "." ++ sheet.extension
  JsonText.write (sheet.toJson fileName clock.stamp)

def run (settings : Settings Float) (command : Command)
    (calculate : String → Except String Float := Expression.number) :
    ExceptT CommandError m Unit := do
  match command with
  | .parse file asData =>
      let program ← LoadedProgram.load file calculate
      if asData then printLine (JsonText.write program.toJson)
      else program.summary.forM fun line => printLine line
  | .post file dialect out =>
      let program ← LoadedProgram.load file calculate
      let clock ← Workplace.clock
      let written ← ofExcept ((program.repost settings clock.date
        (dialect.getD settings.post.dialect)).mapError (.posting file))
      deliver out written
  | .validate file =>
      let program ← LoadedProgram.load file calculate
      let report := program.check settings.machine
      (reportLines report).forM fun line => printLine line
      if report.isValid then
        printLine (file ++ ": OK (" ++ toString report.warnings.length ++ " warning(s))")
      else throw (.invalid file report.errors.length)
  | .cam file dialect out sheet =>
      let list ← MachinedList.load file
      let clock ← Workplace.clock
      let id := dialect.getD settings.post.dialect
      let written ← ofExcept ((settings.poster.program clock.date list.toolpath
        list.operations id).mapError (.posting file))
      deliver out written
      match sheet with
      | none => pure ()
      | some path => writeTo path (sheetText settings list clock id written)
  | .dialects =>
      let registry : Posting.Registry := {}
      registry.dialects.forM fun dialect => printLine (dialectLine dialect)

end Command

namespace Request

/-- Runs a command with the settings in a file, or those where nothing is
set. -/
def runWith (settings : Option String) (command : Command)
    (calculate : String → Except String Float := Expression.number) :
    ExceptT CommandError m Unit := do
  let settings ← match settings with
    | none => pure Settings.standard
    | some path => (Settings.load path).adapt (.settings path)
  command.run settings calculate

def errorLines (error : CommandError) : List String :=
  let causes := match error.cause? with
    | some cause => ["", "Caused by:", "    " ++ cause]
    | none => []
  ("Error: " ++ error.message) :: causes

/-- Does what the arguments ask for, and gives the status. -/
def serve (arguments : List String)
    (calculate : String → Except String Float := Expression.number) : m Nat := do
  match ofArguments arguments with
  | .error error =>
      ["error: " ++ error.message, "", usage].forM fun line => Workplace.report line
      pure 2
  | .ok (.help topic) => do
      Workplace.print (helpText topic)
      pure 0
  | .ok .version => do
      printLine ("camkit " ++ programVersion)
      pure 0
  | .ok (.run settings command) => do
      match ← (runWith settings command calculate).run with
      | .ok () => pure 0
      | .error error => do
          (errorLines error).forM fun line => Workplace.report line
          pure 1

end Request

end Milling

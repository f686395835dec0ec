/-!
# Arguments

What the words after the name of the program ask for.
-/

namespace Milling

/-- A command on files. -/
inductive Command where
  /-- Summarize a program, as data if `asData` holds. -/
  | parse (file : String) (asData : Bool)
  | post (file : String) (dialect out : Option String)
  | validate (file : String)
  /-- Make the toolpath of a list of operations and write it. -/
  | cam (file : String) (dialect out sheet : Option String)
  | dialects
deriving Repr, DecidableEq

/-- What the arguments ask for. -/
inductive Request where
  | run (settings : Option String) (command : Command)
  | help (topic : Option String)
  | version
deriving Repr, DecidableEq

/-- Arguments that ask for nothing the program does. -/
inductive UsageError where
  | unexpected (argument : String)
  | missingValue (name : String)
  | emptyPath (name : String)
  | repeated (name : String)
  | unknownCommand (name : String)
  | missingCommand
  | missingArgument (name : String)
deriving Repr, DecidableEq

namespace UsageError

def message : UsageError → String
  | .unexpected argument => "unexpected argument '" ++ argument ++ "' found"
  | .missingValue name => "a value is required for '" ++ name ++ "' but none was supplied"
  | .emptyPath name => "a value is required for '" ++ name ++ "' but none was supplied"
  | .repeated name => "the argument '" ++ name ++ "' cannot be used multiple times"
  | .unknownCommand name => "unrecognized subcommand '" ++ name ++ "'"
  | .missingCommand => "a subcommand is required but one was not provided"
  | .missingArgument name => "the required argument <" ++ name ++ "> was not provided"

end UsageError

/-- What an option takes. -/
inductive OptionKind where
  | flag
  | text
  /-- A path, which is not empty. -/
  | path
deriving Repr, DecidableEq

/-- An option by its long name and, for some, a letter. -/
structure OptionShape where
  name : String
  letter : Option Char := none
  kind : OptionKind
deriving Repr, DecidableEq

/-- The words that a command takes. -/
structure CommandShape where
  name : String
  options : List OptionShape
  takesFile : Bool := true
deriving Repr, DecidableEq

/-- Words as they were given: options with their values, and paths. -/
structure Given where
  options : List (String × String) := []
  file : Option String := none
deriving Repr, DecidableEq

namespace Given

def option? (given : Given) (name : String) : Option String := given.options.lookup name

def has (given : Given) (name : String) : Bool := (given.option? name).isSome

/-- Adds an option, which may be given once. -/
def withOption (given : Given) (shape : OptionShape) (value : String) :
    Except UsageError Given :=
  if shape.kind = .path ∧ value = "" then .error (.emptyPath shape.name)
  else if given.has shape.name then .error (.repeated shape.name)
  else .ok { given with options := given.options ++ [(shape.name, value)] }

def withFile (given : Given) (takesFile : Bool) (argument : String) : Except UsageError Given :=
  if !takesFile ∨ given.file.isSome then .error (.unexpected argument)
  else if argument = "" then .error (.emptyPath "FILE")
  else .ok { given with file := some argument }

end Given

/-- One word, read by its dashes. -/
inductive Word where
  /-- Two dashes: all words after it are paths. -/
  | rest
  /-- A long name with an optional value after an equals sign. -/
  | long (name : String) (value : Option String)
  | short (letter : Char) (after : List Char)
  | plain
deriving Repr, DecidableEq

namespace Word

def ofArgument (argument : String) : Word :=
  match argument.toList with
  | ['-', '-'] => .rest
  | '-' :: '-' :: text =>
      let value := match text.dropWhile (· != '=') with
        | _ :: value => some (String.ofList value)
        | [] => none
      .long (String.ofList (text.takeWhile (· != '='))) value
  | '-' :: letter :: after => .short letter after
  | _ => .plain

def isValue (argument : String) : Bool := ofArgument argument == .plain

end Word

/-- What reading words came to. -/
inductive Reading where
  | help
  | version
  /-- A plain word was met, with what was given before it and what follows. -/
  | command (name : String) (given : Given) (rest : List String)
  | done (given : Given)
deriving Repr, DecidableEq

namespace CommandShape

/-- The value of an option that takes one: attached to it, or the next word. -/
def valueOf (name : String) (attached : Option String) (rest : List String) :
    Except UsageError (String × List String) :=
  match attached, rest with
  | some value, _ => .ok (value, rest)
  | none, value :: after =>
      if Word.isValue value then .ok (value, after) else .error (.missingValue name)
  | none, [] => .error (.missingValue name)

def addOption (given : Given) (option : OptionShape) (attached : Option String)
    (rest : List String) : Except UsageError (Given × List String) :=
  match option.kind, attached with
  | .flag, some _ => .error (.unexpected option.name)
  | .flag, none => do
      let next ← given.withOption option ""
      pure (next, rest)
  | _, _ => do
      let (value, after) ← valueOf option.name attached rest
      let next ← given.withOption option value
      pure (next, after)

/-- The value attached to a letter; an equals sign before it does not
count. -/
def attached? : List Char → Option String
  | [] => none
  | '=' :: value => some (String.ofList value)
  | value => some (String.ofList value)

/-- Reads the words of a command, `fuel` of them at most.  A shape without a
file stops at the first plain word if `stops` holds. -/
def read (shape : CommandShape) (stops hasVersion : Bool) :
    Nat → Given → List String → Except UsageError Reading
  | 0, given, _ => .ok (.done given)
  | _ + 1, given, [] => .ok (.done given)
  | fuel + 1, given, argument :: rest =>
      match Word.ofArgument argument with
      | .rest => do
          let given ← rest.foldlM (fun given path => given.withFile shape.takesFile path) given
          pure (.done given)
      | .plain =>
          if stops then .ok (.command argument given rest)
          else do
            let given ← given.withFile shape.takesFile argument
            shape.read stops hasVersion fuel given rest
      | .long name attached =>
          if name = "help" ∧ attached = none then .ok .help
          else if name = "version" ∧ attached = none ∧ hasVersion then .ok .version
          else
            match shape.options.find? fun option => option.name = name with
            | some option => do
                let (given, after) ← addOption given option attached rest
                shape.read stops hasVersion fuel given after
            | none => .error (.unexpected argument)
      | .short letter after =>
          if letter = 'h' then .ok .help
          else if letter = 'V' ∧ hasVersion then .ok .version
          else
            match shape.options.find? fun option => option.letter = some letter with
            | some option => do
                let (given, after) ← addOption given option (attached? after) rest
                shape.read stops hasVersion fuel given after
            | none => .error (.unexpected argument)

def settingsOption : OptionShape := { name := "config", kind := .path }

def outputOptions : List OptionShape := [
  { name := "dialect", kind := .text }, { name := "out", letter := some 'o', kind := .path }]

def program : CommandShape :=
  { name := "camkit", options := [settingsOption], takesFile := false }

def all : List CommandShape := [
  { name := "parse", options := [settingsOption, { name := "json", kind := .flag }] },
  { name := "post", options := settingsOption :: outputOptions },
  { name := "validate", options := [settingsOption] },
  { name := "cam"
    options := settingsOption :: outputOptions ++ [{ name := "setup-sheet", kind := .path }] },
  { name := "dialects", options := [settingsOption], takesFile := false }]

def find? (name : String) : Option CommandShape := all.find? fun shape => shape.name = name

end CommandShape

namespace Command

def ofGiven (name : String) (given : Given) : Except UsageError Command := do
  let file : Except UsageError String :=
    match given.file with
    | some file => .ok file
    | none => .error (.missingArgument "FILE")
  let dialect := given.option? "dialect"
  let out := given.option? "out"
  match name with
  | "parse" => pure (.parse (← file) (given.has "json"))
  | "post" => pure (.post (← file) dialect out)
  | "validate" => pure (.validate (← file))
  | "cam" => pure (.cam (← file) dialect out (given.option? "setup-sheet"))
  | "dialects" => pure .dialects
  | _ => .error (.unknownCommand name)

end Command

namespace Request

def helpOn : List String → Except UsageError Request
  | [] => .ok (.help none)
  | [name] =>
      if name = "help" ∨ (CommandShape.find? name).isSome then .ok (.help (some name))
      else .error (.unknownCommand name)
  | _ :: name :: _ => .error (.unknownCommand name)

/-- Reads arguments.  Settings may be named before the command or after it,
where they count more. -/
def ofArguments (arguments : List String) : Except UsageError Request := do
  match ← CommandShape.program.read true true (arguments.length + 1) {} arguments with
  | .help => pure (.help none)
  | .version => pure .version
  | .done _ => .error .missingCommand
  | .command "help" _ rest => helpOn rest
  | .command name before rest =>
      match CommandShape.find? name with
      | none => .error (.unknownCommand name)
      | some shape =>
          match ← shape.read false false (rest.length + 1) {} rest with
          | .done given =>
              let command ← Command.ofGiven name given
              pure (.run (given.option? "config" <|> before.option? "config") command)
          | _ => pure (.help (some name))

end Request

end Milling

/-!
## Help

What the program tells about itself and its commands.
-/

namespace Milling.Request

def helpOption : String := "  -h, --help             Print help\n"

def settingsHelp : String := "      --config <CONFIG>  Configuration file (.json or .toml)\n"

def outputHelp : String :=
  "      --dialect <DIALECT>  Dialect id; defaults to the configured dialect\n" ++
  "  -o, --out <OUT>        Output path; stdout when omitted\n"

def usage : String := "Usage: camkit [OPTIONS] <COMMAND>"

def programHelp : String :=
  "CNC toolpath ingestion and post-processing\n\n" ++ usage ++ "\n\nCommands:\n" ++
  "  parse     Summarize a G-code or MCAM file\n" ++
  "  post      Re-emit a program for a controller dialect\n" ++
  "  validate  Check a program against the machine limits\n" ++
  "  cam       Generate and post a JSON list of operations\n" ++
  "  dialects  List the available dialects\n" ++
  "  help      Print this message or the help of the given subcommand(s)\n\nOptions:\n" ++
  settingsHelp ++ helpOption ++ "  -V, --version          Print version\n"

def commandHelp (name summary words options : String) : String :=
  summary ++ "\n\nUsage: camkit " ++ name ++ " [OPTIONS]" ++ words ++ "\n\nOptions:\n" ++
    options ++ settingsHelp ++ helpOption

def helpText : Option String → String
  | some "parse" =>
      commandHelp "parse" "Summarize a G-code or MCAM file" " <FILE>"
        "      --json             Print the toolpaths as JSON instead of a summary\n"
  | some "post" =>
      commandHelp "post" "Re-emit a program for a controller dialect" " <FILE>" outputHelp
  | some "validate" =>
      commandHelp "validate" "Check a program against the machine limits" " <FILE>" ""
  | some "cam" =>
      commandHelp "cam" "Generate and post a JSON list of operations" " <FILE>"
        (outputHelp ++
          "      --setup-sheet <SETUP_SHEET>  Also write the setup sheet as JSON\n")
  | some "dialects" => commandHelp "dialects" "List the available dialects" "" ""
  | _ => programHelp

end Milling.Request

import Milling.Json.Basic

/-!
# Writing TOML

Sections of keys with texts and numbers.  A text is written in the plainest
quotes that need no escapes, and with escapes where no quotes do without.
-/

namespace Milling.TomlText

def longestRun (character : Char) (text : List Char) : Nat :=
  let step := fun (state : Nat × Nat) (next : Char) =>
    let run := if next = character then state.2 + 1 else 0
    (max state.1 run, run)
  (text.foldl step (0, 0)).1

/-- A control character that no quotes may hold as itself. -/
def needsCode (character : Char) : Bool :=
  character != '\t' && character != '\n' &&
    (decide (character.toNat ≤ 0x1F) || character.toNat == 0x7F)

def codeDigits (character : Char) : List Char :=
  let digits := (Nat.toDigits 16 character.toNat).map Char.toUpper
  List.replicate (4 - digits.length) '0' ++ digits

def escapedChar (keepsBreaks : Bool) (character : Char) : List Char :=
  match character with
  | '\x08' => ['\\', 'b']
  | '\t' => ['\\', 't']
  | '\n' => if keepsBreaks then ['\n'] else ['\\', 'n']
  | '\x0c' => ['\\', 'f']
  | '\r' => ['\\', 'r']
  | '\\' => ['\\', '\\']
  | _ => if needsCode character then '\\' :: 'u' :: codeDigits character else [character]

/-- A text inside double quotes after some quotes in a row.  On several lines
two quotes in a row may stand, on one line none. -/
def escapedChars (severalLines : Bool) : Nat → List Char → List Char
  | _, [] => []
  | quotes, character :: rest =>
      if character = '"' then
        if quotes < (if severalLines then 2 else 0) then
          '"' :: escapedChars severalLines (quotes + 1) rest
        else '\\' :: '"' :: escapedChars severalLines 0 rest
      else escapedChar severalLines character ++ escapedChars severalLines 0 rest

def inDoubleQuotes (text : List Char) : List Char := '"' :: escapedChars false 0 text ++ ['"']

/-- Three quotes around a text; a text with line breaks starts on its own
line. -/
def inTripleQuotes (quote : Char) (text content : List Char) : List Char :=
  let quotes := List.replicate 3 quote
  quotes ++ (if '\n' ∈ text then ['\n'] else []) ++ content ++ quotes

def quotedText (text : List Char) : List Char :=
  let isCoded := text.any needsCode
  let hasBreaks := decide ('\n' ∈ text)
  let hasBackslash := decide ('\\' ∈ text)
  let singles := longestRun '\'' text
  let doubles := longestRun '"' text
  let inTripleDoubles := inTripleQuotes '"' text (escapedChars true 0 text)
  if !isCoded && !hasBackslash && doubles == 0 && !hasBreaks then inDoubleQuotes text
  else if !isCoded && singles == 0 && !hasBreaks then '\'' :: text ++ ['\'']
  else if !isCoded && !hasBackslash && decide (doubles ≤ 2) then inTripleDoubles
  else if !isCoded && decide (singles ≤ 2) then inTripleQuotes '\'' text text
  else if hasBreaks then inTripleDoubles
  else inDoubleQuotes text

def floatText (value : Float) : String :=
  if value.isNaN then "nan" else Decimal.Layout.pointed.floatText value

def scalarText? : Json → Option String
  | .text value => some (String.ofList (quotedText value.toList))
  | .integer value => some (toString value)
  | .float value => some (floatText value)
  | .bool value => some (if value then "true" else "false")
  | _ => none

def keyLine (field : String × Json) : String :=
  match scalarText? field.2 with
  | some value => field.1 ++ " = " ++ value ++ "\n"
  | none => ""

def sectionText (name : String) (fields : List (String × Json)) : String :=
  "[" ++ name ++ "]\n" ++ String.join (fields.map keyLine)

def recordFields : Json → List (String × Json)
  | .record fields => fields
  | _ => []

def writeSections (json : Json) : String :=
  "\n".intercalate ((recordFields json).map fun (name, inner) =>
    sectionText name (recordFields inner))

end Milling.TomlText

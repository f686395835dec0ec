import Milling.Toml.Number
import Milling.Toml.Quoted
import Milling.Toml.Table

/-!
# Reading TOML

A document is read line by line; values may hold further lines.
-/

namespace Milling.TomlText

/-- How deep lists and tables may nest in a value, and how many parts a dotted
key may have. -/
def greatestDepth : Nat := 79

def skipSpaces (text : List Char) : List Char := text.dropWhile isSpace

def lineEnd? (text : List Char) : Option (List Char) :=
  let rest := match skipSpaces text with
    | '#' :: comment => comment.dropWhile isPlain
    | line => line
  match rest with
  | [] => some []
  | _ => lineBreak? rest

/-- The text without blanks, comments and line breaks at its start, in at most
`fuel` steps. -/
def skipLines : Nat → List Char → List Char
  | 0, text => text
  | fuel + 1, text =>
      match skipSpaces text with
      | '#' :: comment =>
          match lineBreak? (comment.dropWhile isPlain) with
          | some rest => skipLines fuel rest
          | none => '#' :: comment
      | line =>
          match lineBreak? line with
          | some rest => skipLines fuel rest
          | none => line

def skipAll (text : List Char) : List Char := skipLines (text.length + 1) text

def isKeyCharacter (character : Char) : Bool :=
  character.isAlphanum || character == '-' || character == '_'

def keyPart? (text : List Char) : Option (String × List Char) :=
  match text with
  | '"' :: _ => line? text
  | '\'' :: _ => line? text
  | _ =>
      let name := text.takeWhile isKeyCharacter
      if name = [] then none
      else some (String.ofList name, text.dropWhile isKeyCharacter)

/-- The parts of a dotted key, `fuel` of them at most, and what follows; blanks
may stand around each part. -/
def keyParts? : Nat → List Char → Option (List String × List Char)
  | 0, _ => none
  | fuel + 1, text => do
      let (part, after) ← keyPart? (skipSpaces text)
      match skipSpaces after with
      | '.' :: rest => do
          let (parts, final) ← keyParts? fuel rest
          some (part :: parts, final)
      | rest => some ([part], rest)

/-- A dotted key as the path to its table and the name in it, and what
follows. -/
def key? (text : List Char) : Option (List String × String × List Char) := do
  let (parts, rest) ← keyParts? greatestDepth text
  let name ← parts.getLast?
  some (parts.dropLast, name, rest)

def keyEquals? (text : List Char) : Option (List String × String × List Char) := do
  let (path, name, rest) ← key? text
  match rest with
  | '=' :: after => some (path, name, after)
  | _ => none

mutual

/-- The value at the start of a text, and what follows; `depth` more levels of
nesting are allowed. -/
def value? : Nat → Nat → List Char → Option (Json × List Char)
  | 0, _, _ => none
  | fuel + 1, depth, text =>
      match text, depth with
      | '"' :: _, _ => (quoted? text).map fun (content, rest) => (.text content, rest)
      | '\'' :: _, _ => (quoted? text).map fun (content, rest) => (.text content, rest)
      | '[' :: rest, inner + 1 =>
          (items? fuel inner rest).map fun (items, after) => (.list items, after)
      | '[' :: _, 0 => none
      | '{' :: rest, inner + 1 =>
          match skipSpaces rest with
          | '}' :: after => some (.record [], after)
          | _ => (fields? fuel inner [] rest).map fun (fields, after) => (.record fields, after)
      | '{' :: _, 0 => none
      | _, _ => word? text

/-- The items of a list up to its end; a comma may follow the last one. -/
def items? : Nat → Nat → List Char → Option (List Json × List Char)
  | 0, _, _ => none
  | fuel + 1, depth, text =>
      match skipAll text with
      | ']' :: rest => some ([], rest)
      | start => do
          let (item, after) ← value? fuel depth start
          match skipAll after with
          | ',' :: rest => do
              let (items, final) ← items? fuel depth rest
              some (item :: items, final)
          | ']' :: rest => some ([item], rest)
          | _ => none

def fields? : Nat → Nat → Entries → List Char → Option (List (String × Json) × List Char)
  | 0, _, _, _ => none
  | fuel + 1, depth, entries, text => do
      let (path, name, start) ← keyEquals? text
      let (json, after) ← value? fuel depth (skipSpaces start)
      let entries ← entries.assign? name json path
      match skipSpaces after with
      | ',' :: rest => fields? fuel depth entries rest
      | '}' :: rest => some (fieldsJson entries, rest)
      | _ => none

end

/-- A document that is being read. -/
structure Draft where
  entries : Entries := []
  /-- The table that the next keys belong to. -/
  current : List String := []

namespace Draft

/-- Reads a header: a table in brackets, or the next of a list of tables in
double brackets. -/
def header? (draft : Draft) (text : List Char) : Option (Draft × List Char) := do
  let isNext := text.head? == some '['
  let (path, name, rest) ← key? (if isNext then text.tail else text)
  let change := if isNext then Entries.openNext? name else Entries.openTable? name
  let entries ← draft.entries.below? change path
  let after ← match rest with
    | ']' :: ']' :: after => if isNext then some after else none
    | ']' :: after => if isNext then none else some after
    | _ => none
  some ({ entries, current := path ++ [name] }, after)

def assignment? (draft : Draft) (text : List Char) : Option (Draft × List Char) := do
  let (path, name, start) ← keyEquals? text
  let (json, rest) ← value? (start.length + 1) greatestDepth (skipSpaces start)
  let entries ← draft.entries.below? (Entries.assign? name json path) draft.current
  some ({ draft with entries }, rest)

def lines? : Nat → Draft → List Char → Option Draft
  | 0, _, _ => none
  | fuel + 1, draft, text =>
      match skipSpaces text with
      | [] => some draft
      | line =>
          match lineEnd? line with
          | some rest => lines? fuel draft rest
          | none => do
              let (next, after) ← match line with
                | '[' :: rest => draft.header? rest
                | _ => draft.assignment? line
              let rest ← lineEnd? after
              lines? fuel next rest

end Draft

/-- Reads a TOML document as a record.  A byte order mark may come first. -/
def read? (text : String) : Option Json :=
  let start := match text.toList with
    | '\ufeff' :: rest => rest
    | characters => characters
  (Draft.lines? (start.length + 1) {} start).map fun draft =>
    .record (fieldsJson draft.entries)

end Milling.TomlText

import Milling.Json.Basic

/-!
# Writing data text

JSON text laid out for readers, two blanks a level.  Numbers that are not
finite are written as null.
-/

namespace Milling.JsonText

def hexDigits (width value : Nat) : List Char :=
  let digits := Nat.toDigits 16 value
  List.replicate (width - digits.length) '0' ++ digits

/-- A character inside quotes: quotes, backslashes and control characters are
escaped. -/
def quotedChar (character : Char) : List Char :=
  match character with
  | '"' => ['\\', '"']
  | '\\' => ['\\', '\\']
  | '\n' => ['\\', 'n']
  | '\r' => ['\\', 'r']
  | '\t' => ['\\', 't']
  | '\x08' => ['\\', 'b']
  | '\x0c' => ['\\', 'f']
  | _ =>
      if character.toNat < 0x20 then '\\' :: 'u' :: hexDigits 4 character.toNat
      else [character]

def quoted (text : String) : String :=
  String.ofList ('"' :: text.toList.flatMap quotedChar ++ ['"'])

def lineBreak (level : Nat) : String := "\n" ++ String.ofList (List.replicate (2 * level) ' ')

mutual

def pretty (level : Nat) : Json → String
  | .null => "null"
  | .bool value => if value then "true" else "false"
  | .integer value => toString value
  | .float value =>
      if value.isFinite then Decimal.Layout.interchange.floatText value else "null"
  | .text value => quoted value
  | .list [] => "[]"
  | .list (item :: rest) =>
      "[" ++ lineBreak (level + 1) ++ pretty (level + 1) item ++
        prettyItems (level + 1) rest ++ lineBreak level ++ "]"
  | .record [] => "\x7b\x7d"
  | .record ((name, json) :: rest) =>
      "\x7b" ++ lineBreak (level + 1) ++ quoted name ++ ": " ++ pretty (level + 1) json ++
        prettyFields (level + 1) rest ++ lineBreak level ++ "\x7d"

def prettyItems (level : Nat) : List Json → String
  | [] => ""
  | item :: rest =>
      "," ++ lineBreak level ++ pretty level item ++ prettyItems level rest

def prettyFields (level : Nat) : List (String × Json) → String
  | [] => ""
  | (name, json) :: rest =>
      "," ++ lineBreak level ++ quoted name ++ ": " ++ pretty level json ++
        prettyFields level rest

end

/-- JSON text of a value, two blanks a level. -/
def write (json : Json) : String := pretty 0 json

end Milling.JsonText

import Milling.Decimal.Numeral
import Milling.Json.Number

/-!
# Reading data text

JSON text is cut into lexemes, and values are read off the lexemes.
-/

namespace Milling.JsonText

inductive Lexeme where
  | openRecord
  | closeRecord
  | openList
  | closeList
  | comma
  | colon
  /-- A number, a text or one of the three names. -/
  | value (json : Json)

namespace Lexeme

def escaped? : Char → Option Char
  | '"' => some '"'
  | '\\' => some '\\'
  | '/' => some '/'
  | 'b' => some '\x08'
  | 'f' => some '\x0c'
  | 'n' => some '\n'
  | 'r' => some '\r'
  | 't' => some '\t'
  | _ => none

/-- The characters of a text up to its closing quote, and what follows.  A
pair of surrogates makes one character; a lone surrogate is refused. -/
def textBody? : List Char → Option (List Char × List Char)
  | '"' :: rest => some ([], rest)
  | '\\' :: 'u' :: a :: b :: c :: d :: '\\' :: 'u' :: e :: f :: g :: h :: rest => do
      let first ← Decimal.naturalIn? 16 [a, b, c, d]
      if 0xD800 ≤ first ∧ first < 0xDC00 then
        let second ← Decimal.naturalIn? 16 [e, f, g, h]
        if 0xDC00 ≤ second ∧ second < 0xE000 then
          let (text, after) ← textBody? rest
          some (Char.ofNat (0x10000 + (first - 0xD800) * 0x400 + (second - 0xDC00)) :: text,
            after)
        else none
      else if 0xDC00 ≤ first ∧ first < 0xE000 then none
      else
        let (text, after) ← textBody? ('\\' :: 'u' :: e :: f :: g :: h :: rest)
        some (Char.ofNat first :: text, after)
  | '\\' :: 'u' :: a :: b :: c :: d :: rest => do
      let code ← Decimal.naturalIn? 16 [a, b, c, d]
      if 0xD800 ≤ code ∧ code < 0xE000 then none
      else
        let (text, after) ← textBody? rest
        some (Char.ofNat code :: text, after)
  | '\\' :: letter :: rest => do
      let character ← escaped? letter
      let (text, after) ← textBody? rest
      some (character :: text, after)
  | character :: rest =>
      if character.toNat < 0x20 ∨ character = '\\' then none
      else do
        let (text, after) ← textBody? rest
        some (character :: text, after)
  | [] => none
termination_by text => text.length

def isSpace (character : Char) : Bool :=
  character == ' ' || character == '\t' || character == '\n' || character == '\r'

/-- The lexeme at the start of a text that does not start with a space. -/
def first? : List Char → Option (Lexeme × List Char)
  | '{' :: rest => some (.openRecord, rest)
  | '}' :: rest => some (.closeRecord, rest)
  | '[' :: rest => some (.openList, rest)
  | ']' :: rest => some (.closeList, rest)
  | ',' :: rest => some (.comma, rest)
  | ':' :: rest => some (.colon, rest)
  | 'n' :: 'u' :: 'l' :: 'l' :: rest => some (.value .null, rest)
  | 't' :: 'r' :: 'u' :: 'e' :: rest => some (.value (.bool true), rest)
  | 'f' :: 'a' :: 'l' :: 's' :: 'e' :: rest => some (.value (.bool false), rest)
  | '"' :: rest => (textBody? rest).map fun (text, after) =>
      (.value (.text (String.ofList text)), after)
  | text => (Number.read? text).map fun (json, after) => (.value json, after)

def scan? : Nat → List Char → Option (List Lexeme)
  | 0, _ => none
  | fuel + 1, text =>
      match text.dropWhile isSpace with
      | [] => some []
      | start => do
          let (lexeme, rest) ← first? start
          let lexemes ← scan? fuel rest
          some (lexeme :: lexemes)

def ofText? (text : List Char) : Option (List Lexeme) := scan? (text.length + 1) text

end Lexeme

/-- How deep lists and records may nest. -/
def greatestDepth : Nat := 127

mutual

/-- The value at the start of some lexemes, and what follows; `depth` more
levels of nesting are allowed. -/
def value? : Nat → Nat → List Lexeme → Option (Json × List Lexeme)
  | 0, _, _ => none
  | fuel + 1, depth, lexemes =>
      match lexemes, depth with
      | .value json :: rest, _ => some (json, rest)
      | .openList :: .closeList :: rest, _ + 1 => some (.list [], rest)
      | .openList :: rest, inner + 1 =>
          (items? fuel inner rest).map fun (items, after) => (.list items, after)
      | .openRecord :: .closeRecord :: rest, _ + 1 => some (.record [], rest)
      | .openRecord :: rest, inner + 1 =>
          (fields? fuel inner rest).map fun (fields, after) => (.record fields, after)
      | _, _ => none

def items? : Nat → Nat → List Lexeme → Option (List Json × List Lexeme)
  | 0, _, _ => none
  | fuel + 1, depth, lexemes => do
      let (item, after) ← value? fuel depth lexemes
      match after with
      | .comma :: rest => do
          let (items, final) ← items? fuel depth rest
          some (item :: items, final)
      | .closeList :: rest => some ([item], rest)
      | _ => none

def fields? : Nat → Nat → List Lexeme → Option (List (String × Json) × List Lexeme)
  | 0, _, _ => none
  | fuel + 1, depth, lexemes =>
      match lexemes with
      | .value (.text name) :: .colon :: valueLexemes => do
          let (json, after) ← value? fuel depth valueLexemes
          match after with
          | .comma :: rest => do
              let (fields, final) ← fields? fuel depth rest
              some ((name, json) :: fields, final)
          | .closeRecord :: rest => some ([(name, json)], rest)
          | _ => none
      | _ => none

end

def read? (text : String) : Option Json := do
  let lexemes ← Lexeme.ofText? text.toList
  match value? (lexemes.length + 1) greatestDepth lexemes with
  | some (json, []) => some json
  | _ => none

end Milling.JsonText

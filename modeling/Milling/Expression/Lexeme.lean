import Milling.Decimal.Numeral
import Milling.Expression.Value
import Milling.Text.Blank

/-!
# Lexemes of expressions

The text of an expression is cut into atoms, comments left out, and adjacent
atoms are joined to operators.
-/

namespace Milling.Expression

/-- A piece of an expression's text. -/
inductive Atom where
  | symbol (character : Char)
  /-- A run of characters that are neither symbols nor blank. -/
  | word (characters : List Char)
  | text (content : String)
  | blank

namespace Atom

def symbols : List Char :=
  ['+', '-', '*', '/', '%', '^', '(', ')', ',', ';', '=', '!', '>', '<', '&', '|']

def shown : Atom → String
  | .symbol character => character.toString
  | .word characters => String.ofList characters
  | .text content => Text.escaped content
  | .blank => " "

/-- Puts a character in front, as part of a word that follows at once. -/
def consWord (character : Char) : List Atom → List Atom
  | .word characters :: rest => .word (character :: characters) :: rest
  | atoms => .word [character] :: atoms

/-- The content of a text after its opening quote, and what follows. -/
def quotedBody : List Char → Except ExpressionError (List Char × List Char)
  | [] => .error .unmatchedQuote
  | character :: rest =>
      if character = '"' then .ok ([], rest)
      else if character = '\\' then
        match rest with
        | [] => .error (.illegalEscape "\\")
        | escape :: after =>
            if escape = '"' ∨ escape = '\\' then do
              let (content, final) ← quotedBody after
              .ok (escape :: content, final)
            else .error (.illegalEscape ("\\" ++ escape.toString))
      else do
        let (content, final) ← quotedBody rest
        .ok (character :: content, final)

def afterBlockComment : List Char → Except ExpressionError (List Char)
  | '*' :: '/' :: rest => .ok rest
  | _ :: rest => afterBlockComment rest
  | [] => .error .unmatchedComment

def afterLineComment (text : List Char) : List Char := (text.dropWhile (· != '\n')).drop 1

/-- The atoms of a text, at most `fuel` characters and comments of it. -/
def scan : Nat → List Char → Except ExpressionError (List Atom)
  | 0, _ => .ok []
  | _, [] => .ok []
  | fuel + 1, character :: rest =>
      if character = '"' then do
        let (content, after) ← quotedBody rest
        let atoms ← scan fuel after
        .ok (.text (String.ofList content) :: atoms)
      else
        match character, rest with
        | '/', '/' :: after => scan fuel (afterLineComment after)
        | '/', '*' :: after => do
            let afterComment ← afterBlockComment after
            scan fuel afterComment
        | _, _ => do
            let atoms ← scan fuel rest
            if symbols.contains character then .ok (.symbol character :: atoms)
            else if Text.isBlank character then .ok (.blank :: atoms)
            else .ok (consWord character atoms)

def ofText (text : List Char) : Except ExpressionError (List Atom) := scan text.length text

end Atom

inductive Lexeme where
  | plus
  | minus
  | star
  | slash
  | percent
  | hat
  | equal
  | notEqual
  | greater
  | less
  | greaterOrEqual
  | lessOrEqual
  | both
  | either
  | not
  | opening
  | closing
  | assign
  | assignWith
  | comma
  | semicolon
  | name (text : String)
  | value (content : Value)

namespace Lexeme

def greatestWhole : Nat := Nat.pow 2 63 - 1

/-- A whole number in base ten, or in base sixteen after `0x`. -/
def whole? (characters : List Char) : Option Int :=
  let magnitude : Option Nat := match characters with
    | '0' :: 'x' :: digits => Decimal.naturalIn? 16 digits
    | _ => Decimal.natural? characters
  (magnitude.filter (· ≤ greatestWhole)).map Int.ofNat

def ofWord (characters : List Char) : Lexeme :=
  match whole? characters with
  | some number => .value (.integer number)
  | none =>
      match Decimal.readFloat? characters with
      | some number => .value (.float number)
      | none =>
          if characters = "true".toList then .value (.boolean true)
          else if characters = "false".toList then .value (.boolean false)
          else .name (String.ofList characters)

def ofSymbol : Char → Option Lexeme
  | '+' => some .plus
  | '-' => some .minus
  | '*' => some .star
  | '/' => some .slash
  | '%' => some .percent
  | '^' => some .hat
  | '(' => some .opening
  | ')' => some .closing
  | ',' => some .comma
  | ';' => some .semicolon
  | '=' => some .assign
  | '!' => some .not
  | '>' => some .greater
  | '<' => some .less
  | _ => none

def ofSymbolEqual : Char → Option Lexeme
  | '+' => some .assignWith
  | '-' => some .assignWith
  | '*' => some .assignWith
  | '/' => some .assignWith
  | '%' => some .assignWith
  | '^' => some .assignWith
  | '=' => some .equal
  | '!' => some .notEqual
  | '>' => some .greaterOrEqual
  | '<' => some .lessOrEqual
  | _ => none

def ofSymbolTwice : Char → Option Lexeme
  | '&' => some .both
  | '|' => some .either
  | _ => none

/-- The lexeme at the start of some atoms, and what follows; a blank gives no
lexeme. -/
def next : Atom → List Atom → Except ExpressionError (Option Lexeme × List Atom)
  | .blank, rest => .ok (none, rest)
  | .word characters, rest => .ok (some (ofWord characters), rest)
  | .text content, rest => .ok (some (.value (.text content)), rest)
  | .symbol character, rest =>
      match ofSymbolTwice character, rest with
      | some lexeme, .symbol second :: after =>
          if second = character then
            match after with
            | .symbol '=' :: final => .ok (some .assignWith, final)
            | _ => .ok (some lexeme, after)
          else .error (.halfOperator character (some second.toString))
      | some _, other :: _ => .error (.halfOperator character (some other.shown))
      | some _, [] => .error (.halfOperator character none)
      | none, .symbol '=' :: after =>
          match ofSymbolEqual character with
          | some lexeme => .ok (some lexeme, after)
          | none => .ok (ofSymbol character, rest)
      | none, _ => .ok (ofSymbol character, rest)

def join : Nat → List Atom → Except ExpressionError (List Lexeme)
  | 0, _ => .ok []
  | _, [] => .ok []
  | fuel + 1, atom :: rest => do
      let (lexeme, after) ← next atom rest
      let lexemes ← join fuel after
      .ok (lexeme.toList ++ lexemes)

def ofText (text : List Char) : Except ExpressionError (List Lexeme) := do
  let atoms ← Atom.ofText text
  join atoms.length atoms

/-- The lexeme ends a value, so that a minus behind it subtracts. -/
def endsValue : Lexeme → Bool
  | .closing => true
  | .name _ => true
  | .value _ => true
  | _ => false

def startsValue : Lexeme → Bool
  | .opening => true
  | .name _ => true
  | .value _ => true
  | _ => false

def assigns : Lexeme → Bool
  | .assign => true
  | .assignWith => true
  | _ => false

end Lexeme

end Milling.Expression

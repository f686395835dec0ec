import Milling.Decimal.Numeral

/-!
# Quoted text in TOML

Texts in single or double quotes, on one line or, with the quotes three times,
on several.  Only double quotes know escapes.
-/

namespace Milling.TomlText

def isSpace (character : Char) : Bool := character == ' ' || character == '\t'

/-- A character that may stand for itself: no control character but the tab. -/
def isPlain (character : Char) : Bool :=
  character == '\t' || (decide (0x20 ≤ character.toNat) && character.toNat != 0x7F)

def lineBreak? : List Char → Option (List Char)
  | '\n' :: rest => some rest
  | '\r' :: '\n' :: rest => some rest
  | _ => none

def skipBlankLines : List Char → List Char
  | ' ' :: rest => skipBlankLines rest
  | '\t' :: rest => skipBlankLines rest
  | '\n' :: rest => skipBlankLines rest
  | '\r' :: '\n' :: rest => skipBlankLines rest
  | text => text

def escapeLetter? : Char → Option Char
  | '"' => some '"'
  | '\\' => some '\\'
  | 'b' => some '\x08'
  | 'f' => some '\x0c'
  | 'n' => some '\n'
  | 'r' => some '\r'
  | 't' => some '\t'
  | _ => none

/-- The character with a code of a set number of hexadecimal digits, and what
follows. -/
def coded? (width : Nat) (text : List Char) : Option (Char × List Char) := do
  let digits := text.take width
  let code ← Decimal.naturalIn? 16 digits
  if digits.length = width ∧ code.isValidChar then some (Char.ofNat code, text.drop width)
  else none

/-- The character that an escape stands for, read after its backslash, and
what follows. -/
def escape? : List Char → Option (Char × List Char)
  | 'u' :: rest => coded? 4 rest
  | 'U' :: rest => coded? 8 rest
  | letter :: rest => (escapeLetter? letter).map fun character => (character, rest)
  | [] => none

def prepend (character : Char) (read : List Char × List Char) : List Char × List Char :=
  (character :: read.1, read.2)

/-- A text on one line up to its closing quote, and what follows, in at most
`fuel` steps. -/
def lineBody? (quote : Char) : Nat → List Char → Option (List Char × List Char)
  | 0, _ => none
  | _ + 1, [] => none
  | fuel + 1, character :: rest =>
      if character = quote then some ([], rest)
      else if character = '\\' ∧ quote = '"' then do
        let (escaped, after) ← escape? rest
        (lineBody? quote fuel after).map (prepend escaped)
      else if isPlain character then (lineBody? quote fuel rest).map (prepend character)
      else none

def quoteCount (quote : Char) (text : List Char) : Nat :=
  (text.takeWhile (· == quote)).length

/-- A text on several lines up to its three closing quotes, and what follows,
in at most `fuel` steps.  Up to two more quotes before the closing ones belong
to the text; a backslash at the end of a line joins the next line with text
to it. -/
def linesBody? (quote : Char) : Nat → List Char → Option (List Char × List Char)
  | 0, _ => none
  | _ + 1, [] => none
  | fuel + 1, character :: rest =>
      let quotes := quoteCount quote (character :: rest)
      if 3 ≤ quotes then
        let kept := min 2 (quotes - 3)
        some (List.replicate kept quote, (character :: rest).drop (kept + 3))
      else if character = '\\' ∧ quote = '"' then
        match lineBreak? (rest.dropWhile isSpace) with
        | some next => linesBody? quote fuel (skipBlankLines next)
        | none => do
            let (escaped, after) ← escape? rest
            (linesBody? quote fuel after).map (prepend escaped)
      else
        match lineBreak? (character :: rest) with
        | some next => (linesBody? quote fuel next).map (prepend '\n')
        | none =>
            if isPlain character then (linesBody? quote fuel rest).map (prepend character)
            else none

def line? : List Char → Option (String × List Char)
  | [] => none
  | quote :: rest =>
      if quote = '"' ∨ quote = '\'' then
        (lineBody? quote (rest.length + 1) rest).map fun (text, after) =>
          (String.ofList text, after)
      else none

/-- A text on one or several lines, and what follows.  A line break right
after three opening quotes is not part of the text. -/
def quoted? (text : List Char) : Option (String × List Char) :=
  match text with
  | [] => none
  | quote :: _ =>
      if (quote = '"' ∨ quote = '\'') ∧ 3 ≤ quoteCount quote text then
        let start := text.drop 3
        let body := (lineBreak? start).getD start
        (linesBody? quote (body.length + 1) body).map fun (content, after) =>
          (String.ofList content, after)
      else line? text

end Milling.TomlText

import Milling.Decimal.Numeral
import Milling.Scalar.Basic
import Milling.Text.Blank

/-!
# Words and comments of a line

A line of a program is cut into code and comments, and its code into words.
-/

/-!
## Comments

A line of a program holds code and comments: a semicolon starts a comment that
runs to the end of the line, and parentheses enclose one.
-/

namespace Milling.Program

theorem length_cutAt {stops : Char → Bool} {text before after : List Char}
    (found : Text.cutAt stops text = some (before, after)) :
    after.length < text.length := by
  unfold Text.cutAt at found
  split at found
  · contradiction
  · rename_i separator tail dropped
    injection found with found
    injection found with _ tailEq
    subst tailEq
    have bound := (List.dropWhile_sublist (fun character => !stops character)
      (l := text)).length_le
    rw [dropped, List.length_cons] at bound
    omega

/-- Splits a line into its code and the texts of its comments.  A comment in
parentheses leaves a blank behind; one that is not closed runs to the end. -/
def splitComments : List Char → List Char × List (List Char)
  | [] => ([], [])
  | character :: rest =>
      if character = ';' then ([], [Text.trim rest])
      else if character = '(' then
        match _found : Text.cutAt (· == ')') rest with
        | some (inside, after) =>
            let (code, comments) := splitComments after
            (' ' :: code, Text.trim inside :: comments)
        | none => ([], [Text.trim rest])
      else
        let (code, comments) := splitComments rest
        (character :: code, comments)
termination_by text => text.length
decreasing_by
  · have := length_cutAt _found
    simp
    omega
  · simp

def stripComments (line : List Char) : List Char := (splitComments line).1

/-- The comments of a line as one text, `none` when it has none. -/
def comment? (line : List Char) : Option String :=
  match (splitComments line).2 with
  | [] => none
  | comments => some (String.ofList ([' '].intercalate comments))

end Milling.Program

/-!
## Words of a line

The code of a line is a sequence of words, each a letter with a value, and of
expressions in brackets that stand alone.  Blanks may stand between a letter
and its value; a character that starts neither is passed over.
-/

namespace Milling.Program

inductive WordValue (α : Type) where
  | number (value : α)
  /-- An expression in brackets, or a reference to a variable. -/
  | expression (text : String)
  | invalid (text : String)
deriving Repr, DecidableEq

inductive Token (α : Type) where
  | word (letter : Char) (value : WordValue α) (raw : String)
  /-- An expression in brackets that belongs to no letter. -/
  | expression (text : String)
deriving Repr, DecidableEq

def Token.letter? : Token α → Option Char
  | .word letter .. => some letter
  | .expression _ => none

def isNumberChar (character : Char) : Bool :=
  character.isDigit || character == '.' || character == '-' || character == '+'

/-- The blanks that may stand between a letter and its value. -/
def isGap (character : Char) : Bool := character == ' ' || character == '\t'

/-- The text up to the bracket that closes the current one, with `depth` more
brackets open inside it, and what follows.  Without one it is the whole text. -/
def bracketBody : Nat → List Char → List Char × List Char
  | _, [] => ([], [])
  | depth, character :: rest =>
      if character = ']' then
        match depth with
        | 0 => ([], rest)
        | inner + 1 =>
            let (body, after) := bracketBody inner rest
            (character :: body, after)
      else
        let (body, after) := bracketBody (if character = '[' then depth + 1 else depth) rest
        (character :: body, after)

theorem length_bracketBody (depth : Nat) (text : List Char) :
    (bracketBody depth text).2.length ≤ text.length := by
  induction text generalizing depth with
  | nil => simp [bracketBody]
  | cons character rest ih =>
      unfold bracketBody
      split
      · cases depth with
        | zero => simp
        | succ inner =>
            have := ih inner
            simp only [List.length_cons]
            omega
      · have := ih (if character = '[' then depth + 1 else depth)
        simp only [List.length_cons]
        omega

section

variable {α : Type} [Scalar α]

def numberValue (raw : List Char) : WordValue α :=
  match Decimal.Numeral.read? raw with
  | some numeral =>
      .number (Scalar.ofDecimal numeral.negative numeral.coefficient numeral.places)
  | none => .invalid (String.ofList raw)

/-- The value at the start of a text, the value's text, and what follows. -/
def wordValue (text : List Char) : WordValue α × String × List Char :=
  match text with
  | '[' :: rest =>
      let (body, after) := bracketBody 0 rest
      let expression := String.ofList (Text.trim body)
      (.expression expression, "[" ++ expression ++ "]", after)
  | '#' :: rest =>
      let reference := String.ofList ('#' :: rest.takeWhile Char.isDigit)
      (.expression reference, reference, rest.dropWhile Char.isDigit)
  | _ =>
      let raw := text.takeWhile isNumberChar
      (numberValue raw, String.ofList raw, text.dropWhile isNumberChar)

theorem length_wordValue (text : List Char) :
    (wordValue (α := α) text).2.2.length ≤ text.length := by
  unfold wordValue
  split
  · rename_i rest
    have := length_bracketBody 0 rest
    simp only [List.length_cons]
    omega
  · rename_i rest
    have := (List.dropWhile_sublist Char.isDigit (l := rest)).length_le
    simp only [List.length_cons]
    omega
  · exact (List.dropWhile_sublist isNumberChar).length_le

def tokenize : List Char → List (Token α)
  | [] => []
  | character :: rest =>
      if character = '[' then
        .expression (String.ofList (Text.trim (bracketBody 0 rest).1)) ::
          tokenize (bracketBody 0 rest).2
      else if character.isAlpha then
        let (value, raw, _) := wordValue (α := α) (rest.dropWhile isGap)
        .word character.toUpper value raw ::
          tokenize (wordValue (α := α) (rest.dropWhile isGap)).2.2
      else tokenize rest
termination_by text => text.length
decreasing_by
  · have := length_bracketBody 0 rest
    simp only [List.length_cons]
    omega
  · have := length_wordValue (α := α) (rest.dropWhile isGap)
    have := (List.dropWhile_sublist isGap (l := rest)).length_le
    simp only [List.length_cons]
    omega
  · simp

end

end Milling.Program

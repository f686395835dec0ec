import Milling.Decimal.Numeral
import Milling.Scalar.Basic
import Milling.Text.Blank

/-!
# Variables

A program assigns numbers to numbered variables and refers to them inside
expressions.  A reference is replaced by the value in parentheses before the
expression is evaluated, and whole numbers are widened so that they divide as
decimals do.
-/

namespace Milling.Program

def greatestVariable : Nat := Nat.pow 2 32 - 1

/-- Numbered variables, the latest assignment first. -/
structure Variables (α : Type) where
  assignments : List (Nat × α) := []
deriving Repr, DecidableEq

/-- What evaluating an expression gives. -/
structure Evaluation (α : Type) where
  value : α
  /-- Variables that were referred to and never assigned; they read as zero. -/
  unresolved : List Nat
  error : Option String
deriving Repr, DecidableEq

def isLiteralChar (character : Char) : Bool :=
  character.isAlphanum || character == '_' || character == '.'

/-- Appends `.0` to the whole numbers of an expression; `inside` says that the
character before belongs to a number or a name. -/
def widenFrom (inside : Bool) : List Char → List Char
  | [] => []
  | character :: rest =>
      if character.isDigit && !inside then
        let digits := rest.takeWhile Char.isDigit
        let after := rest.dropWhile Char.isDigit
        if after.head?.any isLiteralChar then
          character :: digits ++ widenFrom true after
        else character :: digits ++ '.' :: '0' :: widenFrom true after
      else character :: widenFrom (isLiteralChar character) rest
termination_by text => text.length
decreasing_by
  · have := (List.dropWhile_sublist Char.isDigit (l := rest)).length_le
    simp only [List.length_cons]
    omega
  · have := (List.dropWhile_sublist Char.isDigit (l := rest)).length_le
    simp only [List.length_cons]
    omega
  · simp

/-- Appends `.0` to the whole numbers of an expression. -/
def widenIntegers (expression : List Char) : List Char := widenFrom false expression

namespace Variables

variable {α : Type}

def get? (table : Variables α) (number : Nat) : Option α :=
  table.assignments.lookup number

def set (table : Variables α) (number : Nat) (value : α) : Variables α :=
  { assignments :=
      (number, value) :: table.assignments.filter fun entry => entry.1 != number }

def size (table : Variables α) : Nat := table.assignments.length

variable [Scalar α]

/-- Replaces references by values and brackets by parentheses.  The second
component lists the variables that have no value, one entry a reference. -/
def substitute (table : Variables α) : List Char → List Char × List Nat
  | [] => ([], [])
  | character :: rest =>
      if character = '#' then
        let (text, unresolved) := substitute table (rest.dropWhile Char.isDigit)
        match Decimal.boundedNatural? greatestVariable (rest.takeWhile Char.isDigit) with
        | some number =>
            match table.get? number with
            | some value => ('(' :: (Scalar.toText value).toList ++ ')' :: text, unresolved)
            | none =>
                ('(' :: (Scalar.toText (0 : α)).toList ++ ')' :: text, number :: unresolved)
        | none => ('#' :: text, unresolved)
      else
        let (text, unresolved) := substitute table rest
        if character = '[' then ('(' :: text, unresolved)
        else if character = ']' then (')' :: text, unresolved)
        else (character :: text, unresolved)
termination_by text => text.length
decreasing_by
  · have := (List.dropWhile_sublist Char.isDigit (l := rest)).length_le
    simp only [List.length_cons]
    omega
  · simp

/-- Evaluates an expression without its brackets.  `calculate` gives the value
of an expression that refers to no variable, or says why it has none. -/
def evaluate (calculate : String → Except String α) (table : Variables α)
    (expression : String) : Evaluation α :=
  let (text, unresolved) := table.substitute expression.toList
  match calculate (String.ofList (widenIntegers text)) with
  | .ok value => { value, unresolved, error := none }
  | .error reason => { value := 0, unresolved, error := some reason }

end Variables

/-- A text without its outer brackets, if it has both. -/
def withoutBrackets (text : List Char) : List Char :=
  match text with
  | '[' :: rest => if rest.getLast? = some ']' then rest.dropLast else text
  | _ => text

/-- Reads the assignment `#n = expression`: the variable, and the expression
without outer brackets. -/
def assignment? (line : List Char) : Option (Nat × String) :=
  match Text.trim line with
  | '#' :: rest => do
      let (name, value) ← Text.cutAt (· == '=') rest
      let number ← Decimal.boundedNatural? greatestVariable (Text.trim name)
      some (number, String.ofList (Text.trim (withoutBrackets (Text.trim value))))
  | _ => none

end Milling.Program

import Milling.Decimal.Binary
import Milling.Program.Modal
import Milling.Program.Token
import Milling.Toolpath.Point

/-!
# Commands

A line of a program once it is read: its codes in order, the numbers of its
parameter words by letter, and the modal state after it.
-/

namespace Milling.Program

/-- Numbers by letter, letters strictly increasing. -/
structure Parameters (α : Type) where
  entries : List (Char × α) := []
deriving Repr, DecidableEq

namespace Parameters

variable {α : Type}

/-- Entries with one put in its place, in the stead of one with the same letter. -/
def insertEntry (letter : Char) (value : α) : List (Char × α) → List (Char × α)
  | [] => [(letter, value)]
  | (other, kept) :: rest =>
      if letter < other then (letter, value) :: (other, kept) :: rest
      else if letter = other then (letter, value) :: rest
      else (other, kept) :: insertEntry letter value rest

def insert (parameters : Parameters α) (letter : Char) (value : α) : Parameters α :=
  { entries := insertEntry letter value parameters.entries }

def ofList (entries : List (Char × α)) : Parameters α :=
  entries.foldl (fun parameters (letter, value) => parameters.insert letter value) {}

def get? (parameters : Parameters α) (letter : Char) : Option α :=
  parameters.entries.lookup letter

def has (parameters : Parameters α) (letter : Char) : Bool := (parameters.get? letter).isSome

def filter (keeps : Char → α → Bool) (parameters : Parameters α) : Parameters α :=
  { entries := parameters.entries.filter fun (letter, value) => keeps letter value }

instance [BEq α] : BEq (Parameters α) := ⟨fun left right => left.entries == right.entries⟩

end Parameters

/-- One line of a program. -/
structure Command (α : Type) where
  /-- The line's number, from one. -/
  line : Nat
  raw : String
  codes : List Code
  parameters : Parameters α
  tokens : List (Token α)
  /-- The state after the line. -/
  modal : ModalState
  comment : Option String
deriving Repr, DecidableEq

def axisLetters : List Char := ['X', 'Y', 'Z', 'A', 'B', 'C']

def writtenOrder : List Char :=
  axisLetters ++ ['I', 'J', 'K', 'R', 'P', 'Q', 'L', 'F', 'S', 'T']

/-- A decimal without the zeros at its end, and without the point if nothing
is left behind it. -/
def trimDecimal (text : List Char) : List Char :=
  Text.dropEndWhile (· == '.') (Text.dropEndWhile (· == '0') text)

def writtenPlaces : Nat := 4

variable {α : Type} [Scalar α]

/-- The text of a parameter: at most four decimals, none of them a zero at the
end. -/
def numberText (value : α) : String :=
  if Scalar.isFinite value then
    String.ofList
      (trimDecimal (Decimal.fixedText writtenPlaces (Scalar.scaled writtenPlaces value)))
  else Scalar.toText value

namespace Command

omit [Scalar α] in
def code? (command : Command α) : Option Code := command.codes.getLast?

omit [Scalar α] in
def get? (command : Command α) (letter : Char) : Option α := command.parameters.get? letter

omit [Scalar α] in
def has (command : Command α) (letter : Char) : Bool := command.parameters.has letter

/-- The line written again: its codes, then its parameters in order. -/
def text (command : Command α) : String :=
  let word (letter : Char) (value : α) : String := letter.toString ++ numberText value
  let known := writtenOrder.filterMap fun letter => (command.get? letter).map (word letter)
  let others := command.parameters.entries.filterMap fun (letter, value) =>
    if letter ∈ writtenOrder then none else some (word letter value)
  String.intercalate " " (command.codes.map Code.text ++ known ++ others)

/-- The number of a tool word: whole and not negative, and no greater than
the greatest tool number. -/
def toolNumber? (greatest : Nat) (value : α) : Option Nat :=
  if decide (0 ≤ value) && Scalar.isWhole value then
    some (min (Scalar.floor value).toNat greatest)
  else none

end Command

structure ToolChange where
  line : Nat
  before : Nat
  after : Nat
deriving Repr, DecidableEq

namespace ToolChange

def greatestTool : Nat := Nat.pow 2 32 - 1

def ofCommands (tool : Nat) : List (Command α) → List ToolChange
  | [] => []
  | command :: rest =>
      match (command.get? 'T').bind (Command.toolNumber? greatestTool) with
      | some next =>
          if next = tool then ofCommands tool rest
          else { line := command.line, before := tool, after := next } :: ofCommands next rest
      | none => ofCommands tool rest

end ToolChange

def range? : List α → Option (α × α)
  | [] => none
  | first :: rest =>
      some (rest.foldl
        (fun (low, high) value => (Scalar.lesser low value, Scalar.greater high value))
        (first, first))

/-- The box around the X, Y and Z words that were written; an axis without one
reads as zero. -/
def writtenBounds? (commands : List (Command α)) : Option (Bounds α) :=
  let along (letter : Char) : Option (α × α) :=
    range? (commands.filterMap fun command => command.get? letter)
  match along 'X', along 'Y', along 'Z' with
  | none, none, none => none
  | x, y, z =>
      let (lowX, highX) := x.getD (0, 0)
      let (lowY, highY) := y.getD (0, 0)
      let (lowZ, highZ) := z.getD (0, 0)
      some {
        low := { x := lowX, y := lowY, z := lowZ }
        high := { x := highX, y := highY, z := highZ } }

end Milling.Program

import Milling.Scalar.Basic
import Milling.Text.Blank
import Milling.Text.LetterCase

/-!
# Units of length

A program declares millimeters or inches.  Units are tracked and never
converted silently.
-/

namespace Milling

inductive Units where
  | millimeters
  | inches
deriving Repr, DecidableEq

namespace Units

def ofCode? : Nat → Option Units
  | 20 => some .inches
  | 21 => some .millimeters
  | _ => none

def ofFlag? : Nat → Option Units
  | 0 => some .millimeters
  | 1 => some .inches
  | _ => none

def word : Units → String
  | .millimeters => "G21"
  | .inches => "G20"

def label : Units → String
  | .millimeters => "mm"
  | .inches => "in"

def display : Units → String
  | .millimeters => "mm"
  | .inches => "inch"

def name : Units → String
  | .millimeters => "millimeters"
  | .inches => "inches"

def ofName? (name : String) : Option Units :=
  if name = "millimeters" ∨ name = "mm" then some .millimeters
  else if name = "inches" ∨ name = "inch" then some .inches
  else none

/-- Units typed by a user: blanks around the name and its case do not matter. -/
def read? (text : String) : Option Units :=
  let name := String.ofList (Text.lower (Text.trim text.toList))
  if name ∈ ["mm", "millimeters", "metric", "g21"] then some .millimeters
  else if name ∈ ["in", "inch", "inches", "imperial", "g20"] then some .inches
  else none

variable {α : Type} [Scalar α]

def millimetersPerInch : α := 25.4

/-- A length in these units, in other units. -/
def convert (value : α) (units target : Units) : α :=
  match units, target with
  | .millimeters, .inches => value / millimetersPerInch
  | .inches, .millimeters => value * millimetersPerInch
  | _, _ => value

def toMillimeters (value : α) (units : Units) : α := convert value units .millimeters

def lengthText (value : α) (units : Units) : String :=
  Scalar.toFixed 3 value ++ " " ++ units.label

def feedText (value : α) (units : Units) : String :=
  Scalar.toFixed 1 value ++ " " ++ units.label ++ "/min"

end Units

end Milling

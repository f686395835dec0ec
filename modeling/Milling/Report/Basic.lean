import Milling.Scalar.Basic

/-!
# Reports of faults

What reading, checking and verifying can find, and the reports that collect it.
-/

/-!
## Faults of programs and toolpaths

What reading, checking and verifying can find.  A fault names the line of the
program, or the index of the point, that it was found at.
-/

namespace Milling

/-- A fault found in a program or a toolpath. -/
inductive Fault (α : Type) where
  | invalidParameter (line : Nat) (parameter reason : String)
  | unresolvedVariable (line : Nat) (variableName : String)
  | expressionFailed (line : Nat) (expression reason : String)
  | feedOnRapid (line : Nat)
  /-- A circular move has neither centre nor radius. -/
  | missingArcCenter (line : Nat)
  | nonPositiveFeed (line : Nat) (value : α)
  | negativeSpindle (line : Nat) (value : α)
  | nonFiniteAxis (line : Nat) (axis : Char)
  | outOfBounds (line : Nat) (axis : Char) (value limit : α)
  /-- A code that controllers may not know. -/
  | unsupportedCode (line : Nat) (code : String)
  | modalConflict (line : Nat)
  | feedExceeded (line : Nat) (value limit : α)
  /-- A rapid ends below the surface of the stock. -/
  | rapidIntoMaterial (index : Nat)
  /-- A straight move is much shorter than the tool is wide. -/
  | shortMove (index : Nat) (length : α)
deriving Repr, DecidableEq

namespace Fault

variable {α : Type}

def line? : Fault α → Option Nat
  | .invalidParameter line .. => some line
  | .unresolvedVariable line .. => some line
  | .expressionFailed line .. => some line
  | .feedOnRapid line => some line
  | .missingArcCenter line => some line
  | .nonPositiveFeed line .. => some line
  | .negativeSpindle line .. => some line
  | .nonFiniteAxis line .. => some line
  | .outOfBounds line .. => some line
  | .unsupportedCode line .. => some line
  | .modalConflict line => some line
  | .feedExceeded line .. => some line
  | .rapidIntoMaterial .. => none
  | .shortMove .. => none

def message [Scalar α] : Fault α → String
  | .invalidParameter line parameter reason =>
      "Invalid parameter '" ++ parameter ++ "' at line " ++ toString line ++ ": " ++ reason
  | .unresolvedVariable line variableName =>
      "Unresolved variable #" ++ variableName ++ " at line " ++ toString line ++ ", using 0"
  | .expressionFailed line expression reason =>
      "Expression [" ++ expression ++ "] at line " ++ toString line ++ " failed: " ++ reason
  | .feedOnRapid line =>
      "Line " ++ toString line ++ ": Feed rate specified with rapid move (G0)"
  | .missingArcCenter line =>
      "Line " ++ toString line ++ ": Circular move without I/J/K or R parameters"
  | .nonPositiveFeed line value =>
      "Line " ++ toString line ++ ": Feed rate must be positive (got " ++
        Scalar.toText value ++ ")"
  | .negativeSpindle line value =>
      "Line " ++ toString line ++ ": Spindle speed cannot be negative (got " ++
        Scalar.toText value ++ ")"
  | .nonFiniteAxis line axis =>
      "Line " ++ toString line ++ ": Invalid value for axis " ++ axis.toString
  | .outOfBounds line axis value limit =>
      "Line " ++ toString line ++ ": " ++ axis.toString ++ " axis out of bounds (" ++
        Scalar.toText value ++ " > " ++ Scalar.toText limit ++ ")"
  | .unsupportedCode line code =>
      "Line " ++ toString line ++ ": Command " ++ code ++ " may not be supported"
  | .modalConflict line =>
      "Line " ++ toString line ++ ": Multiple motion commands (G0 and G1)"
  | .feedExceeded line value limit =>
      "Line " ++ toString line ++ ": Feed rate exceeds maximum (" ++
        Scalar.toText value ++ " > " ++ Scalar.toText limit ++ ")"
  | .rapidIntoMaterial index => "Rapid move into material at point " ++ toString index
  | .shortMove index length =>
      "Very short move at point " ++ toString index ++ " (" ++
        Scalar.toFixed 4 length ++ "), consider optimizing"

end Fault

end Milling

/-!
## Reports

The errors and warnings that a check collects.
-/

namespace Milling

variable {α : Type}

/-- The faults found by a check, by how serious they are. -/
structure Report (α : Type) where
  errors : List (Fault α) := []
  warnings : List (Fault α) := []
deriving Repr, DecidableEq

namespace Report

def isValid (report : Report α) : Bool := report.errors.isEmpty

def isClean (report : Report α) : Bool := report.errors.isEmpty && report.warnings.isEmpty

/-- The faults of two reports, those of the first before those of the second. -/
def append (first second : Report α) : Report α :=
  { errors := first.errors ++ second.errors
    warnings := first.warnings ++ second.warnings }

instance : Append (Report α) := ⟨append⟩

def error (fault : Fault α) : Report α := { errors := [fault] }

def warning (fault : Fault α) : Report α := { warnings := [fault] }

def concat (reports : List (Report α)) : Report α :=
  { errors := reports.flatMap Report.errors
    warnings := reports.flatMap Report.warnings }

def errorIf (condition : Bool) (fault : Fault α) : Report α :=
  if condition then error fault else {}

def warningIf (condition : Bool) (fault : Fault α) : Report α :=
  if condition then warning fault else {}

end Report

end Milling

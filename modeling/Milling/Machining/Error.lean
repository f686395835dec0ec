import Milling.Scalar.Basic

/-!
# Refused operations

Why an operation is refused, or has no toolpath.
-/

namespace Milling

variable {α : Type}

/-- What a parameter has to be, with the value it has. -/
inductive Requirement (α : Type) where
  | finite (given : α)
  | positive (given : α)
  | notNegative (given : α)
  /-- A depth lies at the top of the stock or below. -/
  | belowTop (given : α)
  | passes (most : Nat)
  | pecks (most : Nat)
  | segments (least : Nat)
deriving Repr, DecidableEq

/-- A parameter that an operation cannot have. -/
inductive ParameterError (α : Type) where
  | missing (parameter : String)
  | outOfRange (parameter : String) (given low high : α)
  | invalid (parameter : String) (requirement : Requirement α)
  | tooFewPoints (least given : Nat)
  | unboundedPoint (index : Nat)
  | unboundedHole (index : Nat)
  | openBoundary
deriving Repr, DecidableEq

/-- Why an operation gives no toolpath. -/
inductive MachiningError (α : Type) where
  | parameter (error : ParameterError α)
  /-- Only holes can be drilled in another order. -/
  | notHoles (operation : String)
  | offsetFailed (distance : α)
  | emptyPath
  | noOutsideLoop
  | noOpenPath
  | tooNarrow (diameter : α)
  | noBoundary
  | tooManyRows (most : Nat)
  /-- The segments of a helix are more than 32 bits count. -/
  | overflow
deriving Repr, DecidableEq

variable [Scalar α]

namespace Requirement

def message : Requirement α → String
  | .finite given => "must be finite, got " ++ Scalar.toText given
  | .positive given => "must be positive, got " ++ Scalar.toText given
  | .notNegative given => "cannot be negative, got " ++ Scalar.toText given
  | .belowTop given => "must be zero or below the stock top, got " ++ Scalar.toText given
  | .passes most => "more than " ++ toString most ++ " depth passes"
  | .pecks most => "more than " ++ toString most ++ " pecks per hole"
  | .segments least => "must be at least " ++ toString least

end Requirement

namespace ParameterError

def message : ParameterError α → String
  | .missing parameter => "Missing required parameter: " ++ parameter
  | .outOfRange parameter given low high =>
      "Parameter '" ++ parameter ++ "' out of range: " ++ Scalar.toText given ++
        " (valid: " ++ Scalar.toText low ++ ".." ++ Scalar.toText high ++ ")"
  | .invalid parameter requirement =>
      "Invalid value for '" ++ parameter ++ "': " ++ requirement.message
  | .tooFewPoints least given =>
      "Invalid geometry: need at least " ++ toString least ++ " points, got " ++ toString given
  | .unboundedPoint index =>
      "Invalid geometry: point " ++ toString index ++ " is not finite"
  | .unboundedHole index =>
      "Invalid geometry: drill point " ++ toString index ++ " is not finite"
  | .openBoundary => "Invalid geometry: pocket boundary must be closed"

end ParameterError

namespace MachiningError

def message : MachiningError α → String
  | .parameter error => "Parameter error: " ++ error.message
  | .notHoles operation =>
      "Invalid parameters: only drill operations can be reordered, got " ++ operation
  | .offsetFailed distance =>
      "Geometry error: offset by " ++ Scalar.toText distance ++ " failed"
  | .emptyPath => "Geometry error: contour produced an empty path"
  | .noOutsideLoop => "Geometry error: outside offset produced no loop"
  | .noOpenPath => "Geometry error: open offset produced no path"
  | .tooNarrow diameter =>
      "Geometry error: pocket is too narrow for a " ++ Scalar.toText diameter ++ " mm tool"
  | .noBoundary => "Geometry error: pocket boundary has no points"
  | .tooManyRows most =>
      "Toolpath generation failed: more than " ++ toString most ++ " clearing rows"
  | .overflow => "attempt to multiply with overflow"

end MachiningError

end Milling

import Milling.Posting.Compaction
import Milling.Posting.Dialect
import Milling.Posting.Emission
import Milling.Text.Blank

/-!
# Programs in registered dialects
-/

/-!
## Registered dialects

The dialects that programs can be written in, in the order they were added.
-/

namespace Milling.Posting

/-- Dialects by name. -/
structure Registry where
  dialects : List Dialect := Dialect.builtIn
deriving Repr, DecidableEq

namespace Registry

/-- The dialects with one put in the place of that with the same name. -/
def replaceFirst (dialect : Dialect) : List Dialect → Option (List Dialect × Dialect)
  | [] => none
  | other :: rest =>
      if other.id = dialect.id then some (dialect :: rest, other)
      else (replaceFirst dialect rest).map fun (replaced, old) => (other :: replaced, old)

/-- The registry with one more dialect, and the one it replaces. -/
def register (registry : Registry) (dialect : Dialect) : Registry × Option Dialect :=
  match replaceFirst dialect registry.dialects with
  | some (dialects, old) => ({ dialects }, some old)
  | none => ({ dialects := registry.dialects ++ [dialect] }, none)

def get? (registry : Registry) (id : String) : Option Dialect :=
  registry.dialects.find? fun dialect =>
    Text.lowerAscii dialect.id.toList == Text.lowerAscii id.toList

def resolve (registry : Registry) (id : String) : Dialect :=
  match registry.get? id with
  | some dialect => dialect
  | none => (registry.get? Dialect.generic.id).getD Dialect.generic

end Registry

end Milling.Posting

/-!
## Writing programs

A toolpath as the text of a program in a dialect: the preamble, the tools, a
move to safety, the points, and the footer.
-/

namespace Milling.Posting

variable {α : Type}

/-- What programs are written with. -/
structure Poster (α : Type) where
  registry : Registry := {}
  safeZ : α
  /-- The units that programs declare; coordinates are written as they are. -/
  units : Units := .millimeters
  decimals : Option Nat := none

/-- Why a toolpath is not written. -/
inductive PostError where
  | emptyToolpath
  | invalidPoint (error : PointError)
deriving Repr, DecidableEq

def PostError.message : PostError → String
  | .emptyToolpath => "Toolpath has no points"
  | .invalidPoint error =>
      "Point " ++ toString error.index ++ " cannot be emitted: " ++ error.letter.toString ++
        " is not finite"

namespace Poster

def dialect (poster : Poster α) (id : String) : Dialect :=
  let dialect := poster.registry.resolve id
  match poster.decimals with
  | some decimals => { dialect with decimals }
  | none => dialect

variable [Scalar α]

def standardSafeZ : α := 10

def standard : Poster α := { safeZ := standardSafeZ }

def draft (poster : Poster α) (date : String) (dialect : Dialect)
    (operations : List (Operation α)) (points : List (MotionPoint α)) : List Line :=
  dialect.preamble poster.units date ++ toolTable dialect operations ++
    [dialect.heightMove poster.safeZ, dialect.originMove (α := α)] ++
    pathLines dialect {} points ++ dialect.footer poster.safeZ

def lines (poster : Poster α) (date : String) (path : Toolpath α)
    (operations : List (Operation α)) (id : String) : Except PostError (List Line) :=
  if path.points.isEmpty then .error .emptyToolpath
  else
    match pointError? path.points with
    | some error => .error (.invalidPoint error)
    | none => .ok (compact (poster.draft date (poster.dialect id) operations path.points))

/-- The program of a toolpath in the dialect with a name.  Operations only
give the list of tools. -/
def program (poster : Poster α) (date : String) (path : Toolpath α)
    (operations : List (Operation α)) (id : String) : Except PostError String := do
  let lines ← poster.lines date path operations id
  pure (String.ofList (lines.flatMap fun line => line ++ ['\n']))

end Poster

end Milling.Posting

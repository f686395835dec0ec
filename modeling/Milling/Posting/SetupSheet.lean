import Milling.Posting.Poster
import Milling.Toolpath.CycleTime

/-!
# Setup sheets

What the operator of a machine has to know about a program.
-/

namespace Milling.Posting

variable {α : Type}

structure SheetTool (α : Type) where
  number : Nat
  kind : ToolKind
  description : String
  diameter : α
  flutes : Nat
deriving Repr, DecidableEq

structure SheetOperation (α : Type) where
  kind : String
  tool : Nat
  depth : α
  feed : α
  spindle : α
deriving Repr, DecidableEq

/-- A summary of a program. -/
structure SetupSheet (α : Type) where
  extension : String
  dialect : String
  lines : Nat
  tools : List (SheetTool α)
  operations : List (SheetOperation α)
  duration : Duration
  notes : List String
deriving Repr, DecidableEq

variable [Scalar α]

def notableSpeed : α := 20000

def safetyNotes (path : Toolpath α) (operations : List (Operation α)) : List String :=
  let depth :=
    match operations.map Operation.depth with
    | [] => []
    | first :: rest =>
        let deepest := rest.foldl Scalar.lesser first
        ["Verify stock is thicker than the deepest cut (" ++
          Scalar.toFixed 3 (Scalar.magnitude deepest) ++ " mm)"]
  let tools :=
    if 1 < path.tools.length then
      ["Program uses " ++ toString path.tools.length ++
        " tools; check tool length offsets before running"]
    else []
  let cycles :=
    if path.points.any isDrilling then
      ["Canned drill cycles present; confirm retract plane"]
    else []
  let speeds :=
    if operations.any fun operation => decide (notableSpeed < operation.cut.spindle) then
      ["Spindle speed above 20000 RPM; confirm spindle rating"]
    else []
  depth ++ tools ++ cycles ++ speeds

def SetupSheet.of (dialect : Dialect) (program : String) (path : Toolpath α)
    (operations : List (Operation α)) : SetupSheet α :=
  { extension := dialect.extension
    dialect := dialect.name
    lines := (Text.lines program.toList).length
    tools := (operationTools operations).map fun tool =>
      { number := tool.number, kind := tool.kind, description := tool.description
        diameter := tool.diameter, flutes := tool.flutes }
    operations := operations.map fun operation =>
      { kind := operation.name, tool := operation.tool.number, depth := operation.depth
        feed := operation.cut.feed, spindle := operation.cut.spindle }
    duration := path.cycleTime
    notes := safetyNotes path operations }

end Milling.Posting

import Milling.Machining.Profile

/-!
# Raster passes

The rows that cover the part of a pocket at a distance from its walls.  A row
crosses the edges of that part at places that, taken in pairs from left to
right, bound the stretches inside.
-/

namespace Milling

variable {α : Type} [Scalar α]

/-- A straight pass of a row. -/
structure RasterPass (α : Type) where
  start : PlanePoint α
  stop : PlanePoint α
deriving Repr, DecidableEq

namespace Raster

def mostRows : Nat := 100000

/-- Rows closer than this to the upper limit stand for it. -/
def rowTolerance : α := 1e-9

/-- How far from an arc the chords may be that replace it. -/
def arcTolerance : α := 1e-4

/-- How far inside the limits their rows are scanned. -/
def nudge : α := 1e-7

def shortestPass : α := 1e-6

abbrev Edge (α : Type) := PlanePoint α × PlanePoint α

/-- An edge crosses a height: it has one end at or below it and one above. -/
def crosses (y : α) (edge : Edge α) : Bool :=
  (decide (edge.1.y ≤ y) && decide (y < edge.2.y)) ||
    (decide (edge.2.y ≤ y) && decide (y < edge.1.y))

def crossingAt (y : α) (edge : Edge α) : α :=
  edge.1.x + (y - edge.1.y) * (edge.2.x - edge.1.x) / (edge.2.y - edge.1.y)

/-- Elements taken two by two; one left over is dropped. -/
def pairs : List β → List (β × β)
  | first :: second :: rest => (first, second) :: pairs rest
  | _ => []

def intervals (edges : List (Edge α)) (y : α) : List (α × α) :=
  let crossings := (edges.filter (crosses y)).map (crossingAt y)
  pairs (crossings.mergeSort fun left right => decide (left ≤ right))

/-- The lowest and the highest start of an edge. -/
def span? (edges : List (Edge α)) : Option (α × α) :=
  match edges with
  | [] => none
  | first :: rest =>
      some (rest.foldl
        (fun (low, high) edge => (Scalar.lesser low edge.1.y, Scalar.greater high edge.1.y))
        (first.1.y, first.1.y))

def rowHeight (low step : α) : Nat → α
  | 0 => low
  | row + 1 => low + step * Scalar.ofInt (row + 1 : Nat)

/-- How many rows from a given one on lie within the upper limit; `none` when
they are more than allowed. -/
def rowCount? (low high step : α) : Nat → Nat → Option Nat
  | allowed, row =>
      if rowHeight low step row ≤ high + rowTolerance then
        match allowed with
        | 0 => none
        | allowed + 1 => rowCount? low high step allowed (row + 1)
      else some row

/-- The heights of the rows, the last one at the upper limit; `none` when they
are too many. -/
def rowHeights? (low high step : α) : Option (List α) :=
  (rowCount? low high step mostRows 0).map fun count =>
    let heights := (List.range count).map fun row =>
      Scalar.lesser (rowHeight low step row) high
    match heights.getLast? with
    | some last => if rowTolerance < high - last then heights ++ [high] else heights
    | none => heights

def scanHeight (low high y : α) : α :=
  let least := low + nudge
  let most := Scalar.greater (high - nudge) least
  if y < least then least else if most < y then most else y

def rowPasses (edges : List (Edge α)) (y : α) : List (RasterPass α) :=
  ((intervals edges y).filter fun (left, right) => decide (shortestPass ≤ right - left)).map
    fun (left, right) => { start := { x := left, y }, stop := { x := right, y } }

def turned (pass : RasterPass α) : RasterPass α := { start := pass.stop, stop := pass.start }

/-- The passes of a row in the direction of its travel: every second row goes
from right to left. -/
def directed (row : Nat) (passes : List (RasterPass α)) : List (RasterPass α) :=
  if row % 2 = 1 then passes.reverse.map turned else passes

def rowsOf (edges : List (Edge α)) (step : α) :
    Except (MachiningError α) (List (List (RasterPass α))) :=
  match span? edges with
  | none => .ok []
  | some (low, high) =>
      match rowHeights? low high step with
      | none => .error (.tooManyRows mostRows)
      | some heights =>
          .ok (heights.zipIdx.map fun (y, row) =>
            directed row (rowPasses edges (scanHeight low high y)))

/-- The edges of the part of a boundary at a distance from its walls. -/
def insetEdges (offsetter : Offsetter α) (boundary : Polyline α) (inset : α) :
    Except (MachiningError α) (List (Edge α)) := do
  let loops ← Offsetter.orError (offsetter.aroundClosed boundary (-inset))
  pure (loops.flatMap fun loop =>
    Polyline.segments { points := loop.flattened arcTolerance, closed := true })

def rows (offsetter : Offsetter α) (boundary : Polyline α) (inset step : α) :
    Except (MachiningError α) (List (List (RasterPass α))) := do
  rowsOf (← insetEdges offsetter boundary inset) step

end Raster

end Milling

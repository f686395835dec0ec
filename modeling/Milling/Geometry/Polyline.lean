import Milling.Scalar.Basic

/-!
# Plane points and polylines

The outlines that are machined: points of the XY plane, and ordered vertex
lists that may close back to their first vertex.
-/

namespace Milling

variable {α : Type}

/-- A point of the XY plane. -/
structure PlanePoint (α : Type) where
  x : α
  y : α
deriving Repr, DecidableEq

/-- An ordered vertex list, closed back to its first vertex or open. -/
structure Polyline (α : Type) where
  points : List (PlanePoint α)
  closed : Bool := false
deriving Repr, DecidableEq

namespace PlanePoint

variable [Scalar α]

def distance (start stop : PlanePoint α) : α :=
  Scalar.hypot (stop.x - start.x) (stop.y - start.y)

def isFinite (point : PlanePoint α) : Bool :=
  Scalar.isFinite point.x && Scalar.isFinite point.y

end PlanePoint

namespace Polyline

/-- Consecutive pairs of a list. -/
def steps : List β → List (β × β)
  | first :: second :: rest => (first, second) :: steps (second :: rest)
  | _ => []

/-- Consecutive pairs of a list, then its last element with its first. -/
def cyclicSteps : List β → List (β × β)
  | [] => []
  | first :: rest => steps (first :: rest ++ [first])

/-- The segments between consecutive vertices; the closing one only from
three vertices on. -/
def segments (polyline : Polyline α) : List (PlanePoint α × PlanePoint α) :=
  if polyline.closed ∧ 2 < polyline.points.length then cyclicSteps polyline.points
  else steps polyline.points

def reversed (polyline : Polyline α) : Polyline α :=
  { polyline with points := polyline.points.reverse }

variable [Scalar α]

/-- The rectangle with its lower left corner at `(x, y)`, counterclockwise. -/
def rectangle (x y width height : α) : Polyline α :=
  { points := [
      { x, y }, { x := x + width, y },
      { x := x + width, y := y + height }, { x, y := y + height }]
    closed := true }

/-- The area by the shoelace formula, positive when the vertices go
counterclockwise. -/
def signedArea (polyline : Polyline α) : α :=
  if polyline.points.length < 3 then 0
  else
    let sum := (cyclicSteps polyline.points).foldl
      (fun total (start, stop) => total + (start.x * stop.y - stop.x * start.y)) 0
    sum / 2

def isCounterclockwise (polyline : Polyline α) : Bool := decide (0 < polyline.signedArea)

/-- The average of the vertices. -/
def centroid? (polyline : Polyline α) : Option (PlanePoint α) :=
  match polyline.points with
  | [] => none
  | points =>
      let count : α := Scalar.ofInt points.length
      let width := points.foldl (fun total point => total + point.x) 0
      let height := points.foldl (fun total point => total + point.y) 0
      some { x := width / count, y := height / count }

def corners? (polyline : Polyline α) : Option (PlanePoint α × PlanePoint α) :=
  match polyline.points with
  | [] => none
  | first :: rest =>
      some (rest.foldl
        (fun (low, high) point =>
          ({ x := Scalar.lesser low.x point.x, y := Scalar.lesser low.y point.y },
            { x := Scalar.greater high.x point.x, y := Scalar.greater high.y point.y }))
        (first, first))

end Polyline

end Milling

import Milling.Geometry.Polyline
import Milling.Toolpath.Point

/-!
# Loops of lines and arcs

A loop is a list of vertices, closed or open.  The bulge of a vertex gives the
segment to the next one: zero for a line, otherwise the tangent of a quarter
of the arc's sweep, positive when the arc turns counterclockwise.
-/

namespace Milling

variable {α : Type}

/-- A vertex with the bulge of the segment to the next one. -/
structure BulgeVertex (α : Type) where
  point : PlanePoint α
  bulge : α
deriving Repr, DecidableEq

structure ArcMove (α : Type) where
  rotation : Rotation
  center : PlanePoint α
deriving Repr, DecidableEq

/-- Where a move of a path leads, along an arc or straight. -/
structure PathVertex (α : Type) where
  point : PlanePoint α
  arc : Option (ArcMove α) := none
deriving Repr, DecidableEq

/-- A loop of lines and arcs. -/
structure OffsetLoop (α : Type) where
  vertices : List (BulgeVertex α)
  closed : Bool
deriving Repr, DecidableEq

namespace OffsetLoop

def points (loop : OffsetLoop α) : List (PlanePoint α) := loop.vertices.map BulgeVertex.point

def bulges (loop : OffsetLoop α) : List α := loop.vertices.map BulgeVertex.bulge

/-- The same loop from another vertex on; an open loop keeps its start. -/
def rotated (loop : OffsetLoop α) (start : Nat) : OffsetLoop α :=
  if loop.closed then
    { loop with vertices := loop.vertices.rotateLeft (start % loop.vertices.length) }
  else loop

def segments (loop : OffsetLoop α) : List (BulgeVertex α × PlanePoint α) :=
  match loop.points with
  | [] => []
  | first :: rest =>
      loop.vertices.zip (if loop.closed then rest ++ [first] else rest)

variable [Scalar α]

def ofPolyline (polyline : Polyline α) : OffsetLoop α :=
  { vertices := polyline.points.map fun point => { point, bulge := 0 }
    closed := polyline.closed }

/-- The area enclosed by the vertices, arcs replaced by their chords. -/
def signedArea (loop : OffsetLoop α) : α :=
  Polyline.signedArea { points := loop.points, closed := loop.closed }

/-- The same way travelled backwards.  A closed loop keeps its first vertex. -/
def reversed (loop : OffsetLoop α) : OffsetLoop α :=
  let withBulges (points : List (PlanePoint α)) (bulges : List α) : List (BulgeVertex α) :=
    points.zipWith (fun point bulge => { point, bulge }) bulges
  if loop.closed then
    match loop.points with
    | [] => loop
    | first :: rest =>
        { loop with
          vertices := withBulges (first :: rest.reverse)
            (loop.bulges.reverse.map fun bulge => -bulge) }
  else
    { loop with
      vertices := withBulges loop.points.reverse
        ((loop.bulges.dropLast.reverse.map fun bulge => -bulge) ++ [0]) }

/-- Bulges and chords shorter than this are taken for nothing. -/
def negligible : α := 1e-9

/-- The arc that a bulge describes between two points; `none` for a line.  The
centre lies on the chord's perpendicular at `(1 - b²) / 4b` chord lengths from
its middle. -/
def arcOfBulge? (start stop : PlanePoint α) (bulge : α) : Option (ArcMove α) :=
  if Scalar.magnitude bulge < negligible ∨ start.distance stop < negligible then none
  else
    let dx := stop.x - start.x
    let dy := stop.y - start.y
    let lift := (1 - bulge * bulge) / (4 * bulge)
    some {
      rotation := if 0 < bulge then .counterclockwise else .clockwise
      center := {
        x := (start.x + stop.x) / 2 - dy * lift
        y := (start.y + stop.y) / 2 + dx * lift } }

/-- The moves along a loop from its first vertex on; a closed loop ends where
it started. -/
def toPath (loop : OffsetLoop α) : List (PathVertex α) :=
  match loop.points with
  | [] => []
  | first :: _ =>
      { point := first } ::
        loop.segments.map fun (vertex, stop) =>
          { point := stop, arc := arcOfBulge? vertex.point stop vertex.bulge }

def chordCount (tolerance radius sweep : α) : Nat :=
  let size := Scalar.magnitude sweep
  let widest :=
    if tolerance < radius then 2 * Scalar.acos (1 - tolerance / radius) else size
  let ratio := size / widest
  if Scalar.isFinite ratio then max 1 (Scalar.ceil ratio).toNat else 1

def arcPoints (tolerance : α) (arc : ArcMove α) (start : PlanePoint α) (bulge : α) :
    List (PlanePoint α) :=
  let center := arc.center
  let radius := center.distance start
  let sweep := 4 * Scalar.atan bulge
  let count := chordCount tolerance radius sweep
  let first := Scalar.atan2 (start.y - center.y) (start.x - center.x)
  (List.range (count - 1)).map fun (index : Nat) =>
    let angle := first + sweep * Scalar.ofInt (index + 1 : Nat) / Scalar.ofInt count
    { x := center.x + radius * Scalar.cos angle
      y := center.y + radius * Scalar.sin angle }

def flattened (loop : OffsetLoop α) (tolerance : α) : List (PlanePoint α) :=
  let pieces := loop.segments.flatMap fun (vertex, stop) =>
    vertex.point ::
      match arcOfBulge? vertex.point stop vertex.bulge with
      | some arc => arcPoints tolerance arc vertex.point vertex.bulge
      | none => []
  match loop.closed, loop.points.getLast? with
  | false, some last => pieces ++ [last]
  | _, _ => pieces

end OffsetLoop

end Milling

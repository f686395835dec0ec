import Milling.Offset.Inset
import Milling.Offset.Slice

/-!
# Parallel offset curves

The slices of the raw offset curve are stitched end to start into the curves
that keep a distance from a source.
-/

namespace Milling.Offset

def stepsAhead (lastVertex segment other : Nat) : Nat :=
  if segment ≤ other then other - segment else lastVertex - segment + other

def appendSlice (trail : Trail) (slice : Slice) : Trail :=
  slice.vertices.foldl Trail.extend trail

def joins (left right : Option Point) : Bool :=
  match left, right with
  | some left, some right => Point.same joinTolerance left right
  | _, _ => false

def meetsEnd (left right : Option Point) : Bool :=
  match left, right with
  | some left, some right =>
      let square (point : Point) : Box := (Box.around point point).grown joinTolerance
      (square left).touches (square right)
  | _, _ => false

abbrev NumberedSlice := Nat × Slice

/-- The slice that continues another one, of those still unused: the next one
along the raw curve, at equal distance one that does not close the curve. -/
def continuation? (lastVertex : Nat) (start : Option Point) (current : Slice)
    (unused : List NumberedSlice) : Option NumberedSlice :=
  let steps (slice : NumberedSlice) : Nat :=
    stepsAhead lastVertex current.segment slice.2.segment
  let closes (slice : NumberedSlice) : Bool := joins slice.2.stop? start
  let before (left right : NumberedSlice) : Bool :=
    decide (steps left < steps right) ||
      (steps left == steps right && (!closes left || closes right))
  ((unused.filter fun slice => meetsEnd slice.2.start? current.stop?).mergeSort before).head?

/-- A trail led through a slice and the slices that continue it, with the
slices left over.  Every step uses a slice up, so as many steps as slices
suffice. -/
def stitchFrom (lastVertex : Nat) (start : Option Point) :
    Nat → Trail → Slice → List NumberedSlice → Trail × List NumberedSlice
  | 0, trail, current, unused => (appendSlice trail current, unused)
  | fuel + 1, trail, current, unused =>
      let extended := appendSlice trail current
      match continuation? lastVertex start current unused with
      | none => (extended, unused)
      | some (number, next) =>
          stitchFrom lastVertex start fuel (extended.drop 1) next
            (unused.filter fun slice => slice.1 != number)

def finish (closed : Bool) (trail : Trail) : OffsetLoop Float :=
  let vertices := trail.reverse
  let round := joins (vertices.head?.map BulgeVertex.point) (trail.head?.map BulgeVertex.point)
  if closed && round then { vertices := vertices.dropLast, closed := true }
  else { vertices, closed := false }

def stitchAll (closed : Bool) (lastVertex : Nat) :
    Nat → List NumberedSlice → List (OffsetLoop Float)
  | 0, _ => []
  | _, [] => []
  | fuel + 1, (_, first) :: unused =>
      let (trail, rest) :=
        stitchFrom lastVertex first.start? unused.length [] first unused
      let others := stitchAll closed lastVertex fuel rest
      if trail.length < 2 then others else finish closed trail :: others

def stitch (curve : OffsetLoop Float) (slices : List Slice) : List (OffsetLoop Float) :=
  match slices with
  | [only] => [finish curve.closed (appendSlice [] only)]
  | slices =>
      stitchAll curve.closed (curve.vertices.length - 1) slices.length
        (slices.zipIdx.map fun (slice, number) => (number, slice))

/-- The curves to the left of a source at a distance, to the right at a
negative one. -/
def parallel (source : Polyline Float) (distance : Float) : List (OffsetLoop Float) :=
  let curve := if source.points.length < 2 then { vertices := [], closed := source.closed }
    else rawCurve source distance
  let segments := (OffsetLoop.ofPolyline source).segments.map fun (vertex, stop) =>
    (vertex.point, stop)
  let kept : Source := { segments, distance }
  if source.closed then stitch curve (closedSlices kept curve)
  else
    let ends := source.points.head?.toList ++ source.points.getLast?.toList
    stitch curve (openSlices kept curve (rawCurve source (-distance)) ends)

def offsetter : Offsetter Float := fun source distance =>
  if source.points.all PlanePoint.isFinite && distance.isFinite then
    some (parallel source distance)
  else none

end Milling.Offset

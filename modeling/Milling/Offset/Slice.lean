import Milling.Offset.Raw

/-!
# Slices of a raw offset curve

A raw offset curve is cut where it crosses itself.  The pieces that keep their
distance from the source are the slices of the offset curve.
-/

namespace Milling.Offset

/-- A source curve, and the distance that an offset keeps from it. -/
structure Source where
  segments : List (Point × Point)
  distance : Float

namespace Source

def isClear (source : Source) (point : Point) : Bool :=
  let reach := source.distance.abs - distanceTolerance
  let around := (Box.around point point).grown reach
  source.segments.all fun (start, stop) =>
    !(Box.around start stop).touches around ||
      decide (Point.squaredDistance (nearestOnLine start stop point) point > reach * reach)

def isCrossed (source : Source) (vertex : Vertex) (stop : Point) : Bool :=
  let box := (Box.ofSegment vertex stop).grown numberTolerance
  source.segments.any fun (start, end_) =>
    (Box.around start end_).touches box &&
      !(meet vertex stop { point := start, bulge := 0.0 } end_).isNone

/-- A segment is clear at its middle and at its end, and does not meet the
source. -/
def admits (source : Source) (vertex : Vertex) (stop : Point) : Bool :=
  source.isClear stop && source.isClear (Vertex.middle vertex stop) &&
    !source.isCrossed vertex stop

end Source

/-- A part of the raw curve, with the index of the segment it starts on. -/
structure Slice where
  segment : Nat
  vertices : List Vertex

namespace Slice

def start? (slice : Slice) : Option Point := slice.vertices.head?.map BulgeVertex.point

def stop? (slice : Slice) : Option Point := slice.vertices.getLast?.map BulgeVertex.point

def ofTrail? (segment : Nat) (trail : Trail) : Option Slice :=
  if 1 < trail.length then some { segment, vertices := trail.reverse } else none

end Slice

/-- A segment of a curve by its index, with a box around it. -/
structure Piece where
  index : Nat
  vertex : Vertex
  stop : Point
  box : Box

namespace Piece

def ofCurve (curve : OffsetLoop Float) : List Piece :=
  curve.segments.zipIdx.map fun ((vertex, stop), index) =>
    { index, vertex, stop, box := Box.ofSegment vertex stop }

def meet (first second : Piece) : Meeting :=
  if first.box.touches (second.box.grown numberTolerance) then
    Offset.meet first.vertex first.stop second.vertex second.stop
  else .places []

end Piece

/-- A place where the raw curve is cut, on the segment of an index. -/
structure Cut where
  segment : Nat
  place : Point

def cutsOf (first second : Piece) (places : List Point) : List Cut :=
  places.flatMap fun place =>
    [{ segment := first.index, place }, { segment := second.index, place }]

/-- The cuts where two segments meet apart from the vertex that ends the first
and starts the second. -/
def cutsOfNeighbours (first second : Piece) : List Cut :=
  let corner := second.vertex.point
  if Point.same pointTolerance first.vertex.point corner then []
  else
    let places := (Offset.meet first.vertex first.stop second.vertex second.stop).points
    cutsOf first second (places.filter fun place => !Point.same pointTolerance place corner)

/-- The cuts where a curve crosses itself.  A stretch that two segments share
cuts neither. -/
def selfCuts (curve : OffsetLoop Float) : List Cut :=
  match Piece.ofCurve curve with
  | [_, _] => if curve.closed then [] else neighbourCuts
  | _ => neighbourCuts ++ distantCuts
where
  neighbourCuts : List Cut :=
    let pieces := Piece.ofCurve curve
    let pairs := if curve.closed then Polyline.cyclicSteps pieces else Polyline.steps pieces
    pairs.flatMap fun (first, second) => cutsOfNeighbours first second
  /-- The cuts of segments that share no vertex. -/
  distantCuts : List Cut :=
    let pieces := Piece.ofCurve curve
    let apart (first second : Piece) : Bool :=
      decide (first.index + 1 < second.index) &&
        !(curve.closed && first.index == 0 && second.index + 1 == pieces.length)
    pieces.flatMap fun first =>
      pieces.flatMap fun second =>
        if apart first second then cutsOf first second (first.meet second).points else []

/-- The cuts where an open curve meets another open curve.  A place at the end
of a segment counts for the segment after it, and not at all where one of the
curves turns off from a stretch that both share. -/
def mutualCuts (curve other : OffsetLoop Float) : List Cut :=
  let pieces := Piece.ofCurve curve
  let others := Piece.ofCurve other
  let same (left right : Point) : Bool := Point.same pointTolerance left right
  let meetings := others.flatMap fun second =>
    pieces.map fun first => (first, second, first.meet second)
  let turnsOff : List (Nat × Nat) := meetings.flatMap fun (first, second, meeting) =>
    match meeting with
    | .places _ => []
    | .shared start stop =>
        [start, stop].flatMap fun end_ =>
          (if same end_ first.stop then [(first.index + 1, second.index)] else []) ++
            (if same end_ second.stop then [(first.index, second.index + 1)] else [])
  meetings.flatMap fun (first, second, meeting) =>
    let atStop (place : Point) : Bool :=
      (same place first.stop && first.index + 1 != pieces.length) ||
        (same place second.stop && second.index + 1 != others.length)
    let atTurn (place : Point) : Bool :=
      turnsOff.contains (first.index, second.index) &&
        (same place first.vertex.point || same place second.vertex.point)
    let places := meeting.points.filter fun place => !atStop place && !atTurn place
    places.map fun place => { segment := first.index, place }

/-- The cuts where a curve meets the circle around a point.  A place at the
start of a segment does not count. -/
def circleCuts (curve : OffsetLoop Float) (radius : Float) (center : Point) : List Cut :=
  (Piece.ofCurve curve).flatMap fun piece =>
    let start := piece.vertex.point
    let places :=
      if Vertex.isStraight piece.vertex then
        let fractions := meetLineCircle start piece.stop radius center
        (fractions.filter (inUnitRange numberTolerance)).map (Point.between start piece.stop)
      else
        let (arcRadius, arcCenter) := Vertex.circle piece.vertex piece.stop
        match meetCircles arcRadius arcCenter radius center with
        | .same => []
        | .points points => points.filter (onArc arcCenter piece.vertex piece.stop)
    (places.filter fun place => !Point.same pointTolerance place start).map fun place =>
      { segment := piece.index, place }

/-- A segment of the raw curve with its cuts, the nearest to its start first. -/
structure CutPiece where
  index : Nat
  vertex : Vertex
  stop : Point
  cuts : List Point

namespace CutPiece

def cutsOn (cuts : List Cut) (index : Nat) (start : Point) : List Point :=
  ((cuts.filter fun cut => cut.segment == index).map Cut.place).mergeSort
    fun left right => Point.squaredDistance left start ≤ Point.squaredDistance right start

/-- The segments of a curve with their cuts; an open curve ends with its last
vertex as a piece without length. -/
def ofCurve (curve : OffsetLoop Float) (cuts : List Cut) : List CutPiece :=
  let pieces := (Piece.ofCurve curve).map fun piece =>
    { index := piece.index, vertex := piece.vertex, stop := piece.stop
      cuts := cutsOn cuts piece.index piece.vertex.point : CutPiece }
  match curve.closed, curve.vertices.getLast? with
  | false, some last =>
      pieces ++ [{ index := pieces.length, vertex := last, stop := last.point, cuts := [] }]
  | _, _ => pieces

def innerSlices (source : Source) (index : Nat) (stop : Point) :
    Vertex → List Point → List Slice
  | _, [] => []
  | vertex, cut :: cuts =>
      let (before, after) := Vertex.splitAt vertex stop cut
      let rest := innerSlices source index stop after cuts
      if Point.same pointTolerance before.point after.point then rest
      else if source.isClear before.point && source.admits before after.point then
        { segment := index
          vertices := [before, { point := after.point, bulge := 0.0 }] } :: rest
      else rest

/-- The trail led up to a cut on the segment after its last vertex; `none`
where that comes too close to the source. -/
def stopAt (source : Source) (trail : Trail) (stop cut : Point) : Option Trail :=
  match trail with
  | [] => none
  | last :: earlier =>
      let (before, _) := Vertex.splitAt last stop cut
      if source.admits before cut then
        some (Trail.extend (before :: earlier) { point := cut, bulge := 0.0 })
      else none

/-- The trail from a cut along the pieces that follow, up to the next cut or
the end of an open curve; `none` where it comes too close to the source. -/
def follow (source : Source) : Trail → List CutPiece → Option Trail
  | trail, [] => some trail
  | trail, piece :: rest =>
      let admitted :=
        match trail with
        | last :: _ => source.admits last piece.vertex.point
        | [] => source.isClear piece.vertex.point
      if !admitted then none
      else
        let extended := trail.extend piece.vertex
        match piece.cuts with
        | [] => follow source extended rest
        | cut :: _ => stopAt source extended piece.stop cut

def slicesFrom (source : Source) (piece : CutPiece) (following : List CutPiece) :
    List Slice :=
  match piece.cuts with
  | [] => []
  | first :: others =>
      let (_, entry) := Vertex.splitAt piece.vertex piece.stop first
      let inner := innerSlices source piece.index piece.stop entry others
      let last := (first :: others).getLastD first
      let (_, exit) := Vertex.splitAt piece.vertex piece.stop last
      let outer :=
        if source.isClear last then
          (follow source [exit] following).bind (Slice.ofTrail? piece.index)
        else none
      inner ++ outer.toList

end CutPiece

def uncutSlices (source : Source) (curve : OffsetLoop Float) : List Slice :=
  match curve.vertices with
  | first :: _ =>
      if source.isClear first.point then
        let around := if curve.closed then [{ first with bulge := 0.0 }] else []
        [{ segment := 0, vertices := curve.vertices ++ around }]
      else []
  | [] => []

def closedSlices (source : Source) (curve : OffsetLoop Float) : List Slice :=
  match selfCuts curve with
  | [] => uncutSlices source curve
  | cuts =>
      let pieces := CutPiece.ofCurve curve cuts
      pieces.flatMap fun piece =>
        CutPiece.slicesFrom source piece (pieces.rotateLeft (piece.index + 1))

/-- The slices of an open raw curve, which is also cut where it meets the raw
curve to the other side and the circles around the ends of the source. -/
def openSlices (source : Source) (curve opposite : OffsetLoop Float) (ends : List Point) :
    List Slice :=
  let cuts := selfCuts curve ++ mutualCuts curve opposite ++
    ends.flatMap (circleCuts curve source.distance.abs)
  match cuts with
  | [] => uncutSlices source curve
  | cuts =>
      let pieces := CutPiece.ofCurve curve cuts
      let first := (CutPiece.follow source [] pieces).bind (Slice.ofTrail? 0)
      first.toList ++ pieces.flatMap fun piece =>
        CutPiece.slicesFrom source piece (pieces.drop (piece.index + 1))

end Milling.Offset

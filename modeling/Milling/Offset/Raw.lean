import Milling.Offset.Crossing

/-!
# The raw offset curve

Every segment of a source is shifted to its left by the offset distance, and
consecutive shifted segments are joined: at their crossing, or where they part
by an arc around the source vertex between them.  The result may cross itself.
-/

namespace Milling.Offset

/-- A source segment shifted to its left, with the source vertex it leads to. -/
structure ShiftedLine where
  start : Point
  stop : Point
  corner : Point

namespace ShiftedLine

def of (distance : Float) (start stop : Point) : ShiftedLine :=
  let shift := Point.times (Point.leftUnit (Point.minus stop start)) distance
  { start := Point.add start shift, stop := Point.add stop shift, corner := stop }

/-- The trail led from the end of one shifted segment to the start of the next
by an arc of a given bulge. -/
def bridge (trail : Trail) (first second : ShiftedLine) (bulge : Float) : Trail :=
  (trail.extend { point := first.stop, bulge }).extend { point := second.start, bulge := 0.0 }

def cornerBulge (first second : ShiftedLine) : Float :=
  let sweep := turn (Point.angleFrom first.corner first.stop)
    (Point.angleFrom first.corner second.start)
  Float.tan (sweep.abs / 4.0)

def join (distance : Float) (trail : Trail) (first second : ShiftedLine) : Trail :=
  let outwards (bulge : Float) : Float := if distance < 0.0 then bulge else -bulge
  match meetLines first.start first.stop second.start second.stop with
  | .none => bridge trail first second (outwards 1.0)
  | .inside fraction _ =>
      trail.extend { point := Point.between first.start first.stop fraction, bulge := 0.0 }
  | .shared _ _ => trail.extend { point := first.stop, bulge := 0.0 }
  | .outside own other =>
      if own > 1.0 && (other < 0.0 || other > 1.0) then
        bridge trail first second (outwards (cornerBulge first second))
      else bridge trail first second 0.0

def joinAll (distance : Float) (trail : Trail) (lines : List ShiftedLine) : Trail :=
  (Polyline.steps lines).foldl (fun trail (first, second) => join distance trail first second)
    trail

end ShiftedLine

/-- A vertex moved to another place on the circle of the arc after it; an arc
that would turn the other way keeps its bulge. -/
def moveStart (vertex : Vertex) (stop place : Point) : Vertex :=
  if Vertex.isStraight vertex then { vertex with point := place }
  else
    let (_, center) := Vertex.circle vertex stop
    let sweep := turn (Point.angleFrom center place) (Point.angleFrom center stop)
    if (sweep < 0.0 && vertex.bulge > 0.0) || (sweep > 0.0 && vertex.bulge < 0.0) then
      { vertex with point := place }
    else { point := place, bulge := Float.tan (sweep / 4.0) }

def dropRepeatedStart (vertices : List Vertex) : List Vertex :=
  match vertices with
  | first :: second :: rest =>
      if Point.same pointTolerance first.point second.point then second :: rest else vertices
  | _ => vertices

/-- The vertices of a closed raw curve, whose end is led into its start.  The
first vertex moves to where that join ends; a first vertex that the first join
placed stays, and the curve runs on to it. -/
def closeTrail (vertices closing : List Vertex) (firstPlaced : Bool) : List Vertex :=
  let ending := if firstPlaced then closing else closing.dropLast
  let joined := vertices.dropLast ++ ending
  let moved :=
    match firstPlaced, closing.getLast?, joined with
    | false, some last, [only] =>
        if Vertex.isStraight only then [{ only with point := last.point }] else joined
    | false, some last, first :: second :: rest =>
        moveStart first second.point last.point :: second :: rest
    | _, _, _ => joined
  dropRepeatedStart moved

/-- The raw offset curve to the left of a source; empty when nothing remains. -/
def rawCurve (source : Polyline Float) (distance : Float) : OffsetLoop Float :=
  let lines := (OffsetLoop.ofPolyline source).segments.map fun (vertex, stop) =>
    ShiftedLine.of distance vertex.point stop
  let vertices :=
    match lines, lines.getLast? with
    | first :: rest, some last =>
        let begun : Trail := [{ point := first.start, bulge := 0.0 }]
        let trail := ShiftedLine.joinAll distance begun lines
        let firstPlaced := (ShiftedLine.joinAll distance begun (first :: rest.take 1)).length == 1
        match source.closed, trail with
        | true, last_ :: _ :: _ =>
            let closing := (ShiftedLine.join distance [last_] last first).reverse
            closeTrail trail.reverse closing firstPlaced
        | _, _ => (trail.extend { point := last.stop, bulge := 0.0 }).reverse
    | _, _ => []
  { vertices := if vertices.length < 2 then [] else vertices
    closed := source.closed }

end Milling.Offset

import Milling.Offset.Loop
import Milling.Scalar.Double

/-!
# Segments of offset curves

Geometry of single lines and arcs in double precision: centres, middles,
splitting, the distance from a point, and the boxes around them.
-/

namespace Milling.Offset

abbrev Point := PlanePoint Float

abbrev Vertex := BulgeVertex Float

def pointTolerance : Float := 1e-5

/-- Ends of slices closer than this are joined. -/
def joinTolerance : Float := 1e-4

def distanceTolerance : Float := 1e-4

def numberTolerance : Float := 1e-8

def pi : Float := 3.141592653589793

def near (tolerance left right : Float) : Bool := decide ((left - right).abs < tolerance)

def inUnitRange (tolerance fraction : Float) : Bool :=
  decide (-tolerance < fraction) && decide (fraction < 1.0 + tolerance)

namespace Point

def add (left right : Point) : Point := { x := left.x + right.x, y := left.y + right.y }

/-- The vector from one point to another. -/
def minus (left right : Point) : Point := { x := left.x - right.x, y := left.y - right.y }

def times (vector : Point) (factor : Float) : Point :=
  { x := vector.x * factor, y := vector.y * factor }

def dot (left right : Point) : Float := left.x * right.x + left.y * right.y

/-- The signed area of the parallelogram of two vectors. -/
def cross (left right : Point) : Float := left.x * right.y - left.y * right.x

def length (vector : Point) : Float := Float.sqrt (dot vector vector)

def leftUnit (vector : Point) : Point :=
  let size := length vector
  { x := -vector.y / size, y := vector.x / size }

def squaredDistance (left right : Point) : Float :=
  dot (minus left right) (minus left right)

def same (tolerance : Float) (left right : Point) : Bool :=
  near tolerance left.x right.x && near tolerance left.y right.y

def between (start stop : Point) (fraction : Float) : Point :=
  add start (times (minus stop start) fraction)

def angleFrom (center point : Point) : Float :=
  Float.atan2 (point.y - center.y) (point.x - center.x)

end Point

def positiveAngle (angle : Float) : Float :=
  if 0.0 ≤ angle && angle ≤ 2.0 * pi then angle
  else angle - Float.floor (angle / (2.0 * pi)) * (2.0 * pi)

/-- The turn from one direction to another, at most half a turn either way. -/
def turn (start stop : Float) : Float :=
  let angle := positiveAngle (stop - start)
  if angle > pi then angle - 2.0 * pi else angle

/-- The turn from one direction to another in a given sense. -/
def turnTowards (clockwise : Bool) (start stop : Float) : Float :=
  let size := (turn start stop).abs
  if clockwise then -size else size

namespace Vertex

def isStraight (vertex : Vertex) : Bool := near numberTolerance vertex.bulge 0.0

def turnsClockwise (vertex : Vertex) : Bool := decide (vertex.bulge < 0.0)

/-- Radius and centre of the arc after a vertex. -/
def circle (vertex : Vertex) (stop : Point) : Float × Point :=
  let size := vertex.bulge.abs
  let chord := Point.minus stop vertex.point
  let chordLength := Point.length chord
  let radius := chordLength * (size * size + 1.0) / (4.0 * size)
  let rise := radius - size * chordLength / 2.0
  let dx := -rise * chord.y / chordLength
  let dy := rise * chord.x / chordLength
  let sign := if turnsClockwise vertex then -1.0 else 1.0
  (radius, {
    x := vertex.point.x + chord.x / 2.0 + sign * dx
    y := vertex.point.y + chord.y / 2.0 + sign * dy })

def middle (vertex : Vertex) (stop : Point) : Point :=
  if isStraight vertex then
    { x := (vertex.point.x + stop.x) / 2.0, y := (vertex.point.y + stop.y) / 2.0 }
  else
    let (radius, center) := circle vertex stop
    let first := Point.angleFrom center vertex.point
    let half := (turn first (Point.angleFrom center stop)).abs / 2.0
    let angle := if turnsClockwise vertex then first - half else first + half
    { x := center.x + radius * Float.cos angle, y := center.y + radius * Float.sin angle }

/-- Splits the segment after a vertex at a point on it: the vertex with the
bulge up to there, and a vertex at the point with the bulge from there on. -/
def splitAt (vertex : Vertex) (stop point : Point) : Vertex × Vertex :=
  if isStraight vertex then (vertex, { point, bulge := 0.0 })
  else if Point.same pointTolerance vertex.point stop ||
      Point.same pointTolerance vertex.point point then
    ({ point, bulge := 0.0 }, { point, bulge := vertex.bulge })
  else if Point.same pointTolerance stop point then
    (vertex, { point := stop, bulge := 0.0 })
  else
    let (_, center) := circle vertex stop
    let clockwise := turnsClockwise vertex
    let at_ := Point.angleFrom center point
    let before := turnTowards clockwise (Point.angleFrom center vertex.point) at_
    let after := turnTowards clockwise at_ (Point.angleFrom center stop)
    ({ vertex with bulge := Float.tan (before / 4.0) },
      { point, bulge := Float.tan (after / 4.0) })

end Vertex

def nearestOnLine (start stop point : Point) : Point :=
  let along := Point.minus stop start
  let reach := Point.dot (Point.minus point start) along
  if reach < numberTolerance then start
  else
    let square := Point.dot along along
    if square < reach + numberTolerance then stop
    else Point.add start (Point.times along (reach / square))

/-- A rectangle along the axes, by its low and its high corner. -/
structure Box where
  low : Point
  high : Point

namespace Box

def around (first second : Point) : Box :=
  let least (left right : Float) : Float := if right < left then right else left
  let greatest (left right : Float) : Float := if left < right then right else left
  { low := { x := least first.x second.x, y := least first.y second.y }
    high := { x := greatest first.x second.x, y := greatest first.y second.y } }

def union (left right : Box) : Box :=
  { low := (around left.low right.low).low, high := (around left.high right.high).high }

def grown (box : Box) (margin : Float) : Box :=
  { low := { x := box.low.x - margin, y := box.low.y - margin }
    high := { x := box.high.x + margin, y := box.high.y + margin } }

def touches (left right : Box) : Bool :=
  decide (right.low.x ≤ left.high.x) && decide (right.low.y ≤ left.high.y) &&
    decide (left.low.x ≤ right.high.x) && decide (left.low.y ≤ right.high.y)

/-- A box around the segment after a vertex; around an arc it also holds the
chord moved out to the arc. -/
def ofSegment (vertex : Vertex) (stop : Point) : Box :=
  let chord := around vertex.point stop
  if Vertex.isStraight vertex then chord
  else
    let along := Point.minus stop vertex.point
    let rise : Point := {
      x := vertex.bulge * along.y / 2.0
      y := -vertex.bulge * along.x / 2.0 }
    chord.union (around (Point.add vertex.point rise) (Point.add stop rise))

end Box

/-- A curve under construction, its last vertex first. -/
abbrev Trail := List Vertex

/-- The trail with one more vertex; a vertex at the place of the last one only
gives it its bulge. -/
def Trail.extend (trail : Trail) (vertex : Vertex) : Trail :=
  match trail with
  | last :: earlier =>
      if Point.same pointTolerance last.point vertex.point then
        { last with bulge := vertex.bulge } :: earlier
      else vertex :: trail
  | [] => [vertex]

end Milling.Offset

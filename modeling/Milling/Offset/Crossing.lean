import Milling.Offset.Segment

/-!
# Crossings of lines and arcs

Where two segments of offset curves meet.  Segments that miss each other by
less than the point tolerance meet all the same.
-/

namespace Milling.Offset

/-- How two lines meet; a fraction is a place along its line. -/
inductive LineMeeting where
  | none
  /-- The segments meet. -/
  | inside (first second : Float)
  /-- Only the lines through the segments meet. -/
  | outside (first second : Float)
  /-- The segments share a stretch of the second. -/
  | shared (start stop : Float)

def fractionAt (start stop point : Point) : Float :=
  if near pointTolerance start.x stop.x then (point.y - start.y) / (stop.y - start.y)
  else (point.x - start.x) / (stop.x - start.x)

def fractionTolerance (start stop : Point) : Float :=
  pointTolerance / Point.length (Point.minus stop start)

def onSegment (start stop : Point) (fraction : Float) : Bool :=
  inUnitRange (fractionTolerance start stop) fraction

def meetCollinear (v1 v2 u1 u2 : Point) : LineMeeting :=
  match Point.same pointTolerance v1 v2, Point.same pointTolerance u1 u2 with
  | true, true => if Point.same pointTolerance v1 u1 then .inside 0.0 0.0 else .none
  | true, false =>
      let fraction := fractionAt u1 u2 v1
      if onSegment u1 u2 fraction then .inside 0.0 fraction else .none
  | false, true =>
      let fraction := fractionAt v1 v2 u1
      if onSegment v1 v2 fraction then .inside fraction 0.0 else .none
  | false, false =>
      let tolerance := fractionTolerance u1 u2
      let first := fractionAt u1 u2 v1
      let second := fractionAt u1 u2 v2
      let low := if first > second then second else first
      let high := if first > second then first else second
      if !(low < 1.0 + tolerance) || !(high + tolerance > 0.0) then .none
      else
        let start := if low < 0.0 then 0.0 else low
        let stop := if high > 1.0 then 1.0 else high
        if near tolerance start stop then
          let atStart := Point.same pointTolerance v1 u1 || Point.same pointTolerance v1 u2
          .inside (if atStart then 0.0 else 1.0) start
        else .shared start stop

/-- How two line segments meet.  They are parallel when the parallelogram of
their vectors has next to no area, so two short segments always are. -/
def meetLines (v1 v2 u1 u2 : Point) : LineMeeting :=
  let v := Point.minus v2 v1
  let u := Point.minus u2 u1
  let w := Point.minus v1 u1
  let area := Point.cross v u
  if near pointTolerance area 0.0 then
    if near pointTolerance (Point.cross v w) 0.0 && near pointTolerance (Point.cross u w) 0.0 then
      meetCollinear v1 v2 u1 u2
    else .none
  else
    let first := Point.cross u w / area
    let second := Point.cross v w / area
    if onSegment v1 v2 first && onSegment u1 u2 second then .inside first second
    else .outside first second

/-- The line through two points as the numbers a, b and c of a·x + b·y + c = 0,
in coordinates that start at a centre. -/
def lineNumbers (start stop center : Point) : Float × Float × Float :=
  let first := Point.minus start center
  let second := Point.minus stop center
  let along := Point.minus stop start
  if near pointTolerance along.x 0.0 then (1.0, 0.0, -((first.x + second.x) / 2.0))
  else
    let slope := along.y / along.x
    (slope, -1.0, second.y - slope * second.x)

def meetLineCircle (start stop : Point) (radius : Float) (center : Point) : List Float :=
  let along := Point.minus stop start
  if near pointTolerance along.x 0.0 && near pointTolerance along.y 0.0 then
    if near pointTolerance (Point.squaredDistance start center) (radius * radius) then [0.0]
    else []
  else
    let (a, b, c) := lineNumbers start stop center
    let square := a * a + b * b
    let distance := c.abs / Float.sqrt square
    let foot : Point := { x := -a * c / square + center.x, y := -b * c / square + center.y }
    if distance > radius + pointTolerance then []
    else if near pointTolerance distance radius then [fractionAt start stop foot]
    else
      let reach := Float.sqrt ((radius * radius - c * c / square) / square).abs
      let first := fractionAt start stop { x := foot.x + b * reach, y := foot.y - a * reach }
      let second := fractionAt start stop { x := foot.x - b * reach, y := foot.y + a * reach }
      if first < second then [first, second] else [second, first]

inductive CircleMeeting where
  | points (points : List Point)
  | same

def meetCircles (radius : Float) (center : Point) (otherRadius : Float) (other : Point) :
    CircleMeeting :=
  let between := Point.minus other center
  let square := Point.dot between between
  let distance := Float.sqrt square
  if distance < pointTolerance then
    if near pointTolerance radius otherRadius then .same else .points []
  else if !(distance < radius + otherRadius + pointTolerance) ||
      !(distance + pointTolerance > (radius - otherRadius).abs) then
    .points []
  else
    let along := (radius * radius - otherRadius * otherRadius + square) / (2.0 * distance)
    let middle := Point.add center (Point.times between (along / distance))
    let rest := radius * radius - along * along
    if rest < 0.0 then .points [middle]
    else
      let ratio := Float.sqrt rest / distance
      let dx := ratio * between.y
      let dy := ratio * between.x
      let first : Point := { x := middle.x + dx, y := middle.y - dy }
      let second : Point := { x := middle.x - dx, y := middle.y + dy }
      if Point.same pointTolerance first second then .points [first]
      else .points [first, second]

/-- A point of the circle of an arc lies on the arc.  Arcs are at most half
circles. -/
def onArc (center : Point) (vertex : Vertex) (stop point : Point) : Bool :=
  let side (end_ : Point) : Float :=
    Point.cross (Point.minus end_ center) (Point.minus point center)
  let fromStart := side vertex.point
  let fromStop := side stop
  if Vertex.turnsClockwise vertex then
    decide (fromStart < pointTolerance) && decide (fromStop > -pointTolerance)
  else decide (fromStart > -pointTolerance) && decide (fromStop < pointTolerance)

def meetLineArc (start stop : Point) (arc : Vertex) (arcStop : Point) : List Point :=
  let (radius, center) := Vertex.circle arc arcStop
  let fractions := (meetLineCircle start stop radius center).filter (onSegment start stop)
  (fractions.map (Point.between start stop)).filter (onArc center arc arcStop)

inductive Meeting where
  /-- At single points, or not at all. -/
  | places (places : List Point)
  | shared (start stop : Point)

namespace Meeting

def points : Meeting → List Point
  | .places found => found
  | .shared _ _ => []

def isNone : Meeting → Bool
  | .places found => found.isEmpty
  | .shared _ _ => false

end Meeting

def withinSweep (angle start sweep : Float) : Bool :=
  let ahead (first second : Float) : Float := positiveAngle (second - first)
  let stop := start + sweep
  if sweep < 0.0 then decide (ahead stop angle < ahead stop start + numberTolerance)
  else decide (ahead start angle < ahead start stop + numberTolerance)

def meetSharedArcs (center : Point) (v : Vertex) (vStop : Point) (u : Vertex) (uStop : Point) :
    Meeting :=
  let aligned := Vertex.turnsClockwise v == Vertex.turnsClockwise u
  let first := if aligned then u.point else uStop
  let last := if aligned then uStop else u.point
  let angle (point : Point) : Float := positiveAngle (Point.angleFrom center point)
  let start := angle v.point
  let sweep := 4.0 * Float.atan v.bulge
  let otherStart := angle first
  let otherSweep := 4.0 * Float.atan (if aligned then u.bulge else -u.bulge)
  let sameDirection (left right : Float) : Bool :=
    near pointTolerance (positiveAngle left) (positiveAngle right)
  if sameDirection start (otherStart + otherSweep) then .places [v.point]
  else if sameDirection otherStart (start + sweep) then .places [first]
  else
    let startsInside := withinSweep otherStart start sweep
    let stopsInside := withinSweep (otherStart + otherSweep) start sweep
    if startsInside && stopsInside then .shared u.point uStop
    else if startsInside then .shared first vStop
    else if stopsInside then .shared v.point last
    else if withinSweep start otherStart otherSweep then .shared v.point vStop
    else .places []

/-- How two arcs meet.  Circles that almost touch cross at an ill-defined place,
so unless both crossings are on the arcs an end of one arc that lies on the
other counts as the place. -/
def meetArcs (v : Vertex) (vStop : Point) (u : Vertex) (uStop : Point) : Meeting :=
  let (radius, center) := Vertex.circle v vStop
  let (otherRadius, other) := Vertex.circle u uStop
  let onFirst := onArc center v vStop
  let onSecond := onArc other u uStop
  match meetCircles radius center otherRadius other with
  | .same => meetSharedArcs center v vStop u uStop
  | .points [] => .places []
  | .points crossings =>
      let places := crossings.filter fun point => onFirst point && onSecond point
      let reaches (center : Point) (radius : Float) (point : Point) : Bool :=
        near pointTolerance (Point.length (Point.minus point center)) radius
      let ends :=
        ([v.point, vStop].filter fun point =>
          reaches other otherRadius point && onSecond point) ++
        ([u.point, uStop].filter fun point => reaches center radius point && onFirst point)
      match places, ends with
      | [_, _], _ => .places places
      | _, end_ :: _ => .places [end_]
      | _, [] => .places places

def meet (v : Vertex) (vStop : Point) (u : Vertex) (uStop : Point) : Meeting :=
  match Vertex.isStraight v, Vertex.isStraight u with
  | true, true =>
      match meetLines v.point vStop u.point uStop with
      | .none => .places []
      | .outside _ _ => .places []
      | .inside fraction _ => .places [Point.between v.point vStop fraction]
      | .shared start stop =>
          .shared (Point.between u.point uStop start) (Point.between u.point uStop stop)
  | true, false => .places (meetLineArc v.point vStop u uStop)
  | false, true => .places (meetLineArc u.point uStop v vStop)
  | false, false => meetArcs v vStop u uStop

end Milling.Offset

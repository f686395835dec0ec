import Milling.Offset.Loop

/-!
# Growing and shrinking outlines

Offsets of polygons and open lines by way of a parallel offset to the left of
travel, and the rings that shrink a polygon until nothing is left.
-/

namespace Milling

variable {α : Type}

/-- A parallel offset to the left of travel; `none` when it fails. -/
abbrev Offsetter (α : Type) := Polyline α → α → Option (List (OffsetLoop α))

variable [Scalar α]

namespace Polyline

/-- Points closer than this are one vertex. -/
def repeatTolerance : α := 1e-9

def dropRepeats : PlanePoint α → List (PlanePoint α) → List (PlanePoint α)
  | _, [] => []
  | last, point :: rest =>
      if last.distance point < repeatTolerance then dropRepeats last rest
      else point :: dropRepeats point rest

/-- The outline without repeated vertices, and without a closing copy of the
first. -/
def distinct (polyline : Polyline α) : Polyline α :=
  match polyline.points with
  | [] => polyline
  | first :: rest =>
      let kept := dropRepeats first rest
      let repeatsFirst :=
        match kept.getLast? with
        | some last => polyline.closed && decide (first.distance last < repeatTolerance)
        | none => false
      { polyline with points := first :: if repeatsFirst then kept.dropLast else kept }

end Polyline

namespace Offsetter

/-- The non-empty loops beside an outline; the distance when the offset fails. -/
def run (offsetter : Offsetter α) (outline : Polyline α) (distance : α) :
    Except α (List (OffsetLoop α)) :=
  match offsetter outline.distinct distance with
  | some loops => .ok (loops.filter fun loop => !loop.vertices.isEmpty)
  | none => .error distance

def besideOpen (offsetter : Offsetter α) (line : Polyline α) (distance : α) :
    Except α (List (OffsetLoop α)) :=
  offsetter.run { line with closed := false } distance

def matchesDistance (loops : List (OffsetLoop α)) (area distance : α) : Bool :=
  match loops.map fun loop => Scalar.magnitude loop.signedArea with
  | [] => decide (distance < 0)
  | first :: rest =>
      let largest := rest.foldl Scalar.greater first
      if 0 < distance then decide (area < largest) else decide (largest < area)

/-- A polygon grown by a positive distance or shrunk by a negative one.  The
loops go counterclockwise; a polygon that is shrunk away leaves none. -/
def aroundClosed (offsetter : Offsetter α) (polygon : Polyline α) (distance : α) :
    Except α (List (OffsetLoop α)) := do
  let turned := if polygon.isCounterclockwise then polygon else polygon.reversed
  let outline := { turned with closed := true }
  let loops ← offsetter.run outline (-distance)
  let chosen ←
    if matchesDistance loops outline.signedArea distance then pure loops
    else offsetter.run outline distance
  pure (chosen.map fun loop => if loop.signedArea < 0 then loop.reversed else loop)

/-- The rings from a first inset inwards at equal steps, until the polygon is
used up or the count is reached. -/
def rings (offsetter : Offsetter α) (polygon : Polyline α) (inset step : α) :
    Nat → Except α (List (List (OffsetLoop α)))
  | 0 => .ok []
  | count + 1 => do
      let ring ← offsetter.aroundClosed polygon (-inset)
      if ring.isEmpty then pure []
      else pure (ring :: (← offsetter.rings polygon (inset + step) step count))

end Offsetter

end Milling

import Milling.Machining.Check
import Milling.Machining.Cutter
import Milling.Offset.Inset

/-!
# Toolpaths along outlines

A closed outline is cut from outside, an open one beside its line.  With the
spindle turning clockwise a climb cut keeps the tool to the left of travel, so
closed outlines are travelled clockwise for it.
-/

namespace Milling

variable {α : Type} [Scalar α]

/-- The best element of a list, the first of equals; `better` says that a
later one wins. -/
def bestOf? (better : β → β → Bool) : List β → Option β
  | [] => none
  | first :: rest =>
      some (rest.foldl (fun best item => if better item best then item else best) first)

def Offsetter.orError (result : Except α β) : Except (MachiningError α) β :=
  match result with
  | .ok value => .ok value
  | .error distance => .error (.offsetFailed distance)

namespace Contour

/-- The loop with the largest area, the last of equals. -/
def largest? (loops : List (OffsetLoop α)) : Option (OffsetLoop α) :=
  let size (loop : OffsetLoop α) : α := Scalar.magnitude loop.signedArea
  bestOf? (fun loop best => decide (size best ≤ size loop)) loops

/-- The loop with the most vertices, the last of equals. -/
def longest? (loops : List (OffsetLoop α)) : Option (OffsetLoop α) :=
  bestOf? (fun loop best => decide (best.vertices.length ≤ loop.vertices.length)) loops

/-- The loop from its vertex nearest to the first point of an outline on. -/
def startNear (loop : OffsetLoop α) (geometry : Polyline α) : OffsetLoop α :=
  match geometry.points with
  | [] => loop
  | target :: _ =>
      let away := (loop.points.map fun point => point.distance target).zipIdx
      match bestOf? (fun item best => decide (item.1 < best.1)) away with
      | some (_, index) => loop.rotated index
      | none => loop.rotated 0

def isClosed (contour : Contour α) : Bool :=
  contour.geometry.closed && decide (3 ≤ contour.geometry.points.length)

/-- How far from the geometry the tool stays. -/
def offset (contour : Contour α) : α := contour.cut.toolRadius + contour.stockToLeave

def besideLoop (offsetter : Offsetter α) (contour : Contour α) :
    Except (MachiningError α) (OffsetLoop α) :=
  match contour.compensation with
  | .computer =>
      if contour.isClosed then do
        let loops ← Offsetter.orError
          (offsetter.aroundClosed contour.geometry contour.offset)
        match largest? loops with
        | some loop => .ok (startNear loop contour.geometry)
        | none => .error .noOutsideLoop
      else do
        let side := if contour.climb then contour.offset else -contour.offset
        let loops ← Offsetter.orError (offsetter.besideOpen contour.geometry side)
        match longest? loops with
        | some loop => .ok loop
        | none => .error .noOpenPath
  | .control => .ok (OffsetLoop.ofPolyline contour.geometry)
  | .none => .ok (OffsetLoop.ofPolyline contour.geometry)

/-- The loop that the tool follows, clockwise for a climb cut around a closed
outline and counterclockwise otherwise. -/
def cutLoop (offsetter : Offsetter α) (contour : Contour α) :
    Except (MachiningError α) (OffsetLoop α) := do
  let loop ← contour.besideLoop offsetter
  let counterclockwise := decide (0 < loop.signedArea)
  if contour.isClosed && counterclockwise == contour.climb then pure loop.reversed
  else pure loop

def cutPath (offsetter : Offsetter α) (contour : Contour α) :
    Except (MachiningError α) (List (PathVertex α)) := do
  pure (← contour.cutLoop offsetter).toPath

/-- Shorter vectors have no direction. -/
def shortest : α := 1e-12

def unit? (dx dy : α) : Option (PlanePoint α) :=
  let length := Scalar.hypot dx dy
  if shortest < length then some { x := dx / length, y := dy / length } else none

def outwardNormal (direction anchor : PlanePoint α) (center : Option (PlanePoint α)) :
    PlanePoint α :=
  let normal : PlanePoint α := { x := direction.y, y := -direction.x }
  match center with
  | some center =>
      if (anchor.x - center.x) * normal.x + (anchor.y - center.y) * normal.y < 0 then
        { x := -normal.x, y := -normal.y }
      else normal
  | none => normal

/-- The point a distance away from the end of a path, given the point next to
the end, that a lead move comes from or goes to. -/
def leadPoint? (strategy : LeadStrategy) (anchor next : PlanePoint α)
    (center : Option (PlanePoint α)) (distance : α) : Option (PlanePoint α) := do
  let travel ← unit? (anchor.x - next.x) (anchor.y - next.y)
  let outwards := outwardNormal travel anchor center
  let direction ←
    match strategy with
    | .none => none
    | .tangent => some travel
    | .perpendicular => some outwards
    | .radial =>
        let away := center.bind fun center =>
          unit? (anchor.x - center.x) (anchor.y - center.y)
        some (away.getD outwards)
  pure {
    x := anchor.x + direction.x * distance
    y := anchor.y + direction.y * distance }

def leadIn? (contour : Contour α) (path : List (PathVertex α)) : Option (PlanePoint α) :=
  match path with
  | anchor :: next :: _ =>
      leadPoint? contour.leadIn anchor.point next.point contour.geometry.centroid?
        contour.cut.toolRadius
  | _ => none

def leadOut? (contour : Contour α) (path : List (PathVertex α)) : Option (PlanePoint α) :=
  match path.reverse with
  | anchor :: next :: _ =>
      leadPoint? contour.leadOut anchor.point next.point contour.geometry.centroid?
        contour.cut.toolRadius
  | _ => none

def cutLevel (contour : Contour α) (start : PlanePoint α) (rest : List (PathVertex α))
    (leadIn leadOut : Option (PlanePoint α)) (cutter : Cutter α) (level : α) : Cutter α :=
  let entry := leadIn.getD start
  let lowered := (cutter.rapid entry.x entry.y contour.cut.safeZ).linear entry.x entry.y level
  let entered := if leadIn.isSome then lowered.linear start.x start.y level else lowered
  let followed := entered.follow rest level
  let left := match leadOut with
    | some exit => followed.linear exit.x exit.y level
    | none => followed
  left.rapidHeight contour.cut.safeZ

def toolpath (offsetter : Offsetter α) (contour : Contour α) :
    Except (MachiningError α) (Toolpath α) := do
  let path ← contour.cutPath offsetter
  match path with
  | [] => .error .emptyPath
  | first :: rest =>
      let pass := contour.cutLevel first.point rest (contour.leadIn? path) (contour.leadOut? path)
      let levels := depthLevels contour.depth contour.stepDown
      pure (levels.foldl pass (Cutter.start contour.cut)).toolpath

end Contour

end Milling

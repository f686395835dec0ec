import Milling.Machining.Cutter
import Milling.Machining.Error

/-!
# Toolpaths of holes

Holes are drilled by plain moves, in one plunge or in pecks with a retract
after each.  Also the order of holes that shortens the way between them.
-/

namespace Milling

variable {α : Type} [Scalar α]

namespace Drilling

def isPecking (drilling : Drilling α) : Bool := decide (0 < drilling.peckDepth)

def plunges (drilling : Drilling α) : List α :=
  if drilling.isPecking then depthLevels drilling.depth drilling.peckDepth
  else [drilling.depth]

def cutPlunge (drilling : Drilling α) (target : PlanePoint α) (cutter : Cutter α)
    (level : α) (isLast : Bool) : Cutter α :=
  let lowered := cutter.linear target.x target.y level
  let waited :=
    if isLast && decide (0 < drilling.dwell) then lowered.dwell drilling.dwell else lowered
  if drilling.isPecking then waited.rapidHeight drilling.retract else waited

def cutPlunges (drilling : Drilling α) (target : PlanePoint α) :
    Cutter α → List α → Cutter α
  | cutter, [] => cutter
  | cutter, level :: levels =>
      cutPlunges drilling target
        (drilling.cutPlunge target cutter level levels.isEmpty) levels

/-- One hole, from clearance height and back to it. -/
def cutHole (drilling : Drilling α) (cutter : Cutter α) (target : PlanePoint α) :
    Cutter α :=
  let above := cutter.rapid target.x target.y drilling.clearance
  let drilled := drilling.cutPlunges target above drilling.plunges
  if !drilling.isPecking || drilling.clearance != drilling.retract then
    drilled.rapidHeight drilling.clearance
  else drilled

def toolpath (drilling : Drilling α) : Toolpath α :=
  (drilling.points.foldl drilling.cutHole (Cutter.start drilling.cut)).toolpath

end Drilling

namespace Tour

/-- The nearest point and its distance so far, with its index. -/
abbrev Nearest (α : Type) := Nat × Option α

/-- The index of the point nearest to a place, the first of equals; the first
point when none is at a finite distance. -/
def nearestIndex (place : PlanePoint α) (points : List (PlanePoint α)) : Nat :=
  (points.zipIdx.foldl
    (fun (best : Nearest α) (point, index) =>
      let distance := place.distance point
      let closer := match best.2 with
        | some least => decide (distance < least)
        | none => Scalar.isFinite distance
      if closer then (index, some distance) else best)
    (0, none)).1

/-- The tour through points that always goes to the nearest one next.  Every
step takes one point away, so as many steps as points suffice. -/
def through (place : PlanePoint α) : Nat → List (PlanePoint α) → List (PlanePoint α)
  | 0, _ => []
  | steps + 1, points =>
      let index := nearestIndex place points
      match points[index]? with
      | none => []
      | some next => next :: through next steps (points.eraseIdx index)

def ofPoints : List (PlanePoint α) → List (PlanePoint α)
  | [] => []
  | first :: rest => first :: through first rest.length rest

def length (points : List (PlanePoint α)) : α :=
  (Polyline.steps ({ x := 0, y := 0 } :: points)).foldl
    (fun total (start, stop) => total + start.distance stop) 0

end Tour

def Operation.inTourOrder : Operation α → Except (MachiningError α) (Operation α)
  | .drill holes => .ok (.drill { holes with points := Tour.ofPoints holes.points })
  | operation => .error (.notHoles operation.name)

end Milling

import Milling.Report.Basic
import Milling.Shop.Limits
import Milling.Toolpath.Basic

/-!
# Verifying toolpaths

A toolpath against the envelope of a machine: rapids into the stock, moves too
short for the tool, and places out of reach.
-/

namespace Milling

variable {α : Type} [Scalar α]

namespace Toolpath

/-- Straight moves shorter than this many tool diameters are reported. -/
def shortMoveFactor : α := 0.1

/-- A rapid that starts above the top of the stock ends below it. -/
def entersRapidly (before : Option (MotionPoint α)) (point : MotionPoint α) : Bool :=
  match before with
  | some before =>
      decide (point.kind = .rapid) && decide (0 < before.position.z) &&
        decide (point.position.z < 0)
  | none => false

def straightLength? (before : Option (MotionPoint α)) (point : MotionPoint α) : Option α :=
  match before with
  | some before =>
      if point.kind = .linear ∧ before.kind = .linear then
        some (before.position.distance point.position)
      else none
  | none => none

def outOfReach (limits : Limits α) (line : Nat) (position : Position α) : Report α :=
  let beyond (axis : Axis) (value : α) : Report α :=
    Report.errorIf (decide (limits.along axis < Scalar.magnitude value))
      (.outOfBounds line axis.letter value (limits.along axis))
  beyond .x position.x ++ beyond .y position.y ++ beyond .z position.z

def verifyPoint (limits : Limits α) (shortest : α) (before : Option (MotionPoint α))
    (index : Nat) (point : MotionPoint α) : Report α :=
  let short :=
    match straightLength? before point with
    | some length => Report.warningIf (decide (length < shortest)) (.shortMove index length)
    | none => {}
  Report.warningIf (entersRapidly before point) (.rapidIntoMaterial index) ++ short ++
    outOfReach limits (point.line.getD (index + 1)) point.position

def verify (limits : Limits α) (diameter : α) (path : Toolpath α) : Report α :=
  let befores := none :: path.points.map some
  Report.concat ((path.points.zip befores).zipIdx.map fun ((point, before), index) =>
    verifyPoint limits (diameter * shortMoveFactor) before index point)

end Toolpath

end Milling

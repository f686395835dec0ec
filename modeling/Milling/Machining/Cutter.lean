import Milling.Machining.Operation
import Milling.Offset.Loop
import Milling.Scalar.Basic
import Milling.Toolpath.Basic

/-!
# Ways through an operation

The heights at which an operation cuts, and the moves of a tool from one to the next.
-/

/-!
## Depth levels

The heights at which an operation cuts on its way down.
-/

namespace Milling

variable {α : Type} [Scalar α]

/-- What is left of the depth below this is cut with the last pass. -/
def levelTolerance : α := 1e-9

/-- The levels from a pass on, in whole steps as long as the depth is not
reached, then the depth itself. -/
def levelsFrom (depth stepDown : α) : Nat → Nat → List α
  | 0, _ => [depth]
  | fuel + 1, pass =>
      let level := -stepDown * Scalar.ofInt pass
      if level ≤ depth + levelTolerance then [depth]
      else level :: levelsFrom depth stepDown fuel (pass + 1)

/-- As many passes as it takes to step down to a depth, and some to spare for
rounding. -/
def enoughPasses (depth stepDown : α) : Nat :=
  let ratio := -depth / stepDown
  if Scalar.isFinite ratio then (Scalar.ceil ratio).toNat + 2 else 0

/-- The levels at which steps go down to a depth.  Without a way down there is
one pass, at the top of the stock at most. -/
def depthLevels (depth stepDown : α) : List α :=
  if 0 ≤ depth ∨ stepDown ≤ 0 ∨ !Scalar.isFinite stepDown then [Scalar.lesser depth 0]
  else levelsFrom depth stepDown (enoughPasses depth stepDown) 1

end Milling

/-!
## Moves of a tool

A tool on its way through an operation: where it is, and the points it has
passed.  Every point carries the tool and the spindle speed of the operation,
and cutting points its feed.
-/

namespace Milling

variable {α : Type}

/-- A tool on its way, the points it has passed latest first. -/
structure Cutter (α : Type) where
  cut : CutSettings α
  position : Position α
  passed : List (MotionPoint α)

namespace Cutter

def push (cutter : Cutter α) (point : MotionPoint α) : Cutter α :=
  { cutter with
    position := point.position
    passed :=
      { point with tool := cutter.cut.tool.number, spindle := some cutter.cut.spindle } ::
        cutter.passed }

def rapid (cutter : Cutter α) (x y z : α) : Cutter α := cutter.push (.rapid x y z)

def rapidHeight (cutter : Cutter α) (z : α) : Cutter α :=
  cutter.rapid cutter.position.x cutter.position.y z

def linearAt (cutter : Cutter α) (x y z feed : α) : Cutter α :=
  cutter.push { MotionPoint.linear x y z with feed := some feed }

def linear (cutter : Cutter α) (x y z : α) : Cutter α :=
  cutter.linearAt x y z cutter.cut.feed

def dwell (cutter : Cutter α) (seconds : α) : Cutter α :=
  cutter.push { position := cutter.position, motion := .dwell seconds }

def toolpath (cutter : Cutter α) : Toolpath α :=
  { points := cutter.passed.reverse
    tool := some cutter.cut.tool.number
    diameter := some cutter.cut.tool.diameter }

variable [Scalar α]

def start (cut : CutSettings α) : Cutter α :=
  ({ cut, position := { x := 0, y := 0, z := cut.clearanceZ }, passed := [] } : Cutter α).rapid
    0 0 cut.clearanceZ

/-- One move of a path at a height; the centre of an arc is given from where
the tool is. -/
def followOne (z : α) (cutter : Cutter α) (vertex : PathVertex α) : Cutter α :=
  match vertex.arc with
  | some arc =>
      cutter.push {
        position := { x := vertex.point.x, y := vertex.point.y, z }
        motion := .arc (.around arc.rotation
          (arc.center.x - cutter.position.x) (arc.center.y - cutter.position.y))
        feed := some cutter.cut.feed }
  | none => cutter.linear vertex.point.x vertex.point.y z

def follow (cutter : Cutter α) (path : List (PathVertex α)) (z : α) : Cutter α :=
  path.foldl (followOne z) cutter

end Cutter

end Milling

import Milling.Machining.Error
import Milling.Machining.Operation

/-!
# Checking operations

Every parameter of an operation against the values it may have.  The first one
that is out of place is reported.
-/

namespace Milling

variable {α : Type} [Scalar α]

namespace Require

def ensure (condition : Bool) (error : ParameterError α) :
    Except (ParameterError α) Unit :=
  if condition then .ok () else .error error

def finite (parameter : String) (value : α) : Except (ParameterError α) Unit :=
  ensure (Scalar.isFinite value) (.invalid parameter (.finite value))

def positive (parameter : String) (value : α) : Except (ParameterError α) Unit := do
  finite parameter value
  ensure (decide (0 < value)) (.invalid parameter (.positive value))

def notNegative (parameter : String) (value : α) : Except (ParameterError α) Unit := do
  finite parameter value
  ensure (decide (0 ≤ value)) (.invalid parameter (.notNegative value))

def belowTop (parameter : String) (value : α) : Except (ParameterError α) Unit := do
  finite parameter value
  ensure (decide (value ≤ 0)) (.invalid parameter (.belowTop value))

/-- The most depth passes, or pecks, that an operation may ask for. -/
def mostLevels : Nat := 10000

def steps (depth stepDown : α) : Except (ParameterError α) Unit := do
  belowTop "depth" depth
  positive "step_down" stepDown
  ensure (!decide (Scalar.ofInt mostLevels < -depth / stepDown))
    (.invalid "step_down" (.passes mostLevels))

def outline (least : Nat) (geometry : Polyline α) : Except (ParameterError α) Unit := do
  ensure (decide (least ≤ geometry.points.length))
    (.tooFewPoints least geometry.points.length)
  match geometry.points.findIdx? fun point => !point.isFinite with
  | some index => .error (.unboundedPoint index)
  | none => .ok ()

end Require

open Require

def CutSettings.check (cut : CutSettings α) : Except (ParameterError α) Unit := do
  let diameter := cut.tool.diameter
  ensure (Scalar.isFinite diameter && !decide (diameter ≤ 0))
    (.invalid "tool.diameter" (.positive diameter))
  positive "feed_rate" cut.feed
  positive "spindle_speed" cut.spindle
  finite "safe_z" cut.safeZ
  finite "clearance_z" cut.clearanceZ

def Contour.check (contour : Contour α) : Except (ParameterError α) Unit := do
  contour.cut.check
  steps contour.depth contour.stepDown
  notNegative "stock_to_leave" contour.stockToLeave
  outline (if contour.geometry.closed then 3 else 2) contour.geometry

def HelixSettings.fewestSegments : Nat := 3

def Pocket.check (pocket : Pocket α) : Except (ParameterError α) Unit := do
  pocket.cut.check
  steps pocket.depth pocket.stepDown
  ensure (decide (0 < pocket.stepOver) && decide (pocket.stepOver ≤ 1))
    (.outOfRange "step_over" pocket.stepOver 0 1)
  notNegative "stock_to_leave" pocket.stockToLeave
  positive "helix.pitch" pocket.helix.pitch
  ensure (decide (HelixSettings.fewestSegments ≤ pocket.helix.segments))
    (.invalid "helix.segments_per_revolution" (.segments HelixSettings.fewestSegments))
  ensure pocket.boundary.closed .openBoundary
  outline 3 pocket.boundary

def Drilling.check (drilling : Drilling α) : Except (ParameterError α) Unit := do
  drilling.cut.check
  belowTop "depth" drilling.depth
  notNegative "peck_depth" drilling.peckDepth
  let tooMany := decide (0 < drilling.peckDepth) &&
    decide (drilling.depth / drilling.peckDepth < -Scalar.ofInt mostLevels)
  ensure (!tooMany) (.invalid "peck_depth" (.pecks mostLevels))
  finite "clearance" drilling.clearance
  finite "retract" drilling.retract
  notNegative "dwell" drilling.dwell
  ensure (!drilling.points.isEmpty) (.missing "points")
  match drilling.points.findIdx? fun point => !point.isFinite with
  | some index => .error (.unboundedHole index)
  | none => .ok ()

def Operation.check : Operation α → Except (ParameterError α) Unit
  | .contour profile => profile.check
  | .pocket cavity => cavity.check
  | .drill holes => holes.check

end Milling

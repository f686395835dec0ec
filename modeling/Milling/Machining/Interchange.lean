import Milling.Machining.Generation
import Milling.Shop.Interchange
import Milling.Toolpath.Interchange

/-!
# Operations as data

The records in which operations and jobs are exchanged.  An operation is
tagged with its kind.
-/

namespace Milling

namespace LeadStrategy

def name : LeadStrategy → String
  | .tangent => "tangent"
  | .perpendicular => "perpendicular"
  | .radial => "radial"
  | .none => "none"

def ofName? (name : String) : Option LeadStrategy :=
  [tangent, perpendicular, radial, LeadStrategy.none].find? fun strategy =>
    strategy.name = name

end LeadStrategy

namespace Compensation

def name : Compensation → String
  | .computer => "computer"
  | .control => "control"
  | .none => "none"

def ofName? (name : String) : Option Compensation :=
  [computer, control, Compensation.none].find? fun compensation => compensation.name = name

end Compensation

namespace PocketPattern

def name : PocketPattern → String
  | .zigzag => "zigzag"
  | .offset => "offset"

def ofName? (name : String) : Option PocketPattern :=
  [zigzag, offset].find? fun pattern => pattern.name = name

end PocketPattern

namespace RampStrategy

def name : RampStrategy → String
  | .helical => "helical"
  | .plunge => "plunge"

def ofName? (name : String) : Option RampStrategy :=
  [helical, plunge].find? fun strategy => strategy.name = name

end RampStrategy

namespace HelixSettings

def toJson (helix : HelixSettings Float) : Json :=
  .record [
    ("pitch", .float helix.pitch), ("segments_per_revolution", .integer helix.segments)]

def ofJson? : Json → Option (HelixSettings Float) :=
  Members.read? do
    let base : HelixSettings Float := standard
    let pitch ← Members.defaulted "pitch" Json.float? base.pitch
    let segments ← Members.defaulted "segments_per_revolution"
      (Json.natural? Json.greatest32) base.segments
    pure { pitch, segments }

end HelixSettings

namespace CutSettings

def toJson (cut : CutSettings Float) : Json :=
  .record [
    ("tool", cut.tool.toJson), ("feed_rate", .float cut.feed),
    ("spindle_speed", .float cut.spindle), ("safe_z", .float cut.safeZ),
    ("clearance_z", .float cut.clearanceZ)]

def ofJson? : Json → Option (CutSettings Float) :=
  Members.read? do
    let tool ← Members.required "tool" Tool.ofTaggedJson?
    let feed ← Members.required "feed_rate" Json.float?
    let spindle ← Members.required "spindle_speed" Json.float?
    let safeZ ← Members.defaulted "safe_z" Json.float? standardSafeZ
    let clearanceZ ← Members.defaulted "clearance_z" Json.float? standardClearanceZ
    pure { tool, feed, spindle, safeZ, clearanceZ }

end CutSettings

namespace Contour

def toFields (contour : Contour Float) : List (String × Json) := [
  ("cut", contour.cut.toJson), ("geometry", contour.geometry.toJson),
  ("depth", .float contour.depth), ("step_down", .float contour.stepDown),
  ("lead_in", .text contour.leadIn.name), ("lead_out", .text contour.leadOut.name),
  ("climb", .bool contour.climb), ("compensation", .text contour.compensation.name),
  ("stock_to_leave", .float contour.stockToLeave)]

def read : MemberReader (Contour Float) := do
  let cut ← Members.required "cut" CutSettings.ofJson?
  let geometry ← Members.required "geometry" Polyline.ofJson?
  let depth ← Members.required "depth" Json.float?
  let stepDown ← Members.required "step_down" Json.float?
  let leadIn ← Members.defaulted "lead_in" (Json.taggedChoice? LeadStrategy.ofName?) .none
  let leadOut ← Members.defaulted "lead_out" (Json.taggedChoice? LeadStrategy.ofName?) .none
  let climb ← Members.defaulted "climb" Json.bool? true
  let compensation ←
    Members.defaulted "compensation" (Json.taggedChoice? Compensation.ofName?) .computer
  let stockToLeave ← Members.defaulted "stock_to_leave" Json.float? 0
  pure {
    cut, geometry, depth, stepDown, leadIn, leadOut, climb, compensation, stockToLeave }

end Contour

namespace Pocket

def toFields (pocket : Pocket Float) : List (String × Json) := [
  ("cut", pocket.cut.toJson), ("boundary", pocket.boundary.toJson),
  ("depth", .float pocket.depth), ("step_down", .float pocket.stepDown),
  ("step_over", .float pocket.stepOver), ("pattern", .text pocket.pattern.name),
  ("ramp", .text pocket.ramp.name), ("helix", pocket.helix.toJson),
  ("stock_to_leave", .float pocket.stockToLeave)]

def read : MemberReader (Pocket Float) := do
  let cut ← Members.required "cut" CutSettings.ofJson?
  let boundary ← Members.required "boundary" Polyline.ofJson?
  let depth ← Members.required "depth" Json.float?
  let stepDown ← Members.required "step_down" Json.float?
  let stepOver ← Members.required "step_over" Json.float?
  let pattern ← Members.defaulted "pattern" (Json.taggedChoice? PocketPattern.ofName?) .zigzag
  let ramp ← Members.defaulted "ramp" (Json.taggedChoice? RampStrategy.ofName?) .helical
  let helix ← Members.defaulted "helix" HelixSettings.ofJson? .standard
  let stockToLeave ← Members.defaulted "stock_to_leave" Json.float? 0
  pure { cut, boundary, depth, stepDown, stepOver, pattern, ramp, helix, stockToLeave }

end Pocket

namespace Drilling

def toFields (drilling : Drilling Float) : List (String × Json) := [
  ("cut", drilling.cut.toJson), ("points", .list (drilling.points.map PlanePoint.toJson)),
  ("depth", .float drilling.depth), ("peck_depth", .float drilling.peckDepth),
  ("clearance", .float drilling.clearance), ("retract", .float drilling.retract),
  ("dwell", .float drilling.dwell)]

def read : MemberReader (Drilling Float) := do
  let cut ← Members.required "cut" CutSettings.ofJson?
  let points ← Members.required "points" (Json.list? PlanePoint.ofJson?)
  let depth ← Members.required "depth" Json.float?
  let peckDepth ← Members.defaulted "peck_depth" Json.float? 0
  let clearance ← Members.required "clearance" Json.float?
  let retract ← Members.required "retract" Json.float?
  let dwell ← Members.defaulted "dwell" Json.float? 0
  pure { cut, points, depth, peckDepth, clearance, retract, dwell }

end Drilling

namespace Operation

def toJson (operation : Operation Float) : Json :=
  .record (("type", .text operation.name) ::
    match operation with
    | .contour profile => profile.toFields
    | .pocket cavity => cavity.toFields
    | .drill holes => holes.toFields)

def readerOf? (name : String) : Option (Json → Option (Operation Float)) :=
  if name = "contour" then some (Members.read? (Operation.contour <$> Contour.read))
  else if name = "pocket" then some (Members.read? (Operation.pocket <$> Pocket.read))
  else if name = "drill" then some (Members.read? (Operation.drill <$> Drilling.read))
  else none

def ofJson? (json : Json) : Option (Operation Float) := do
  let (tag, rest) ← Members.tagged? "type" json
  let reader ← readerOf? (← tag.text?)
  reader rest

end Operation

namespace Job

def toJson (job : Job Float) : Json :=
  .record (("operation", job.operation.toJson) ::
    Json.present "toolpath" Toolpath.toJson job.toolpath)

def ofJson? : Json → Option (Job Float) :=
  Members.read? do
    let operation ← Members.required "operation" Operation.ofJson?
    let toolpath ← Members.optional "toolpath" Toolpath.ofJson?
    pure { operation, toolpath }

end Job

end Milling

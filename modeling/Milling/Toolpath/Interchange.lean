import Milling.Json.Basic
import Milling.Scalar.Double
import Milling.Toolpath.Basic

/-!
# Toolpaths as data

The records in which points, boxes, outlines and toolpaths are exchanged.  A
point keeps its position, its motion and the payload of the motion in one
record, tagged with the kind of motion.
-/

namespace Milling

namespace PlanePoint

def toJson (point : PlanePoint Float) : Json :=
  .record [("x", .float point.x), ("y", .float point.y)]

def ofJson? : Json → Option (PlanePoint Float) :=
  Members.read? do
    let x ← Members.required "x" Json.float?
    let y ← Members.required "y" Json.float?
    pure { x, y }

end PlanePoint

namespace Polyline

def toJson (polyline : Polyline Float) : Json :=
  .record [
    ("points", .list (polyline.points.map PlanePoint.toJson)),
    ("closed", .bool polyline.closed)]

/-- Reads a polyline; one that does not say so is open. -/
def ofJson? : Json → Option (Polyline Float) :=
  Members.read? do
    let points ← Members.required "points" (Json.list? PlanePoint.ofJson?)
    let closed ← Members.defaulted "closed" Json.bool? false
    pure { points, closed }

end Polyline

namespace Bounds

def toJson (bounds : Bounds Float) : Json :=
  .record [
    ("min_x", .float bounds.low.x), ("max_x", .float bounds.high.x),
    ("min_y", .float bounds.low.y), ("max_y", .float bounds.high.y),
    ("min_z", .float bounds.low.z), ("max_z", .float bounds.high.z)]

def ofJson? : Json → Option (Bounds Float) :=
  Members.read? do
    let lowX ← Members.required "min_x" Json.float?
    let highX ← Members.required "max_x" Json.float?
    let lowY ← Members.required "min_y" Json.float?
    let highY ← Members.required "max_y" Json.float?
    let lowZ ← Members.required "min_z" Json.float?
    let highZ ← Members.required "max_z" Json.float?
    pure {
      low := { x := lowX, y := lowY, z := lowZ }
      high := { x := highX, y := highY, z := highZ } }

end Bounds

namespace Rotation

def name : Rotation → String
  | .clockwise => "cw"
  | .counterclockwise => "ccw"

def ofName? (name : String) : Option Rotation :=
  if name = "cw" then some .clockwise
  else if name = "ccw" then some .counterclockwise
  else none

end Rotation

namespace Motion

def toFields (motion : Motion Float) : List (String × Json) :=
  ("type", .text motion.kind.name) ::
    match motion with
    | .rapid => []
    | .linear => []
    | .arc shape =>
        ("direction", .text shape.rotation.name) ::
          (Json.present "i" .float shape.i ++ Json.present "j" .float shape.j ++
            Json.present "k" .float shape.k ++ Json.present "r" .float shape.radius)
    | .drill cycle =>
        ("cycle", .integer cycle.cycle) ::
          (Json.present "retract_height" .float cycle.retract ++
            Json.present "dwell_time" .float cycle.dwell ++
            Json.present "peck" .float cycle.peck)
    | .dwell seconds => [("seconds", .float seconds)]

def readArc : MemberReader (Motion Float) := do
  let rotation ← Members.required "direction" (Json.taggedChoice? Rotation.ofName?)
  let i ← Members.optional "i" Json.float?
  let j ← Members.optional "j" Json.float?
  let k ← Members.optional "k" Json.float?
  let radius ← Members.optional "r" Json.float?
  pure (.arc { rotation, i, j, k, radius })

def readDrill : MemberReader (Motion Float) := do
  let cycle ← Members.required "cycle" (Json.natural? Json.greatest8)
  let retract ← Members.optional "retract_height" Json.float?
  let dwell ← Members.optional "dwell_time" Json.float?
  let peck ← Members.optional "peck" Json.float?
  pure (.drill { cycle, retract, dwell, peck })

def readDwell : MemberReader (Motion Float) := do
  let seconds ← Members.required "seconds" Json.float?
  pure (.dwell seconds)

def kindOfName? (name : String) : Option MotionKind :=
  MotionKind.all.find? fun kind => kind.name = name

def kindOfTag? : Json → Option MotionKind
  | .text name => kindOfName? name
  | .integer index => if 0 ≤ index then MotionKind.all[index.toNat]? else none
  | _ => none

def read : MemberReader (Motion Float) := do
  match ← Members.required "type" kindOfTag? with
  | .rapid => pure .rapid
  | .linear => pure .linear
  | .arc => readArc
  | .drill => readDrill
  | .dwell => readDwell

end Motion

namespace MotionPoint

def toJson (point : MotionPoint Float) : Json :=
  .record (
    [("x", .float point.position.x), ("y", .float point.position.y),
      ("z", .float point.position.z)] ++
    Json.present "a" .float point.rotary ++
    point.motion.toFields ++
    Json.present "feed_rate" .float point.feed ++
    Json.present "spindle_speed" .float point.spindle ++
    [("tool_id", .integer point.tool)] ++
    Json.present "line" (fun line => .integer line) point.line ++
    Json.present "comment" .text point.comment)

def read : MemberReader (MotionPoint Float) := do
  let x ← Members.required "x" Json.float?
  let y ← Members.required "y" Json.float?
  let z ← Members.required "z" Json.float?
  let rotary ← Members.optional "a" Json.float?
  let motion ← Motion.read
  let feed ← Members.optional "feed_rate" Json.float?
  let spindle ← Members.optional "spindle_speed" Json.float?
  let tool ← Members.defaulted "tool_id" (Json.natural? Json.greatest32) 0
  let line ← Members.optional "line" (Json.natural? Json.greatest32)
  let comment ← Members.optional "comment" Json.text?
  pure { position := { x, y, z }, motion, rotary, feed, spindle, tool, line, comment }

def ofJson? : Json → Option (MotionPoint Float)
  | .record fields => Members.read? read (.record fields)
  | _ => none

end MotionPoint

namespace Toolpath

def toJson (path : Toolpath Float) : Json :=
  .record (
    ("points", .list (path.points.map MotionPoint.toJson)) ::
      (Json.present "tool_id" (fun tool => .integer tool) path.tool ++
        Json.present "tool_diameter" .float path.diameter))

def ofJson? : Json → Option (Toolpath Float) :=
  Members.read? do
    let points ← Members.required "points" (Json.list? MotionPoint.ofJson?)
    let tool ← Members.optional "tool_id" (Json.natural? Json.greatest32)
    let diameter ← Members.optional "tool_diameter" Json.float?
    pure { points, tool, diameter }

end Toolpath

end Milling

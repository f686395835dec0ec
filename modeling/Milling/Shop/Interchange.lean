import Milling.Decimal.Numeral
import Milling.Json.Basic
import Milling.Scalar.Double
import Milling.Shop.Limits
import Milling.Shop.ToolLibrary
import Milling.Shop.Units

/-!
# Shop data

The records in which tools, tool libraries and machine limits are exchanged.
-/

namespace Milling

namespace ToolKind

def ofName? (name : String) : Option ToolKind := all.find? fun kind => kind.name = name

end ToolKind

namespace ToolMaterial

def ofName? (name : String) : Option ToolMaterial :=
  all.find? fun material => material.name = name

end ToolMaterial

namespace Tool

def toJson (tool : Tool Float) : Json :=
  .record [
    ("id", .integer tool.number), ("kind", .text tool.kind.name),
    ("diameter", .float tool.diameter), ("flutes", .integer tool.flutes),
    ("material", .text tool.material.name), ("surface_speed", .float tool.surfaceSpeed),
    ("feed_per_tooth", .float tool.feedPerTooth), ("description", .text tool.description)]

/-- Reads the members of a tool, whose kind and material are read on their own. -/
def members (kind? : Json → Option ToolKind) (material? : Json → Option ToolMaterial) :
    MemberReader (Tool Float) := do
  let number ← Members.required "id" (Json.natural? Json.greatest32)
  let kind ← Members.required "kind" kind?
  let diameter ← Members.required "diameter" Json.float?
  let flutes ← Members.required "flutes" (Json.natural? Json.greatest32)
  let material ← Members.required "material" material?
  let surfaceSpeed ← Members.required "surface_speed" Json.float?
  let feedPerTooth ← Members.required "feed_per_tooth" Json.float?
  let description ← Members.required "description" Json.text?
  pure { number, kind, diameter, flutes, material, surfaceSpeed, feedPerTooth, description }

def ofJson? : Json → Option (Tool Float) :=
  Members.read?
    (members (Json.choice? ToolKind.ofName?) (Json.choice? ToolMaterial.ofName?))

def ofTaggedJson? : Json → Option (Tool Float) :=
  Members.read?
    (members (Json.taggedChoice? ToolKind.ofName?) (Json.taggedChoice? ToolMaterial.ofName?))

end Tool

namespace ToolLibrary

def toJson (library : ToolLibrary Float) : Json :=
  .record [("tools", .record (library.entries.map fun (key, tool) =>
    (toString key, tool.toJson)))]

/-- Reads a key: digits without leading zeros. -/
def key? (text : String) : Option Nat :=
  let digits := text.toList
  if digits.head? = some '0' ∧ digits ≠ ['0'] then none
  else (Decimal.natural? digits).filter (· ≤ greatestNumber)

def entries? : Json → Option (List (Nat × Tool Float))
  | .record fields => fields.mapM fun (name, json) => do
      let key ← key? name
      let tool ← Tool.ofJson? json
      some (key, tool)
  | _ => none

def ofJson? : Json → Option (ToolLibrary Float) :=
  Members.read? do
    let entries ← Members.required "tools" entries?
    pure (ofEntries entries)

end ToolLibrary

namespace Limits

def toJson (limits : Limits Float) : Json :=
  .record [
    ("x_travel", .float limits.xTravel), ("y_travel", .float limits.yTravel),
    ("z_travel", .float limits.zTravel), ("max_feed_rate", .float limits.maxFeed),
    ("max_spindle_speed", .float limits.maxSpindle)]

/-- Reads the members of machine limits; a limit that is not given is the
standard one. -/
def members : MemberReader (Limits Float) := do
  let base : Limits Float := standard
  let xTravel ← Members.defaulted "x_travel" Json.float? base.xTravel
  let yTravel ← Members.defaulted "y_travel" Json.float? base.yTravel
  let zTravel ← Members.defaulted "z_travel" Json.float? base.zTravel
  let maxFeed ← Members.defaulted "max_feed_rate" Json.float? base.maxFeed
  let maxSpindle ← Members.defaulted "max_spindle_speed" Json.float? base.maxSpindle
  pure { xTravel, yTravel, zTravel, maxFeed, maxSpindle }

def ofJson? : Json → Option (Limits Float) := Members.read? members

end Limits

namespace Units

def toJson (units : Units) : Json := .text units.name

def ofJson? : Json → Option Units := Json.choice? ofName?

end Units

end Milling

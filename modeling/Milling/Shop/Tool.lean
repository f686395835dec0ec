import Milling.Scalar.Basic
import Milling.Text.Blank
import Milling.Text.LetterCase

/-!
# Tools and what they cut

Workpiece materials, and the cutting tools whose speeds and feeds follow from them.
-/

/-!
## Workpiece materials

Each material scales the nominal surface speed of a tool.
-/

namespace Milling

/-- The material being cut. -/
inductive Material where
  | aluminum
  | brass
  | plastic
  | wood
  | steel
  | stainless
  | titanium
  | other
deriving Repr, DecidableEq

namespace Material

def all : List Material :=
  [.aluminum, .brass, .plastic, .wood, .steel, .stainless, .titanium, .other]

def name : Material → String
  | .aluminum => "aluminum"
  | .brass => "brass"
  | .plastic => "plastic"
  | .wood => "wood"
  | .steel => "steel"
  | .stainless => "stainless"
  | .titanium => "titanium"
  | .other => "other"

def ofName? (name : String) : Option Material := all.find? (·.name = name)

/-- A material typed by a user: blanks around the name and its case do not
matter, and aluminum has two spellings. -/
def read? (text : String) : Option Material :=
  let name := String.ofList (Text.lower (Text.trim text.toList))
  if name = "aluminium" then some .aluminum else ofName? name

/-- The material typed by a user, `other` for an unknown name. -/
def readOrOther (text : String) : Material := (read? text).getD .other

def speedFactor {α : Type} [Scalar α] : Material → α
  | .aluminum => 1.2
  | .brass => 1.1
  | .plastic => 1.3
  | .wood => 1.5
  | .steel => 0.8
  | .stainless => 0.7
  | .titanium => 0.6
  | .other => 1

end Material

end Milling

/-!
## Cutting tools

What a tool is, and the speeds, feeds and steps that follow from it.
-/

namespace Milling

/-- The shape of a cutting tool. -/
inductive ToolKind where
  | endMill
  | ballNose
  | drill
  | vBit
  | faceMill
deriving Repr, DecidableEq

namespace ToolKind

def all : List ToolKind := [.endMill, .ballNose, .drill, .vBit, .faceMill]

def name : ToolKind → String
  | .endMill => "end_mill"
  | .ballNose => "ball_nose"
  | .drill => "drill"
  | .vBit => "v_bit"
  | .faceMill => "face_mill"

def display : ToolKind → String
  | .endMill => "End Mill"
  | .ballNose => "Ball Nose"
  | .drill => "Drill"
  | .vBit => "V-Bit"
  | .faceMill => "Face Mill"

variable {α : Type} [Scalar α]

/-- The recommended depth of a pass, in diameters. -/
def stepDownFactor : ToolKind → α
  | .endMill => 0.5
  | .ballNose => 0.3
  | .drill => 2
  | .vBit => 0.2
  | .faceMill => 0.1

/-- The recommended lateral step, in diameters. -/
def stepOverFactor : ToolKind → α
  | .endMill => 0.4
  | .ballNose => 0.2
  | .drill => 0.4
  | .vBit => 0.1
  | .faceMill => 0.6

end ToolKind

/-- The material of a cutting tool. -/
inductive ToolMaterial where
  | highSpeedSteel
  | carbide
deriving Repr, DecidableEq

namespace ToolMaterial

def all : List ToolMaterial := [.highSpeedSteel, .carbide]

def name : ToolMaterial → String
  | .highSpeedSteel => "HSS"
  | .carbide => "Carbide"

end ToolMaterial

structure Tool (α : Type) where
  /-- The number that selects it in programs. -/
  number : Nat
  kind : ToolKind
  /-- Cutting diameter in millimeters. -/
  diameter : α
  flutes : Nat
  material : ToolMaterial
  /-- Nominal surface speed in meters a minute. -/
  surfaceSpeed : α
  /-- Millimeters cut by one tooth. -/
  feedPerTooth : α
  description : String
deriving Repr, DecidableEq

/-- Why a tool is refused. -/
inductive ToolError (α : Type) where
  | diameter (given : α)
  | noFlutes
  | cuttingData (field : String) (given : α)
deriving Repr, DecidableEq

namespace ToolError

def message {α : Type} [Scalar α] : ToolError α → String
  | .diameter given =>
      "Tool diameter must be positive and finite, got " ++ Scalar.toText given
  | .noFlutes => "Tool must have at least one flute"
  | .cuttingData field given =>
      "Invalid cutting data for '" ++ field ++ "': must be positive, got " ++
        Scalar.toText given

end ToolError

namespace Tool

variable {α : Type} [Scalar α]

def isPositive (value : α) : Bool := Scalar.isFinite value && decide (0 < value)

def make (number : Nat) (kind : ToolKind) (diameter : α) (flutes : Nat)
    (surfaceSpeed feedPerTooth : α) : Except (ToolError α) (Tool α) :=
  if !isPositive diameter then .error (.diameter diameter)
  else if flutes = 0 then .error .noFlutes
  else if !isPositive surfaceSpeed then .error (.cuttingData "surface_speed" surfaceSpeed)
  else if !isPositive feedPerTooth then .error (.cuttingData "feed_per_tooth" feedPerTooth)
  else
    .ok {
      number, kind, diameter, flutes, surfaceSpeed, feedPerTooth
      material := .carbide
      description := Scalar.toText diameter ++ "mm " ++ kind.display }

def defaultSurfaceSpeed : α := 100

def defaultFeedPerTooth : α := 0.1

def radius (tool : Tool α) : α := tool.diameter / 2

/-- Revolutions a minute in a material, rounded to a whole number. -/
def spindleIn (material : Material) (tool : Tool α) : α :=
  let adjusted := tool.surfaceSpeed * material.speedFactor
  Scalar.rounded (adjusted * 1000 / (Scalar.pi * tool.diameter))

/-- Millimeters a minute in a material, rounded to a whole number. -/
def feedIn (material : Material) (tool : Tool α) : α :=
  Scalar.rounded (tool.spindleIn material * Scalar.ofInt tool.flutes * tool.feedPerTooth)

def stepDown (tool : Tool α) : α := tool.diameter * tool.kind.stepDownFactor

def stepOver (tool : Tool α) : α := tool.diameter * tool.kind.stepOverFactor

def summary (tool : Tool α) : String :=
  "T" ++ toString tool.number ++ " " ++ tool.description ++ " - " ++
    Scalar.toText tool.diameter ++ "mm, " ++ toString tool.flutes ++ " flutes"

end Tool

end Milling

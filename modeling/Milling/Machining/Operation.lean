import Milling.Geometry.Polyline
import Milling.Shop.Tool

/-!
# Machining operations

What is to be cut, and how: profiles along an outline, pockets inside one, and
holes.  Each operation carries the cutting data that all of them share.
-/

namespace Milling

variable {α : Type}

/-- How a profile is entered or left. -/
inductive LeadStrategy where
  /-- Along the first or last segment. -/
  | tangent
  /-- Along the outward normal of the first or last segment. -/
  | perpendicular
  /-- Away from the centre of the geometry. -/
  | radial
  | none
deriving Repr, DecidableEq

/-- Who keeps the tool a radius away from the geometry. -/
inductive Compensation where
  /-- The path is offset here. -/
  | computer
  /-- The controller offsets the nominal path. -/
  | control
  | none
deriving Repr, DecidableEq

/-- How the floor of a pocket is covered. -/
inductive PocketPattern where
  | zigzag
  /-- Rings inwards from the wall. -/
  | offset
deriving Repr, DecidableEq

/-- How a pocket is entered. -/
inductive RampStrategy where
  | helical
  /-- Straight down at half feed. -/
  | plunge
deriving Repr, DecidableEq

/-- The shape of a helical entry. -/
structure HelixSettings (α : Type) where
  pitch : α
  segments : Nat
deriving Repr, DecidableEq

/-- Cutting data that every operation has. -/
structure CutSettings (α : Type) where
  tool : Tool α
  /-- Units a minute. -/
  feed : α
  spindle : α
  /-- Height of travel above the stock. -/
  safeZ : α
  /-- Height of the first rapid. -/
  clearanceZ : α
deriving Repr, DecidableEq

/-- A cut along an outline. -/
structure Contour (α : Type) where
  cut : CutSettings α
  geometry : Polyline α
  /-- The final depth, zero or below. -/
  depth : α
  stepDown : α
  leadIn : LeadStrategy := .none
  leadOut : LeadStrategy := .none
  climb : Bool := true
  compensation : Compensation := .computer
  stockToLeave : α
deriving Repr, DecidableEq

/-- A cavity inside a closed boundary. -/
structure Pocket (α : Type) where
  cut : CutSettings α
  boundary : Polyline α
  depth : α
  stepDown : α
  /-- The distance between passes, in tool diameters. -/
  stepOver : α
  pattern : PocketPattern := .zigzag
  ramp : RampStrategy := .helical
  helix : HelixSettings α
  stockToLeave : α
deriving Repr, DecidableEq

/-- Holes at a list of places. -/
structure Drilling (α : Type) where
  cut : CutSettings α
  points : List (PlanePoint α)
  depth : α
  /-- The depth of one peck; zero drills in one plunge. -/
  peckDepth : α
  clearance : α
  retract : α
  /-- Seconds at the bottom of each hole. -/
  dwell : α
deriving Repr, DecidableEq

inductive Operation (α : Type) where
  | contour (profile : Contour α)
  | pocket (cavity : Pocket α)
  | drill (holes : Drilling α)
deriving Repr, DecidableEq

namespace Operation

def name : Operation α → String
  | .contour _ => "contour"
  | .pocket _ => "pocket"
  | .drill _ => "drill"

def cut : Operation α → CutSettings α
  | .contour profile => profile.cut
  | .pocket cavity => cavity.cut
  | .drill holes => holes.cut

def tool (operation : Operation α) : Tool α := operation.cut.tool

def depth : Operation α → α
  | .contour profile => profile.depth
  | .pocket cavity => cavity.depth
  | .drill holes => holes.depth

end Operation

variable [Scalar α]

namespace HelixSettings

def standard : HelixSettings α := { pitch := 0.5, segments := 24 }

end HelixSettings

namespace CutSettings

def standardSafeZ : α := 5

def standardClearanceZ : α := 50

def make (tool : Tool α) (feed spindle : α) : CutSettings α :=
  { tool, feed, spindle, safeZ := standardSafeZ, clearanceZ := standardClearanceZ }

/-- Cutting data for a material, feed and speed by the tool's own data. -/
def forMaterial (tool : Tool α) (material : Material) : CutSettings α :=
  make tool (tool.feedIn material) (tool.spindleIn material)

def toolRadius (cut : CutSettings α) : α := cut.tool.radius

end CutSettings

def Pocket.stepDistance (pocket : Pocket α) : α := pocket.cut.tool.diameter * pocket.stepOver

end Milling

import Milling.Scalar.Basic

/-!
# Points and boxes

The instructions of a toolpath, and the boxes that enclose where they lead.
-/

/-!
## Motion points

One instruction of a toolpath: where the tool goes, how it moves there, and
what the source said about feed, spindle and tool.  A feed or spindle speed
that is absent is inherited from the points before.
-/

namespace Milling

variable {α : Type}

structure Position (α : Type) where
  x : α
  y : α
  z : α
deriving Repr, DecidableEq

/-- The sense in which an arc turns. -/
inductive Rotation where
  | clockwise
  | counterclockwise
deriving Repr, DecidableEq

def Rotation.opposite : Rotation → Rotation
  | .clockwise => .counterclockwise
  | .counterclockwise => .clockwise

/-- The words that give an arc: a centre offset, a radius or both. -/
structure Arc (α : Type) where
  rotation : Rotation
  i : Option α := none
  j : Option α := none
  k : Option α := none
  radius : Option α := none
deriving Repr, DecidableEq

/-- How an arc's geometry was given. -/
inductive ArcForm (α : Type) where
  | center (i j k : α)
  /-- A negative radius stands for the long arc. -/
  | radius (radius : α)
deriving Repr, DecidableEq

def Arc.around (rotation : Rotation) (i j : α) : Arc α :=
  { rotation, i := some i, j := some j }

/-- The geometry that counts: a centre offset wins over a radius. -/
def Arc.form? [Scalar α] (arc : Arc α) : Option (ArcForm α) :=
  if arc.i.isSome || arc.j.isSome || arc.k.isSome then
    some (.center (arc.i.getD 0) (arc.j.getD 0) (arc.k.getD 0))
  else arc.radius.map .radius

/-- A drilling cycle, numbered 81 to 89 in programs. -/
structure DrillCycle (α : Type) where
  cycle : Nat
  retract : Option α := none
  /-- Seconds spent at the bottom. -/
  dwell : Option α := none
  peck : Option α := none
deriving Repr, DecidableEq

/-- A kind of motion with what belongs to it. -/
inductive Motion (α : Type) where
  | rapid
  | linear
  | arc (shape : Arc α)
  | drill (cycle : DrillCycle α)
  | dwell (seconds : α)
deriving Repr, DecidableEq

/-- A kind of motion by name. -/
inductive MotionKind where
  | rapid
  | linear
  | arc
  | drill
  | dwell
deriving Repr, DecidableEq

namespace MotionKind

def all : List MotionKind := [.rapid, .linear, .arc, .drill, .dwell]

def name : MotionKind → String
  | .rapid => "rapid"
  | .linear => "linear"
  | .arc => "arc"
  | .drill => "drill"
  | .dwell => "dwell"

end MotionKind

namespace Motion

def kind : Motion α → MotionKind
  | .rapid => .rapid
  | .linear => .linear
  | .arc _ => .arc
  | .drill _ => .drill
  | .dwell _ => .dwell

def isCutting : Motion α → Bool
  | .linear => true
  | .arc _ => true
  | .drill _ => true
  | .rapid => false
  | .dwell _ => false

def isDwell : Motion α → Bool
  | .dwell _ => true
  | _ => false

def dwellSeconds? : Motion α → Option α
  | .dwell seconds => some seconds
  | .drill cycle => cycle.dwell
  | _ => none

end Motion

/-- One instruction of a toolpath. -/
structure MotionPoint (α : Type) where
  position : Position α
  motion : Motion α
  /-- Rotary axis in degrees. -/
  rotary : Option α := none
  feed : Option α := none
  spindle : Option α := none
  tool : Nat := 0
  /-- Line of the program that it came from. -/
  line : Option Nat := none
  comment : Option String := none
deriving Repr, DecidableEq

namespace MotionPoint

def rapid (x y z : α) : MotionPoint α := { position := { x, y, z }, motion := .rapid }

def linear (x y z : α) : MotionPoint α := { position := { x, y, z }, motion := .linear }

def kind (point : MotionPoint α) : MotionKind := point.motion.kind

def isCutting (point : MotionPoint α) : Bool := point.motion.isCutting

def isDwell (point : MotionPoint α) : Bool := point.motion.isDwell

def dwellSeconds? (point : MotionPoint α) : Option α := point.motion.dwellSeconds?

end MotionPoint

namespace Position

variable [Scalar α]

def distance (start stop : Position α) : α :=
  let dx := stop.x - start.x
  let dy := stop.y - start.y
  let dz := stop.z - start.z
  Scalar.sqrt (dx * dx + dy * dy + dz * dz)

/-- The distance between two positions seen from above. -/
def planeDistance (start stop : Position α) : α :=
  Scalar.hypot (stop.x - start.x) (stop.y - start.y)

def origin : Position α := { x := 0, y := 0, z := 0 }

end Position

end Milling

/-!
## Enclosing boxes

Boxes with sides along the axes, grown position by position.
-/

namespace Milling

variable {α : Type} [Scalar α]

/-- A box given by its two extreme corners. -/
structure Bounds (α : Type) where
  low : Position α
  high : Position α
deriving Repr, DecidableEq

namespace Bounds

omit [Scalar α] in
def of (position : Position α) : Bounds α := { low := position, high := position }

def grow (bounds : Bounds α) (position : Position α) : Bounds α :=
  { low := {
      x := Scalar.lesser bounds.low.x position.x
      y := Scalar.lesser bounds.low.y position.y
      z := Scalar.lesser bounds.low.z position.z }
    high := {
      x := Scalar.greater bounds.high.x position.x
      y := Scalar.greater bounds.high.y position.y
      z := Scalar.greater bounds.high.z position.z } }

def union (bounds other : Bounds α) : Bounds α :=
  (bounds.grow other.low).grow other.high

def contains (bounds : Bounds α) (position : Position α) : Bool :=
  let within (low value high : α) : Bool := decide (low ≤ value) && decide (value ≤ high)
  within bounds.low.x position.x bounds.high.x &&
    within bounds.low.y position.y bounds.high.y &&
    within bounds.low.z position.z bounds.high.z

def width (bounds : Bounds α) : α := bounds.high.x - bounds.low.x

def height (bounds : Bounds α) : α := bounds.high.y - bounds.low.y

def depth (bounds : Bounds α) : α := bounds.high.z - bounds.low.z

def ofList? : List (Position α) → Option (Bounds α)
  | [] => none
  | first :: rest => some (rest.foldl grow (of first))

end Bounds

end Milling

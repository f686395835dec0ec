import Milling.Machining.Raster

/-!
# Toolpaths of pockets

Each level of a pocket is entered by a helix or a plunge, cleared in rows or
in rings, and left at safe height.
-/

namespace Milling

variable {α : Type} [Scalar α]

/-- The cuts that clear one level, in order. -/
inductive Clearing (α : Type) where
  | raster (rows : List (List (RasterPass α)))
  /-- Rings of closed paths, the innermost first. -/
  | nested (rings : List (List (List (PathVertex α))))

namespace Clearing

omit [Scalar α] in
def start? : Clearing α → Option (PlanePoint α)
  | .raster rows => rows.flatten.head?.map RasterPass.start
  | .nested rings => rings.flatten.head?.bind fun path => path.head?.map PathVertex.point

def placeTolerance : α := 1e-9

def isAt (cutter : Cutter α) (target : PlanePoint α) (z : α) : Bool :=
  let here : PlanePoint α := { x := cutter.position.x, y := cutter.position.y }
  decide (here.distance target < placeTolerance) &&
    decide (Scalar.magnitude (cutter.position.z - z) < placeTolerance)

/-- Takes the tool to a place at a height, by a cut straight across or lifted
over to it. -/
def link (safeZ : α) (cutter : Cutter α) (target : PlanePoint α) (z : α) (lift : Bool) :
    Cutter α :=
  if isAt cutter target z then cutter
  else
    let above :=
      if lift then (cutter.rapidHeight safeZ).rapid target.x target.y safeZ else cutter
    above.linear target.x target.y z

/-- The tool is lifted before a pass unless it is alone in its row, and so is
the one in the row before.  The very first pass is reached without lifting. -/
def liftsBefore (previous : Option Nat) (length index : Nat) : Bool :=
  match previous with
  | none => decide (0 < index)
  | some previous => decide (0 < index) || decide (1 < length) || decide (1 < previous)

def cutRow (safeZ z : α) (cutter : Cutter α) (previous : Option Nat)
    (row : List (RasterPass α)) : Cutter α :=
  row.zipIdx.foldl
    (fun cutter (pass, index) =>
      let lift := liftsBefore previous row.length index
      (link safeZ cutter pass.start z lift).linear pass.stop.x pass.stop.y z)
    cutter

/-- Cuts rows one after the other; rows without passes are passed over. -/
def cutRows (safeZ z : α) : Option Nat → Cutter α → List (List (RasterPass α)) → Cutter α
  | _, cutter, [] => cutter
  | previous, cutter, row :: rows =>
      if row.isEmpty then cutRows safeZ z previous cutter rows
      else cutRows safeZ z (some row.length) (cutRow safeZ z cutter previous row) rows

/-- Cuts the paths of a ring, lifted over to all but its first; the very first
path of all is reached without lifting. -/
def cutRing (safeZ z : α) (cutter : Cutter α × Bool) (ring : List (List (PathVertex α))) :
    Cutter α × Bool :=
  ring.zipIdx.foldl
    (fun (cutter, isFirst) (path, index) =>
      match path with
      | [] => (cutter, isFirst)
      | start :: rest =>
          let lift := !isFirst && decide (0 < index)
          ((link safeZ cutter start.point z lift).follow rest z, false))
    cutter

def cut (safeZ z : α) (cutter : Cutter α) : Clearing α → Cutter α
  | .raster rows => cutRows safeZ z none cutter rows
  | .nested rings => (rings.foldl (cutRing safeZ z) (cutter, true)).1

end Clearing

namespace Pocket

/-- The radius of a helix, in tool diameters. -/
def helixRadiusFactor : α := 0.8

def mostRings : Nat := 10000

/-- The number of revolutions of a helix to a level: one for each pitch of its
depth, at least one, and at most as many as 32 bits count. -/
def revolutions (level pitch : α) : Nat :=
  let ratio := Scalar.magnitude level / pitch
  let greatest := Nat.pow 2 32 - 1
  let whole :=
    if Scalar.isFinite ratio then min (Scalar.ceil ratio).toNat greatest
    else if 0 < ratio then greatest
    else 0
  max whole 1

def helixPoint (center : PlanePoint α) (radius start level : α) (total perTurn segment : Nat) :
    Position α :=
  let angle := 2 * Scalar.pi * Scalar.ofInt segment / Scalar.ofInt perTurn
  { x := center.x + radius * Scalar.cos angle
    y := center.y + radius * Scalar.sin angle
    z := start + (level - start) * Scalar.ofInt segment / Scalar.ofInt total }

def helixSegments (pocket : Pocket α) (level : α) : Nat :=
  revolutions level pocket.helix.pitch * pocket.helix.segments

/-- A helix to one of the levels has more segments than 32 bits count. -/
def overwinds (pocket : Pocket α) (levels : List α) : Bool :=
  match pocket.ramp with
  | .helical => levels.any fun level => decide (Nat.pow 2 32 ≤ pocket.helixSegments level)
  | .plunge => false

def enterTurning (pocket : Pocket α) (center : PlanePoint α) (cutter : Cutter α)
    (start level : α) : Cutter α :=
  let radius := pocket.cut.tool.diameter * helixRadiusFactor
  let perTurn := pocket.helix.segments
  let total := pocket.helixSegments level
  let entry := center.x + radius
  let entered := (cutter.rapid entry center.y pocket.cut.safeZ).linear entry center.y start
  (List.range total).foldl
    (fun cutter segment =>
      let point := helixPoint center radius start level total perTurn (segment + 1)
      cutter.linear point.x point.y point.z)
    entered

def enterStraight (pocket : Pocket α) (start : PlanePoint α) (cutter : Cutter α) (level : α) :
    Cutter α :=
  (cutter.rapid start.x start.y pocket.cut.safeZ).linearAt start.x start.y level
    (pocket.cut.feed / 2)

def clearing (offsetter : Offsetter α) (pocket : Pocket α) :
    Except (MachiningError α) (Clearing α) :=
  let inset := pocket.cut.toolRadius + pocket.stockToLeave
  match pocket.pattern with
  | .zigzag => do
      pure (.raster (← Raster.rows offsetter pocket.boundary inset pocket.stepDistance))
  | .offset => do
      let rings ← Offsetter.orError
        (offsetter.rings pocket.boundary inset pocket.stepDistance mostRings)
      pure (.nested (rings.reverse.map fun ring => ring.map OffsetLoop.toPath))

def cutLevel (pocket : Pocket α) (clearing : Clearing α) (start center : PlanePoint α)
    (cutter : Cutter α) (previous level : α) : Cutter α :=
  let entered :=
    match pocket.ramp with
    | .helical => pocket.enterTurning center cutter previous level
    | .plunge => pocket.enterStraight start cutter level
  (clearing.cut pocket.cut.safeZ level entered).rapidHeight pocket.cut.safeZ

def toolpath (offsetter : Offsetter α) (pocket : Pocket α) :
    Except (MachiningError α) (Toolpath α) := do
  let clearing ← pocket.clearing offsetter
  match clearing.start?, pocket.boundary.centroid? with
  | none, _ => .error (.tooNarrow pocket.cut.tool.diameter)
  | some _, none => .error .noBoundary
  | some start, some center =>
      let levels := depthLevels pocket.depth pocket.stepDown
      if pocket.overwinds levels then .error .overflow
      else
        let cutter := ((0 :: levels).zip levels).foldl
          (fun cutter (previous, level) =>
            pocket.cutLevel clearing start center cutter previous level)
          (Cutter.start pocket.cut)
        pure cutter.toolpath

end Pocket

end Milling

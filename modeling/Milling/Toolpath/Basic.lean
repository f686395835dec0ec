import Milling.Geometry.Polyline
import Milling.Toolpath.Point

/-!
# Toolpaths

A toolpath is a sequence of motion points.  Bounds, length, tools and running
time are read off the points whenever they are asked for.
-/

namespace Milling

variable {α : Type}

/-- An ordered sequence of motion points, with the tool that cuts it where
one tool does. -/
structure Toolpath (α : Type) where
  points : List (MotionPoint α) := []
  tool : Option Nat := none
  diameter : Option α := none
deriving Repr, DecidableEq

namespace Toolpath

def extend (path : Toolpath α) (points : List (MotionPoint α)) : Toolpath α :=
  { path with points := path.points ++ points }

def spatial (path : Toolpath α) : List (MotionPoint α) :=
  path.points.filter fun point => !point.isDwell

def countOf (kind : MotionKind) (path : Toolpath α) : Nat :=
  path.points.countP fun point => decide (point.kind = kind)

def counts (path : Toolpath α) : List (MotionKind × Nat) :=
  (MotionKind.all.map fun kind => (kind, path.countOf kind)).filter fun entry => 0 < entry.2

/-- The elements of a list without later repeats. -/
def distinct [DecidableEq β] (items : List β) : List β :=
  (items.foldl (fun seen item => if item ∈ seen then seen else item :: seen) []).reverse

def tools (path : Toolpath α) : List Nat :=
  distinct (path.points.map MotionPoint.tool)

def runsOf : List (MotionPoint α) → List (Nat × List (MotionPoint α))
  | [] => []
  | point :: rest =>
      match runsOf rest with
      | (tool, run) :: runs =>
          if point.tool = tool then (tool, point :: run) :: runs
          else (point.tool, [point]) :: (tool, run) :: runs
      | [] => [(point.tool, [point])]

def splitByTool (path : Toolpath α) : List (Toolpath α) :=
  (runsOf path.points).map fun (tool, points) => { points, tool := some tool }

variable [Scalar α]

def bounds? (path : Toolpath α) : Option (Bounds α) :=
  Bounds.ofList? (path.spatial.map MotionPoint.position)

/-- The sum of the distances between consecutive points; dwells hold position
and add nothing. -/
def length (path : Toolpath α) : α :=
  (Polyline.steps (path.spatial.map MotionPoint.position)).foldl
    (fun total (start, stop) => total + start.distance stop) 0

/-- Feed for time estimates where none was ever given, in units a minute. -/
def defaultFeed : α := 1000

def rapidFactor : α := 3

/-- Position, feed and seconds while the time of a path is added up. -/
structure Clock (α : Type) where
  position : Position α
  feed : α
  seconds : α

def Clock.start : Clock α := { position := .origin, feed := defaultFeed, seconds := 0 }

/-- The feed after a point: its own if positive, else the one before. -/
def feedAfter (feed : α) (point : MotionPoint α) : α :=
  match point.feed with
  | some given => if 0 < given then given else feed
  | none => feed

/-- The clock after a point: waiting adds its seconds, cutting takes distance
over feed, and a rapid runs at a multiple of the feed. -/
def Clock.after (clock : Clock α) (point : MotionPoint α) : Clock α :=
  let feed := feedAfter clock.feed point
  let waited := match point.dwellSeconds? with
    | some seconds => clock.seconds + Scalar.greater seconds 0
    | none => clock.seconds
  if point.isDwell then { clock with feed, seconds := waited }
  else
    let distance := clock.position.distance point.position
    let perSecond := feed / 60
    let moving := match point.motion with
      | .rapid => distance / (perSecond * rapidFactor)
      | _ => distance / perSecond
    { position := point.position, feed, seconds := waited + moving }

def seconds (path : Toolpath α) : α :=
  (path.points.foldl Clock.after Clock.start).seconds

end Toolpath

end Milling

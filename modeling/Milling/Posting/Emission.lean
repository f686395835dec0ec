import Milling.Machining.Operation
import Milling.Posting.Dialect
import Milling.Toolpath.Basic

/-!
# Lines of a toolpath

The lines that each point of a toolpath adds to a program.  Tool, spindle
speed and feed are written where they change.
-/

namespace Milling.Posting

variable {α : Type}

/-- What a program has set so far. -/
structure Emitted (α : Type) where
  tool : Option Nat := none
  spindle : Option α := none
  feed : Option α := none
  inCycle : Bool := false

def toolLine (tool : Nat) : Line := ('T' :: (toString tool).toList) ++ " M6".toList

/-- The tools of operations in order of first use, one for each number. -/
def operationTools (operations : List (Operation α)) : List (Tool α) :=
  let collect (seen : List (Tool α)) (operation : Operation α) : List (Tool α) :=
    if seen.any fun tool => tool.number == operation.tool.number then seen
    else operation.tool :: seen
  (operations.foldl collect []).reverse

variable [Scalar α]

/-- A point that cannot be written: its index and the word that is not finite. -/
structure PointError where
  index : Nat
  letter : Char
deriving Repr, DecidableEq

def infiniteWord? (point : MotionPoint α) : Option Char :=
  let words : List (Char × Option α) := [
    ('X', some point.position.x), ('Y', some point.position.y),
    ('Z', some point.position.z), ('A', point.rotary), ('F', point.feed),
    ('S', point.spindle)]
  (words.find? fun word => word.2.any fun value => !Scalar.isFinite value).map Prod.fst

def pointError? (points : List (MotionPoint α)) : Option PointError :=
  points.zipIdx.findSome? fun (point, index) =>
    (infiniteWord? point).map fun letter => { index, letter }

def toolTable (dialect : Dialect) (operations : List (Operation α)) : List Line :=
  let entry (tool : Tool α) : Line :=
    let description :=
      if tool.description.isEmpty then tool.kind.display else tool.description
    dialect.comment ("T" ++ toString tool.number ++ " - " ++ description ++ " - D" ++
      Scalar.toText tool.diameter ++ "mm").toList
  match operationTools operations with
  | [] => []
  | tools => dialect.comment "Tool Table".toList :: tools.map entry

def positive? (value : Option α) : Option α := value.filter fun value => decide (0 < value)

def isNew (current : Option α) (value : α) : Bool :=
  match current with
  | some old => !(old == value)
  | none => true

def greatestSpeed : Int := (Nat.pow 2 63 : Nat) - 1

def spindleWord (speed : α) : Line :=
  'S' :: (toString (min (Scalar.round speed) greatestSpeed)).toList

def toolLines (state : Emitted α) (point : MotionPoint α) : List Line × Emitted α :=
  if point.tool ≠ 0 ∧ state.tool ≠ some point.tool then
    ([toolLine point.tool], { state with tool := some point.tool })
  else ([], state)

/-- The lines that set a point's spindle speed; the first one starts the
spindle. -/
def spindleLines (state : Emitted α) (point : MotionPoint α) : List Line × Emitted α :=
  match positive? point.spindle with
  | some speed =>
      if isNew state.spindle speed then
        let line :=
          if state.spindle.isNone then spindleWord speed ++ " M3".toList
          else spindleWord speed
        ([line], { state with spindle := some speed })
      else ([], state)
  | none => ([], state)

def isDrilling (point : MotionPoint α) : Bool := decide (point.kind = .drill)

def cycleLines (state : Emitted α) (point : MotionPoint α) : List Line × Emitted α :=
  let lines := if state.inCycle && !isDrilling point then ["G80".toList] else []
  (lines, { state with inCycle := isDrilling point })

def motionWord : Motion α → Line
  | .rapid => "G0".toList
  | .linear => "G1".toList
  | .arc shape =>
      match shape.rotation with
      | .clockwise => "G2".toList
      | .counterclockwise => "G3".toList
  | .drill _ => "G81".toList
  | .dwell _ => "G4".toList

def payloadWords (dialect : Dialect) (motion : Motion α) : List Line :=
  let present (letter : Char) (value : Option α) : List Line :=
    (value.map (dialect.word letter)).toList
  match motion with
  | .arc shape =>
      present 'I' shape.i ++ present 'J' shape.j ++ present 'K' shape.k ++
        present 'R' shape.radius
  | .drill cycle => present 'R' cycle.retract
  | _ => []

def feedWords (dialect : Dialect) (state : Emitted α) (point : MotionPoint α) :
    List Line × Emitted α :=
  match positive? point.feed with
  | some feed =>
      if point.isCutting && isNew state.feed feed then
        ([dialect.word 'F' feed], { state with feed := some feed })
      else ([], state)
  | none => ([], state)

def pointWords (dialect : Dialect) (state : Emitted α) (point : MotionPoint α) :
    List Line × Emitted α :=
  match point.motion with
  | .dwell seconds => ([motionWord point.motion, dialect.word 'P' seconds], state)
  | motion =>
      let place := [
        dialect.word 'X' point.position.x, dialect.word 'Y' point.position.y,
        dialect.word 'Z' point.position.z]
      let rotary := (point.rotary.map (dialect.word 'A')).toList
      let (feed, next) := feedWords dialect state point
      (motionWord motion :: (place ++ rotary ++ payloadWords dialect motion ++ feed), next)

def joinWords (words : List Line) : Line := [' '].intercalate words

def withComment (dialect : Dialect) (line : Line) (point : MotionPoint α) : Line :=
  match point.comment with
  | some comment =>
      if comment.isEmpty then line else line ++ ' ' :: dialect.comment comment.toList
  | none => line

def pointLines (dialect : Dialect) (state : Emitted α) (point : MotionPoint α) :
    List Line × Emitted α :=
  let (tools, state) := toolLines state point
  let (spindles, state) := spindleLines state point
  let (cycles, state) := cycleLines state point
  let (words, state) := pointWords dialect state point
  (tools ++ spindles ++ cycles ++ [withComment dialect (joinWords words) point], state)

/-- The lines of points in order; a drilling cycle in force at the end is
ended. -/
def pathLines (dialect : Dialect) : Emitted α → List (MotionPoint α) → List Line
  | state, [] => if state.inCycle then ["G80".toList] else []
  | state, point :: rest =>
      let (lines, next) := pointLines dialect state point
      lines ++ pathLines dialect next rest

end Milling.Posting

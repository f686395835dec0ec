import Milling.Program.Command
import Milling.Report.Basic
import Milling.Toolpath.Basic

/-!
# Checking programs

Checks of the points of a toolpath and of the commands of a program.  A fault
of a point names its source line, or its place in the path from one.
-/

namespace Milling.Program

variable {α : Type} [Scalar α]

def checkFeed (line : Nat) : Option α → Report α
  | some feed =>
      .errorIf (decide (feed ≤ 0) || Scalar.isUndefined feed) (.nonPositiveFeed line feed)
  | none => {}

def checkSpindle (line : Nat) : Option α → Report α
  | some speed => .errorIf (decide (speed < 0)) (.negativeSpindle line speed)
  | none => {}

def checkAxis (line : Nat) (axis : Char) : Option α → Report α
  | some value => .errorIf (!Scalar.isFinite value) (.nonFiniteAxis line axis)
  | none => {}

def checkPoint (line : Nat) (point : MotionPoint α) : Report α :=
  .concat [
    .warningIf (decide (point.kind = .rapid) && point.feed.isSome) (.feedOnRapid line),
    (match point.motion with
      | .arc shape => .warningIf shape.form?.isNone (.missingArcCenter line)
      | _ => {}),
    checkAxis line 'X' (some point.position.x),
    checkAxis line 'Y' (some point.position.y),
    checkAxis line 'Z' (some point.position.z),
    checkAxis line 'A' point.rotary,
    checkFeed line point.feed,
    checkSpindle line point.spindle]

def checkToolpath (path : Toolpath α) : Report α :=
  .concat (path.points.zipIdx.map fun (point, index) =>
    checkPoint (point.line.getD (index + 1)) point)

def axisWords : List Char := ['X', 'Y', 'Z', 'A', 'B', 'C', 'U', 'V', 'W']

def checkCommand (command : Command α) : Report α :=
  let line := command.line
  let code := command.code?
  let isArc := code == some (Code.g 2) || code == some (Code.g 3)
  .concat (
    [ .warningIf (code == some (Code.g 0) && command.has 'F') (.feedOnRapid line),
      .warningIf (isArc && ['I', 'J', 'K', 'R'].all (!command.has ·)) (.missingArcCenter line)] ++
    (command.parameters.entries.map fun (letter, value) =>
      if letter ∈ axisWords then checkAxis line letter (some value) else {}) ++
    [checkFeed line (command.get? 'F'), checkSpindle line (command.get? 'S')])

def checkCommands (commands : List (Command α)) : Report α :=
  .concat (commands.map checkCommand)

end Milling.Program

import Milling.Decimal.Numeral
import Milling.Shop.Units

/-!
# Codes in force

The codes of programs, and the state of a machine that obeys them.
-/

/-!
## Codes

The `G` and `M` words of programs, such as `G1` or `G5.1`.
-/

namespace Milling.Program

/-- A `G` or `M` code, with the number behind its point if it has one. -/
structure Code where
  letter : Char
  major : Nat
  minor : Option Nat := none
deriving Repr, DecidableEq

namespace Code

def g (major : Nat) : Code := { letter := 'G', major }

def m (major : Nat) : Code := { letter := 'M', major }

def greatest : Nat := Nat.pow 2 32 - 1

def read? (letter : Char) (raw : List Char) : Option Code :=
  let upper := letter.toUpper
  if upper ≠ 'G' ∧ upper ≠ 'M' then none
  else do
    let major ← Decimal.boundedNatural? greatest (raw.takeWhile (· != '.'))
    match raw.dropWhile (· != '.') with
    | [] => some { letter := upper, major }
    | _ :: fraction => do
        let minor ← Decimal.boundedNatural? greatest fraction
        some { letter := upper, major, minor := some minor }

/-- The number of a code narrowed to a byte. -/
def byte (code : Code) : Nat := (UInt8.ofNat code.major).toNat

def text (code : Code) : String :=
  let major := code.letter.toString ++ toString code.major
  match code.minor with
  | some minor => major ++ "." ++ toString minor
  | none => major

end Code

end Milling.Program

/-!
## Modal state

Codes of a modal group stay in force until another code of the group.
-/

namespace Milling.Program

/-- A group of codes of which one is in force at a time. -/
inductive ModalGroup where
  | motion
  | plane
  | units
  | distance
  | feedMode
  | workOffset
  | compensation
  | spindle
  | coolant
deriving Repr, DecidableEq

namespace ModalGroup

def name : ModalGroup → String
  | .motion => "Motion"
  | .plane => "Plane"
  | .units => "Units"
  | .distance => "Distance"
  | .feedMode => "FeedMode"
  | .workOffset => "WorkOffset"
  | .compensation => "CutterComp"
  | .spindle => "Spindle"
  | .coolant => "Coolant"

def ofG? (number : Nat) : Option ModalGroup :=
  if number ≤ 3 ∨ (80 ≤ number ∧ number ≤ 89) then some .motion
  else if 17 ≤ number ∧ number ≤ 19 then some .plane
  else if number = 20 ∨ number = 21 then some .units
  else if number = 90 ∨ number = 91 then some .distance
  else if 93 ≤ number ∧ number ≤ 95 then some .feedMode
  else if 54 ≤ number ∧ number ≤ 59 then some .workOffset
  else if 40 ≤ number ∧ number ≤ 42 then some .compensation
  else none

def ofM? (number : Nat) : Option ModalGroup :=
  if 3 ≤ number ∧ number ≤ 5 then some .spindle
  else if 7 ≤ number ∧ number ≤ 9 then some .coolant
  else none

/-- The group of a code; a code with a number behind its point has none. -/
def of? (code : Code) : Option ModalGroup :=
  if code.minor.isSome then none
  else if code.letter = 'G' then ofG? code.major
  else if code.letter = 'M' then ofM? code.major
  else none

end ModalGroup

/-- The number of the code in force for each group. -/
structure ModalState where
  motion : Nat := 0
  plane : Nat := 17
  units : Nat := 21
  distance : Nat := 90
  feedMode : Nat := 94
  workOffset : Nat := 54
  compensation : Nat := 40
  spindle : Nat := 5
  coolant : Nat := 9
deriving Repr, DecidableEq

namespace ModalState

def get (state : ModalState) : ModalGroup → Nat
  | .motion => state.motion
  | .plane => state.plane
  | .units => state.units
  | .distance => state.distance
  | .feedMode => state.feedMode
  | .workOffset => state.workOffset
  | .compensation => state.compensation
  | .spindle => state.spindle
  | .coolant => state.coolant

def set (state : ModalState) (group : ModalGroup) (number : Nat) : ModalState :=
  match group with
  | .motion => { state with motion := number }
  | .plane => { state with plane := number }
  | .units => { state with units := number }
  | .distance => { state with distance := number }
  | .feedMode => { state with feedMode := number }
  | .workOffset => { state with workOffset := number }
  | .compensation => { state with compensation := number }
  | .spindle => { state with spindle := number }
  | .coolant => { state with coolant := number }

/-- The state after a code, whose number is kept in a byte; codes outside every
group leave it. -/
def apply (state : ModalState) (code : Code) : ModalState :=
  match ModalGroup.of? code with
  | some group => state.set group code.byte
  | none => state

def unitsInForce (state : ModalState) : Units :=
  (Units.ofCode? state.units).getD .millimeters

def isIncremental (state : ModalState) : Bool := state.distance == 91

def isDrillCycle (number : Nat) : Bool := decide (81 ≤ number) && decide (number ≤ 89)

def inDrillCycle (state : ModalState) : Bool := isDrillCycle state.motion

def spindleTurns (state : ModalState) : Bool := state.spindle == 3 || state.spindle == 4

def describeMotion (state : ModalState) : String :=
  match state.motion with
  | 0 => "Rapid positioning (G0)"
  | 1 => "Linear interpolation (G1)"
  | 2 => "Clockwise arc (G2)"
  | 3 => "Counter-clockwise arc (G3)"
  | 80 => "Motion cancelled (G80)"
  | number => if isDrillCycle number then "Canned drill cycle" else "Unknown motion mode"

def describePlane (state : ModalState) : String :=
  match state.plane with
  | 17 => "XY plane (G17)"
  | 18 => "XZ plane (G18)"
  | 19 => "YZ plane (G19)"
  | _ => "Unknown plane"

def describeDistance (state : ModalState) : String :=
  match state.distance with
  | 90 => "Absolute positioning (G90)"
  | 91 => "Incremental positioning (G91)"
  | _ => "Unknown distance mode"

end ModalState

end Milling.Program

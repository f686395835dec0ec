import Milling.Scalar.Basic

/-!
# Machine limits

Travel and rates of the machine that programs are checked against.
-/

namespace Milling

inductive Axis where
  | x
  | y
  | z
deriving Repr, DecidableEq

def Axis.letter : Axis → Char
  | .x => 'X'
  | .y => 'Y'
  | .z => 'Z'

/-- Travel and rate limits.  A travel is the full length of an axis; checks
that assume a centred origin use half of it. -/
structure Limits (α : Type) where
  xTravel : α
  yTravel : α
  zTravel : α
  maxFeed : α
  maxSpindle : α
deriving Repr, DecidableEq

namespace Limits

variable {α : Type}

def along (limits : Limits α) : Axis → α
  | .x => limits.xTravel
  | .y => limits.yTravel
  | .z => limits.zTravel

/-- The travel of the axis with a given letter in either case. -/
def travel? (limits : Limits α) (letter : Char) : Option α :=
  match letter.toUpper with
  | 'X' => some limits.xTravel
  | 'Y' => some limits.yTravel
  | 'Z' => some limits.zTravel
  | _ => none

variable [Scalar α]

def standard : Limits α :=
  { xTravel := 500, yTravel := 400, zTravel := 300, maxFeed := 10000, maxSpindle := 10000 }

def invalidFields (limits : Limits α) : List String :=
  let fields := [
    ("x_travel", limits.xTravel), ("y_travel", limits.yTravel),
    ("z_travel", limits.zTravel), ("max_feed_rate", limits.maxFeed),
    ("max_spindle_speed", limits.maxSpindle)]
  (fields.filter fun (_, value) => !(Scalar.isFinite value && decide (0 < value))).map
    Prod.fst

end Limits

end Milling

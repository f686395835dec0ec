import Milling.Toolpath.Basic

/-!
# Cycle times

The running time of a toolpath as whole seconds and nanoseconds.
-/

namespace Milling

structure Duration where
  seconds : Nat
  nanoseconds : Nat
deriving Repr, DecidableEq

namespace Duration

def nanosecondsPerSecond : Nat := Nat.pow 10 9

def longest : Duration :=
  { seconds := Nat.pow 2 64 - 1, nanoseconds := nanosecondsPerSecond - 1 }

variable {α : Type} [Scalar α]

/-- A number of seconds to the nearest nanosecond; the longest duration where
the number is negative, too large or not a number. -/
def ofSeconds (value : α) : Duration :=
  let total := Scalar.scaled 9 value
  if !Scalar.isFinite value || decide (value < 0) then longest
  else if total < Nat.pow 2 64 * nanosecondsPerSecond then
    { seconds := total.toNat / nanosecondsPerSecond
      nanoseconds := total.toNat % nanosecondsPerSecond }
  else longest

end Duration

def Toolpath.cycleTime {α : Type} [Scalar α] (path : Toolpath α) : Duration :=
  Duration.ofSeconds path.seconds

end Milling

/-!
# Numbers of toolpaths and programs

`Scalar` lists what geometry, timing and program text ask of a number.  The
definitions of the library are written over it once: a program runs them on
doubles, and laws about exact coordinates read them on exact numbers.
-/

namespace Milling

/-- Arithmetic, order, whole numbers and decimals of a number type. -/
class Scalar (α : Type) extends Add α, Sub α, Mul α, Div α, Neg α, LT α, LE α, BEq α where
  decideLt : DecidableLT α
  decideLe : DecidableLE α
  /-- The number nearest to a whole number. -/
  ofInt : Int → α
  /-- The number nearest to `± coefficient / 10 ^ places`. -/
  ofDecimal : Bool → Nat → Nat → α
  /-- Neither infinite nor undefined. -/
  isFinite : α → Bool
  /-- The greatest whole number not above a finite number. -/
  floor : α → Int
  /-- A finite number times `10 ^ places`, rounded to the nearest whole number,
  a half to the even neighbour. -/
  scaled : Nat → α → Int
  toText : α → String
  toFixed : Nat → α → String
  sqrt : α → α
  /-- The length of the vector with two given components. -/
  hypot : α → α → α
  sin : α → α
  cos : α → α
  atan : α → α
  acos : α → α
  /-- The angle of the vector with a given rise and run. -/
  atan2 : α → α → α

namespace Scalar

variable {α : Type} [Scalar α]

instance (priority := low) : DecidableLT α := Scalar.decideLt

instance (priority := low) : DecidableLE α := Scalar.decideLe

instance (priority := low) (value : Nat) : OfNat α value := ⟨Scalar.ofInt value⟩

instance (priority := low) : OfScientific α where
  ofScientific coefficient negativeExponent exponent :=
    if negativeExponent then Scalar.ofDecimal false coefficient exponent
    else Scalar.ofDecimal false (coefficient * Nat.pow 10 exponent) 0

/-- The ratio of a circle's circumference to its diameter, to the digits of a
double. -/
def pi : α := 3.141592653589793

/-- A number is undefined when it differs from itself. -/
def isUndefined (value : α) : Bool := !(value == value)

/-- The smaller of two numbers, passing over an undefined one. -/
def lesser (left right : α) : α :=
  if right ≤ left then right
  else if isUndefined left then right
  else left

/-- The larger of two numbers, passing over an undefined one. -/
def greater (left right : α) : α :=
  if left ≤ right then right
  else if isUndefined left then right
  else left

/-- The distance of a number from zero; that of zero carries no sign. -/
def magnitude (value : α) : α := if 0 < value then value else 0 - value

def isWhole (value : α) : Bool :=
  isFinite value && value == ofInt (floor value)

def ceil (value : α) : Int := -floor (-value)

/-- The whole number nearest to a finite number, a half away from zero. -/
def round (value : α) : Int :=
  let nearest (size : α) : Int :=
    let below := floor size
    if size - ofInt below < 0.5 then below else below + 1
  if value < 0 then -nearest (-value) else nearest value

/-- The whole number nearest to a number, as a number; one that is not finite
stays. -/
def rounded (value : α) : α := if isFinite value then ofInt (round value) else value

def square (value : α) : α := value * value

end Scalar

end Milling

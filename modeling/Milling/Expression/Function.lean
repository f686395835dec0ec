import Milling.Expression.Value
import Milling.Text.Blank
import Milling.Text.LetterCase

/-!
# Functions of expressions

The functions that an expression can call by name.
-/

namespace Milling.Expression

namespace Value

def number : Value → Except ExpressionError Float
  | .float number => .ok number
  | .integer number => .ok (Float.ofInt number)
  | other => .error (.unexpected .number other)

def whole : Value → Except ExpressionError Int
  | .integer number => .ok number
  | other => .error (.unexpected .integer other)

def truth : Value → Except ExpressionError Bool
  | .boolean truth => .ok truth
  | other => .error (.unexpected .boolean other)

def content : Value → Except ExpressionError String
  | .text content => .ok content
  | other => .error (.unexpected .text other)

def items : Value → Except ExpressionError (List Value)
  | .tuple items => .ok items
  | other => .error (.unexpected .tuple other)

def pair : Value → Except ExpressionError (Value × Value)
  | .tuple [first, second] => .ok (first, second)
  | .tuple items => .error (.unexpected (.tupleOf 2) (.tuple items))
  | other => .error (.unexpected .tuple other)

def isPlain : Value → Bool
  | .tuple _ => false
  | .empty => false
  | _ => true

end Value

def plainKinds : List Kind := [.text, .integer, .float, .boolean]

abbrev ValueFunction := Value → Except ExpressionError Value

namespace ValueFunction

def ofNumber (apply : Float → Float) : ValueFunction := fun argument => do
  .ok (.float (apply (← argument.number)))

def ofTest (test : Float → Bool) : ValueFunction := fun argument => do
  .ok (.boolean (test (← argument.number)))

def ofNumbers (apply : Float → Float → Float) : ValueFunction := fun argument => do
  let (first, second) ← argument.pair
  let left ← first.number
  let right ← second.number
  .ok (.float (apply left right))

def ofWholes (apply : Int → Int → Int) : ValueFunction := fun argument => do
  let (first, second) ← argument.pair
  let left ← first.whole
  let right ← second.whole
  .ok (.integer (apply left right))

def ofText (apply : String → String) : ValueFunction := fun argument => do
  .ok (.text (apply (← argument.content)))

end ValueFunction

/-- A number as `2 ^ exponent * (1 + fraction)`, where `1 + fraction` lies
between the roots of one half and of two. -/
structure ReducedNumber where
  exponent : Float
  fraction : Float
  /-- What rounding left out, as a share of the number. -/
  lost : Float
  /-- The fraction is so small that two terms of its logarithm are enough. -/
  isNearPower : Bool

namespace ReducedNumber

def ofOnePlus (value : Float) : ReducedNumber :=
  let isWhole := Float.scaleB 1.0 53 ≤ value
  let sum := if isWhole then value else 1.0 + value
  let (half, power) := sum.frExp
  let mantissa := 2.0 * half
  let rounding :=
    if isWhole then 0.0
    else if 1 < power then 1.0 - (sum - value)
    else value - (sum - 1.0)
  let lost := rounding / sum
  let step := Float.scaleB 1.0 (-20)
  if mantissa < 1.4142131805419922 then
    { exponent := Float.ofInt (power - 1), fraction := mantissa - 1.0, lost
      isNearPower := mantissa < 1.0 + step }
  else
    { exponent := Float.ofInt power, fraction := half - 1.0, lost
      isNearPower := 2.0 - 3.0 * step ≤ mantissa }

/-- The coefficients of the series for the logarithm of `(1 + s) / (1 - s)` in
even powers of `s`, beyond its first term. -/
def logSeries (s : Float) : Float :=
  let square := s * s
  let fourth := square * square
  let first := square * 0.6666666666666735
  let second := 0.3999999999940942 + square * 0.2857142874366239
  let third := 0.22222198432149784 + square * 0.1818357216161805
  let last := 0.15313837699209373 + square * 0.14798198605116586
  first + fourth * second + fourth * fourth * third + fourth * fourth * fourth * last

/-- The logarithm of `1 + fraction` is the fraction less this, which the
logarithm of the power of two comes to; `share` is that logarithm's low part. -/
def logDeficit (number : ReducedNumber) (share : Float) : Float :=
  let fraction := number.fraction
  let halfSquare := 0.5 * fraction * fraction
  if number.isNearPower then
    halfSquare * (1.0 - 0.6666666666666666 * fraction) - share
  else
    let s := fraction / (2.0 + fraction)
    halfSquare - (s * (halfSquare + logSeries s) + share)

/-- The natural logarithm of a reduced number; that of two is added in a high
and a low part. -/
def log (number : ReducedNumber) : Float :=
  let power := number.exponent
  if power == 0.0 then number.fraction - number.logDeficit 0.0
  else
    let share := power * 1.9082149292705877e-10 + number.lost
    power * 0.6931471803691238 - (number.logDeficit share - number.fraction)

end ReducedNumber

def logOnePlus (value : Float) : Float :=
  if value ≤ -1.0 then if value == -1.0 then -1.0 / 0.0 else 0.0 / 0.0
  else if !value.isFinite then value
  else if value.abs < Float.scaleB 1.0 (-54) then value
  else if value.abs < Float.scaleB 1.0 (-29) then value - value * value * 0.5
  else if -0.2928934097290039 < value && value < 0.4142136573791504 then
    { exponent := 0.0, fraction := value, lost := 0.0, isNearPower := false : ReducedNumber }.log
  else (ReducedNumber.ofOnePlus value).log

def inverseTanh (value : Float) : Float := 0.5 * logOnePlus (2.0 * value / (1.0 - value))

/-- The exact remainder of a division that rounds toward zero, with the sign
of the dividend. -/
def floatRemainder (dividend divisor : Float) : Float :=
  match Decimal.Binary.ofFloat? dividend, Decimal.Binary.ofFloat? divisor with
  | some left, some right =>
      if right.significand = 0 then 0.0 / 0.0
      else
        let exponent := min left.exponent right.exponent
        let aligned (value : Decimal.Binary) : Nat :=
          value.significand * Nat.pow 2 (value.exponent - exponent).toNat
        let magnitude := Float.scaleB (Float.ofNat (aligned left % aligned right)) exponent
        if left.negative then -magnitude else magnitude
  | some _, none => if divisor.isNaN then divisor else dividend
  | none, _ => 0.0 / 0.0

/-- A float is neither zero, tiny, infinite nor undefined. -/
def isNormal (value : Float) : Bool :=
  value.isFinite && value.abs ≥ Float.scaleB 1.0 (-1022)

def absolute : ValueFunction
  | .float number => .ok (.float number.abs)
  | .integer number => .ok (.integer number.natAbs)
  | other => .error (.unexpected .number other)

/-- The least number of a tuple.  A whole number is the answer only if it is
less than every float. -/
def least : ValueFunction := fun argument => do
  let items ← argument.items
  let step (best : Int × Float) : Value → Except ExpressionError (Int × Float)
    | .float number => .ok (best.1, Scalar.lesser best.2 number)
    | .integer number => .ok (min best.1 number, best.2)
    | other => .error (.unexpected .number other)
  let (whole, float) ← items.foldlM step (wholeBound - 1, 1.0 / 0.0)
  .ok (if Float.ofInt whole < float then .integer whole else .float float)

def greatest : ValueFunction := fun argument => do
  let items ← argument.items
  let step (best : Int × Float) : Value → Except ExpressionError (Int × Float)
    | .float number => .ok (best.1, Scalar.greater best.2 number)
    | .integer number => .ok (max best.1 number, best.2)
    | other => .error (.unexpected .number other)
  let (whole, float) ← items.foldlM step (-wholeBound, -1.0 / 0.0)
  .ok (if float < Float.ofInt whole then .integer whole else .float float)

def choice : ValueFunction
  | .tuple [condition, whenTrue, whenFalse] => do
      .ok (if ← condition.truth then whenTrue else whenFalse)
  | .tuple items => .error (.unexpected (.tupleOf 3) (.tuple items))
  | other => .error (.unexpected .tuple other)

def contains : ValueFunction := fun argument => do
  match ← argument.pair with
  | (.tuple items, sought) =>
      if sought.isPlain then .ok (.boolean (items.any (·.same sought)))
      else .error (.unexpectedKind plainKinds sought)
  | (other, _) => .error (.unexpected .tuple other)

def containsAny : ValueFunction := fun argument => do
  match ← argument.pair with
  | (.tuple items, .tuple sought) =>
      match sought.find? fun value => !value.isPlain with
      | some value => .error (.unexpectedKind plainKinds value)
      | none =>
          .ok (.boolean (sought.any fun value => items.any (·.same value)))
  | (.tuple _, other) => .error (.unexpected .tuple other)
  | (other, _) => .error (.unexpected .tuple other)

/-- The length of a tuple, or of a text in bytes. -/
def length : ValueFunction
  | .text content => .ok (.integer content.utf8ByteSize)
  | .tuple items => .ok (.integer items.length)
  | other => .error (.unexpectedKind [.text, .tuple] other)

def bytePlace (value : Value) : Except ExpressionError Nat := do
  let place ← value.whole
  if place < 0 then .error .invalidIndex else .ok place.toNat

/-- The bytes of a text from a start to an end, or to its last byte. -/
def substring : ValueFunction := fun argument => do
  let items ← argument.items
  match items with
  | subject :: start :: rest =>
      if rest.length ≤ 1 then do
        let content ← subject.content
        let first ← bytePlace start
        let last ← match rest with
          | stop :: _ => bytePlace stop
          | [] => .ok content.utf8ByteSize
        if first > last ∨ last > content.utf8ByteSize then .error .invalidIndex
        else
          match String.fromUTF8? (content.toUTF8.extract first last) with
          | some part => .ok (.text part)
          | none => .error .invalidIndex
      else .error (.unexpected (.tupleBetween 2 3) (.tuple items))
  | _ => .error (.unexpected (.tupleBetween 2 3) (.tuple items))

def asText : Value → String
  | .text content => content
  | other => other.written

def kindName (value : Value) : String :=
  match value.kind with
  | .text => "string"
  | .float => "float"
  | .integer => "int"
  | .boolean => "boolean"
  | .tuple => "tuple"
  | .empty => "empty"

def bits (value : Int) : BitVec 64 := BitVec.ofInt 64 value

def bitwise (apply : BitVec 64 → BitVec 64 → BitVec 64) : ValueFunction :=
  .ofWholes fun left right => (apply (bits left) (bits right)).toInt

def numberFunctions : List (String × (Float → Float)) := [
  ("math::ln", Float.log), ("math::log2", Float.log2), ("math::log10", Float.log10),
  ("math::exp", Float.exp), ("math::exp2", Float.exp2),
  ("math::cos", Float.cos), ("math::acos", Float.acos),
  ("math::cosh", Float.cosh), ("math::acosh", Float.acosh),
  ("math::sin", Float.sin), ("math::asin", Float.asin),
  ("math::sinh", Float.sinh), ("math::asinh", Float.asinh),
  ("math::tan", Float.tan), ("math::atan", Float.atan),
  ("math::tanh", Float.tanh), ("math::atanh", inverseTanh),
  ("math::sqrt", Float.sqrt), ("math::cbrt", Float.cbrt),
  ("floor", Float.floor), ("round", Float.round), ("ceil", Float.ceil)]

def pairFunctions : List (String × (Float → Float → Float)) := [
  ("math::log", fun value base => Float.log value / Float.log base),
  ("math::pow", Float.pow), ("math::atan2", Float.atan2), ("math::hypot", Double.hypot)]

def numberTests : List (String × (Float → Bool)) := [
  ("math::is_nan", Float.isNaN), ("math::is_finite", Float.isFinite),
  ("math::is_infinite", Float.isInf), ("math::is_normal", isNormal)]

def valueFunctions : List (String × ValueFunction) := [
  ("math::abs", absolute),
  ("typeof", fun value => .ok (.text (kindName value))),
  ("min", least), ("max", greatest), ("if", choice),
  ("contains", contains), ("contains_any", containsAny), ("len", length),
  ("str::to_lowercase", .ofText fun content => String.ofList (Text.lower content.toList)),
  ("str::to_uppercase", .ofText fun content => String.ofList (Text.upper content.toList)),
  ("str::trim", .ofText fun content => String.ofList (Text.trim content.toList)),
  ("str::from", fun value => .ok (.text (asText value))),
  ("str::substring", substring),
  ("bitand", bitwise (· &&& ·)), ("bitor", bitwise (· ||| ·)), ("bitxor", bitwise (· ^^^ ·)),
  ("bitnot", fun value => do .ok (.integer (-(← value.whole) - 1))),
  ("shl", bitwise fun left right => left <<< (right.toNat % 64)),
  ("shr", bitwise fun left right => left.sshiftRight (right.toNat % 64))]

def function? (name : String) : Option ValueFunction :=
  ((numberFunctions.lookup name).map ValueFunction.ofNumber).or
    (((pairFunctions.lookup name).map ValueFunction.ofNumbers).or
      (((numberTests.lookup name).map ValueFunction.ofTest).or
        (valueFunctions.lookup name)))

end Milling.Expression

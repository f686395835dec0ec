import Milling.Scalar.Basic
import Milling.Decimal.Binary
import Milling.Decimal.Shortest
import Milling.Decimal.Numeral

/-!
# Doubles as scalars

The number type that programs run on.  Rounding and whole parts come from the
exact binary value, and decimals are read to the nearest double.
-/

namespace Milling

namespace Double

/-- The length of a vector by a square root and one correction of its rounding
error, for components of moderate size with `0 ≤ short ≤ long`. -/
def correctedLength (long short : Float) : Float :=
  let estimate := Float.sqrt (long * long + short * short)
  let excess :=
    if estimate ≤ 2.0 * short then
      let delta := estimate - short
      long * (2.0 * delta - long) + (delta - 2.0 * (long - short)) * delta
    else
      let delta := estimate - long
      2.0 * delta * (long - 2.0 * short) + ((4.0 * delta - short) * short + delta * delta)
  estimate - excess / (2.0 * estimate)

/-- The length of the vector with two given components, scaled where squares
would overflow or vanish. -/
def hypot (x y : Float) : Float :=
  if x.isInf || y.isInf then 1.0 / 0.0
  else
    let width := x.abs
    let height := y.abs
    let long := if width < height then height else width
    let short := if width < height then width else height
    let scale := Float.scaleB 1.0 600
    if x.isNaN || y.isNaN then x + y
    else if short ≤ long * Float.scaleB 1.0 (-54) then long + short
    else if long > Float.scaleB 1.0 511 then
      correctedLength (long / scale) (short / scale) * scale
    else if short < Float.scaleB 1.0 (-459) then
      correctedLength (long * scale) (short * scale) / scale
    else correctedLength long short

/-- The double nearest to `± coefficient / 10 ^ places`. -/
def ofDecimal (negative : Bool) (coefficient places : Nat) : Float :=
  Decimal.Scientific.toFloat { negative, coefficient, exponent := -(places : Int) }

end Double

instance : Scalar Float where
  decideLt := inferInstance
  decideLe := inferInstance
  ofInt := Float.ofInt
  ofDecimal := Double.ofDecimal
  isFinite value := (Decimal.Binary.ofFloat? value).isSome
  floor value := ((Decimal.Binary.ofFloat? value).map Decimal.Binary.floor).getD 0
  scaled places value :=
    ((Decimal.Binary.ofFloat? value).map (Decimal.Binary.scaled places)).getD 0
  toText := Decimal.Layout.plain.floatText
  toFixed := Decimal.fixedFloatText
  sqrt := Float.sqrt
  hypot := Double.hypot
  sin := Float.sin
  cos := Float.cos
  atan := Float.atan
  acos := Float.acos
  atan2 := Float.atan2

end Milling

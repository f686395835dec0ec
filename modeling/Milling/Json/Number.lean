import Milling.Decimal.Numeral
import Milling.Json.Basic

/-!
# Numbers of data text

Numbers of JSON text stay whole where they can.  A float is read off the digits
that fit in 64 bits and scaled by its power of ten, which gives the nearest
float when the digits are few and the power is small.
-/

namespace Milling.JsonText.Number

/-- The digits of a whole number without leading zeros, and what follows. -/
def wholeDigits? (text : List Char) : Option (List Char × List Char) :=
  match text with
  | '0' :: rest => some (['0'], rest)
  | _ =>
      let digits := text.takeWhile Char.isDigit
      if digits = [] then none else some (digits, text.dropWhile Char.isDigit)

def fractionDigits? : List Char → Option (List Char × List Char)
  | '.' :: text =>
      let digits := text.takeWhile Char.isDigit
      if digits = [] then none else some (digits, text.dropWhile Char.isDigit)
  | text => some ([], text)

def exponent? : List Char → Option (Option Int × List Char)
  | letter :: text =>
      if letter = 'e' ∨ letter = 'E' then
        let (negative, rest) := Decimal.splitSign text
        let digits := rest.takeWhile Char.isDigit
        if digits = [] then none
        else
          let magnitude : Int := Decimal.appendDigits 0 digits
          some (some (if negative then -magnitude else magnitude),
            rest.dropWhile Char.isDigit)
      else some (none, letter :: text)
  | [] => some (none, [])

def greatestWhole : Nat := Nat.pow 2 64 - 1

/-- A number with digits appended as long as it fits in 64 bits, and the digits
that are left over. -/
def appendWithin (value : Nat) : List Char → Nat × List Char
  | [] => (value, [])
  | digit :: rest =>
      let next := Decimal.appendDigits value [digit]
      if next ≤ greatestWhole then appendWithin next rest else (value, digit :: rest)

def greatestPower : Nat := 308

def floatOf (coefficient : Nat) : Float := Float.ofScientific coefficient false 0

def powerOfTen (power : Nat) : Float := Float.ofScientific 1 false power

/-- A number of at most 64 bits times a power of ten, rounded once for each of
its factors; `none` when it is too large.  Two divisions by the greatest power
leave nothing of it. -/
def scaled? (coefficient : Nat) (exponent : Int) : Option Float :=
  let power := exponent.natAbs
  let float := floatOf coefficient
  if coefficient = 0 then some 0.0
  else if 0 ≤ exponent then
    if power ≤ greatestPower then
      let product := float * powerOfTen power
      if product.isFinite then some product else none
    else none
  else if power ≤ greatestPower then some (float / powerOfTen power)
  else if power ≤ 2 * greatestPower then
    some (float / powerOfTen greatestPower / powerOfTen (power - greatestPower))
  else some 0.0

/-- The float that digits and an exponent stand for.  Digits beyond 64 bits are
left out, those before the point by way of the exponent. -/
def float? (negative : Bool) (whole fraction : List Char) (exponent : Int) : Option Json :=
  let (front, leftOver) := appendWithin 0 whole
  let (coefficient, ignored) := appendWithin front fraction
  let places : Int := fraction.length - ignored.length
  (scaled? coefficient (exponent + leftOver.length - places)).map fun magnitude =>
    .float (if negative then -magnitude else magnitude)

/-- The value of a number: whole numbers that fit in 64 bits stay whole, and
every other number is a finite float. -/
def value? (negative : Bool) (whole fraction : List Char) (exponent : Option Int) :
    Option Json :=
  let coefficient := Decimal.appendDigits 0 whole
  let isWhole :=
    if negative then decide (0 < coefficient) && decide (coefficient ≤ Nat.pow 2 63)
    else decide (coefficient ≤ greatestWhole)
  if fraction.isEmpty && exponent.isNone && isWhole then
    some (.integer (if negative then -coefficient else coefficient))
  else float? negative whole fraction (exponent.getD 0)

def read? (text : List Char) : Option (Json × List Char) := do
  let (negative, magnitude) := match text with
    | '-' :: rest => (true, rest)
    | _ => (false, text)
  let (whole, afterWhole) ← wholeDigits? magnitude
  let (fraction, afterFraction) ← fractionDigits? afterWhole
  let (exponent, rest) ← exponent? afterFraction
  let json ← value? negative whole fraction exponent
  some (json, rest)

end Milling.JsonText.Number

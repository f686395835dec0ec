/-!
# Decimal numerals

The decimal numbers of machine programs: an optional sign, digits and at most
one point, with a digit somewhere.  A numeral keeps the digits exactly; which
number they become is the reader's choice.
-/

namespace Milling.Decimal

/-- The number `± coefficient / 10 ^ places`. -/
structure Numeral where
  negative : Bool
  coefficient : Nat
  places : Nat
deriving Repr, DecidableEq

def digitValue (digit : Char) : Nat := digit.toNat - '0'.toNat

/-- The value of a run of digits read after `value`. -/
def appendDigits (value : Nat) (digits : List Char) : Nat :=
  digits.foldl (fun accumulated digit => 10 * accumulated + digitValue digit) value

/-- A natural number written with digits only, `none` when there is no digit or
another character. -/
def natural? (text : List Char) : Option Nat :=
  if text ≠ [] ∧ text.all Char.isDigit then some (appendDigits 0 text) else none

/-- Splits an optional sign off; `true` stands for a minus. -/
def splitSign : List Char → Bool × List Char
  | '-' :: rest => (true, rest)
  | '+' :: rest => (false, rest)
  | text => (false, text)

def boundedNatural? (bound : Nat) (text : List Char) : Option Nat :=
  let digits := match text with
    | '+' :: rest => rest
    | _ => text
  (natural? digits).filter (· ≤ bound)

namespace Numeral

/-- Reads an unsigned run of digits with at most one point. -/
def readMagnitude? (negative : Bool) (text : List Char) : Option Numeral :=
  let whole := text.takeWhile Char.isDigit
  match text.dropWhile Char.isDigit with
  | [] =>
      if whole = [] then none
      else some { negative, coefficient := appendDigits 0 whole, places := 0 }
  | '.' :: fraction =>
      if fraction.all Char.isDigit ∧ ¬(whole = [] ∧ fraction = []) then
        some {
          negative
          coefficient := appendDigits 0 (whole ++ fraction)
          places := fraction.length }
      else none
  | _ => none

def read? (text : List Char) : Option Numeral :=
  let (negative, magnitude) := splitSign text
  readMagnitude? negative magnitude

end Numeral

end Milling.Decimal

/-!
## Digits in other bases

Numbers written in bases up to sixteen, the letters in either case.
-/

namespace Milling.Decimal

def extendedDigit? (digit : Char) : Option Nat :=
  let lower := digit.toLower
  if digit.isDigit then some (digit.toNat - '0'.toNat)
  else if 'a' ≤ lower ∧ lower ≤ 'f' then some (lower.toNat - 'a'.toNat + 10)
  else none

def digitIn? (base : Nat) (digit : Char) : Option Nat := (extendedDigit? digit).filter (· < base)

def naturalIn? (base : Nat) (text : List Char) : Option Nat :=
  if text = [] then none
  else text.foldlM (fun value digit => (digitIn? base digit).map (base * value + ·)) 0

end Milling.Decimal

/-!
## Reading floats

The float nearest to a decimal number with an optional exponent.  Expressions
and data files share this reader; each adds the grammar that it accepts.
-/

namespace Milling.Decimal

/-- The digits of a decimal number with an exponent:
`± coefficient · 10 ^ exponent`. -/
structure Scientific where
  negative : Bool
  coefficient : Nat
  exponent : Int
deriving Repr, DecidableEq

namespace Scientific

/-- A bound on decimal exponents beyond which every number is zero or
infinite as a float, whatever its digits add. -/
def exponentBound : Int := 1000

/-- The nearest float.  Exponents far out of range are answered without
computing the power of ten. -/
def toFloat (value : Scientific) : Float :=
  let digits : Int := (Nat.toDigits 10 value.coefficient).length
  let magnitude : Float :=
    if value.coefficient = 0 then 0.0
    else if value.exponent + digits > exponentBound then 1.0 / 0.0
    else if value.exponent + digits < -exponentBound then 0.0
    else if value.exponent < 0 then
      Float.ofScientific value.coefficient true value.exponent.natAbs
    else Float.ofScientific value.coefficient false value.exponent.natAbs
  if value.negative then -magnitude else magnitude

end Scientific

/-- Splits digits, an optional point with digits, and the text after them.
`none` when there is no digit at all. -/
def splitSignificand (text : List Char) : Option (Nat × Nat × List Char) :=
  let whole := text.takeWhile Char.isDigit
  let rest := text.dropWhile Char.isDigit
  match rest with
  | '.' :: tail =>
      let fraction := tail.takeWhile Char.isDigit
      if whole = [] ∧ fraction = [] then none
      else
        some (appendDigits 0 (whole ++ fraction), fraction.length,
          tail.dropWhile Char.isDigit)
  | _ => if whole = [] then none else some (appendDigits 0 whole, 0, rest)

def readExponent? (text : List Char) : Option Int :=
  let (negative, digits) := splitSign text
  (natural? digits).map fun magnitude =>
    if negative then -(magnitude : Int) else magnitude

def readScientific? (negative : Bool) (text : List Char) : Option Scientific := do
  let (coefficient, places, rest) ← splitSignificand text
  match rest with
  | [] => some { negative, coefficient, exponent := -(places : Int) }
  | letter :: power =>
      if letter = 'e' ∨ letter = 'E' then
        let exponent ← readExponent? power
        some { negative, coefficient, exponent := exponent - places }
      else none

/-- Reads a float: a sign, then a decimal number with an optional exponent or
one of the names of infinity and NaN in any case. -/
def readFloat? (text : List Char) : Option Float :=
  let (negative, magnitude) := splitSign text
  let name := magnitude.map Char.toLower
  if name = "inf".toList ∨ name = "infinity".toList then
    some (if negative then -1.0 / 0.0 else 1.0 / 0.0)
  else if name = "nan".toList then some (0.0 / 0.0)
  else (readScientific? negative magnitude).map Scientific.toFloat

end Milling.Decimal

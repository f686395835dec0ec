/-!
# Exact numbers of doubles

What a double is exactly, and how it is rounded, as questions about integers.
-/

/-!
## Rounding quotients

Quotients of naturals rounded to the nearest whole number, and integers
divided by powers of ten.  A half goes to the even neighbour.
-/

namespace Milling.Decimal

/-- The whole number nearest to `numerator / denominator`; a half goes to the
even neighbour. -/
def roundHalfEven (numerator denominator : Nat) : Nat :=
  let quotient := numerator / denominator
  let twice := 2 * (numerator % denominator)
  if twice < denominator then quotient
  else if denominator < twice then quotient + 1
  else if quotient % 2 = 0 then quotient
  else quotient + 1

theorem roundHalfEven_one (numerator : Nat) :
    roundHalfEven numerator 1 = numerator := by
  simp [roundHalfEven, Nat.mod_one]

/-- A rounded quotient is within half a unit of the exact one. -/
theorem roundHalfEven_within_half (numerator denominator : Nat)
    (positive : 0 < denominator) :
    2 * numerator ≤ (2 * roundHalfEven numerator denominator + 1) * denominator ∧
      2 * roundHalfEven numerator denominator * denominator ≤
        2 * numerator + denominator := by
  have division := Nat.div_add_mod numerator denominator
  have small := Nat.mod_lt numerator positive
  generalize quotientEq : numerator / denominator = quotient at division
  generalize remainderEq : numerator % denominator = remainder at division small
  have product : denominator * quotient = quotient * denominator :=
    Nat.mul_comm denominator quotient
  have expand : (quotient + 1) * denominator = quotient * denominator + denominator :=
    Nat.succ_mul quotient denominator
  simp only [roundHalfEven, quotientEq, remainderEq]
  split
  · constructor
    · rw [Nat.add_mul, Nat.mul_assoc]
      omega
    · rw [Nat.mul_assoc]
      omega
  · split
    · constructor
      · rw [Nat.add_mul, Nat.mul_assoc, expand]
        omega
      · rw [Nat.mul_assoc, expand]
        omega
    · split
      · constructor
        · rw [Nat.add_mul, Nat.mul_assoc]
          omega
        · rw [Nat.mul_assoc]
          omega
      · constructor
        · rw [Nat.add_mul, Nat.mul_assoc, expand]
          omega
        · rw [Nat.mul_assoc, expand]
          omega

end Milling.Decimal

/-!
## Exact value of a binary float

A finite double is a whole number times a power of two.  This module reads
the two off the bits, so that every question about digits becomes one about
integers.
-/

namespace Milling.Decimal

/-- The number `± significand · 2 ^ exponent`. -/
structure Binary where
  negative : Bool
  significand : Nat
  exponent : Int
  /-- The next smaller float of the same sign is only half as far away as the
  next larger one. -/
  lowerGapHalved : Bool
deriving Repr, DecidableEq

namespace Binary

/-- The exact value of a double, `none` for infinities and NaN. -/
def ofFloat? (value : Float) : Option Binary :=
  let bits : Nat := value.toBits.toNat
  let negative := decide (Nat.pow 2 63 ≤ bits)
  let biased : Nat := bits / Nat.pow 2 52 % Nat.pow 2 11
  let fraction : Nat := bits % Nat.pow 2 52
  if biased = 2047 then none
  else if biased = 0 then
    some { negative, significand := fraction, exponent := -1074, lowerGapHalved := false }
  else
    some {
      negative
      significand := Nat.pow 2 52 + fraction
      exponent := (biased : Int) - 1075
      lowerGapHalved := decide (fraction = 0 ∧ 1 < biased) }

def fraction (value : Binary) : Nat × Nat :=
  (value.significand * Nat.pow 2 value.exponent.toNat, Nat.pow 2 (-value.exponent).toNat)

/-- The magnitude times a power of ten, rounded to the nearest whole number. -/
def scaledMagnitude (places : Nat) (value : Binary) : Nat :=
  let (numerator, denominator) := value.fraction
  roundHalfEven (numerator * Nat.pow 10 places) denominator

def scaled (places : Nat) (value : Binary) : Int :=
  let magnitude := value.scaledMagnitude places
  if value.negative then -(magnitude : Int) else magnitude

def floor (value : Binary) : Int :=
  let (numerator, denominator) := value.fraction
  if value.negative then -(((numerator + (denominator - 1)) / denominator : Nat) : Int)
  else ((numerator / denominator : Nat) : Int)

end Binary

end Milling.Decimal

/-!
## Decimals with a set number of places

A number rounded to a set number of places is a whole number of its smallest
unit.  This module writes that whole number with its decimal point, and the
float texts that keep the sign of a value rounded to zero.
-/

namespace Milling.Decimal

/-- The last `places` digits of a number, padded with zeros on the left. -/
def fractionDigits (places value : Nat) : List Char :=
  let digits := Nat.toDigits 10 (value % Nat.pow 10 places)
  List.replicate (places - digits.length) '0' ++ digits

/-- `magnitude / Nat.pow 10 places` with exactly `places` digits after the point and
no point when there are none. -/
def fixedMagnitude (places magnitude : Nat) : List Char :=
  let whole := Nat.toDigits 10 (magnitude / Nat.pow 10 places)
  if places = 0 then whole else whole ++ '.' :: fractionDigits places magnitude

def fixedText (places : Nat) (scaled : Int) : List Char :=
  if scaled < 0 then '-' :: fixedMagnitude places scaled.natAbs
  else fixedMagnitude places scaled.natAbs

/-- A float rounded to `places` digits after the point; a negative float keeps
its sign even when it rounds to zero. -/
def fixedFloatText (places : Nat) (value : Float) : String :=
  match Binary.ofFloat? value with
  | some binary =>
      let digits := fixedMagnitude places (binary.scaledMagnitude places)
      String.ofList (if binary.negative then '-' :: digits else digits)
  | none =>
      if value.isNaN then "NaN" else if value < 0 then "-inf" else "inf"

end Milling.Decimal

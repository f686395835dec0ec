import Milling.Decimal.Binary

/-!
# Shortest decimals

The fewest decimal digits that read back as a given float, and the layouts in
which programs, messages and data files write them.  Digits are chosen by
exact integer arithmetic: for one digit, two digits and so on, the two
neighbours of the value on that decimal grid are tested against the interval
of numbers that round to the float.
-/

namespace Milling.Decimal

/-- Which of two equally near decimals is chosen. -/
inductive Tie where
  | larger
  | even
deriving Repr, DecidableEq

/-- The number `0.d₁d₂… · 10 ^ point`, with the digits of `coefficient` as
`d₁d₂…`. -/
structure ShortDecimal where
  coefficient : Nat
  point : Int
deriving Repr, DecidableEq

namespace ShortDecimal

def shift (numerator denominator : Nat) (power : Int) : Nat × Nat :=
  (numerator * Nat.pow 10 power.toNat, denominator * Nat.pow 10 (-power).toNat)

/-- The least power of ten above a positive fraction, looked for near an
estimate. -/
def leastPowerAbove (numerator denominator : Nat) (estimate : Int) : Int :=
  let above (power : Int) : Bool :=
    let (shifted, unit) := shift numerator denominator (-power)
    decide (shifted < unit)
  if above (estimate - 1) then estimate - 1
  else if above estimate then estimate
  else if above (estimate + 1) then estimate + 1
  else estimate + 2

/-- Four times the magnitude, with the ends of the interval of numbers that
round to the float, all over one denominator. -/
structure Interval where
  below : Nat
  middle : Nat
  above : Nat
  unit : Nat
  closed : Bool

def Interval.ofBinary (value : Binary) : Interval :=
  let factor := Nat.pow 2 value.exponent.toNat
  let middle := 4 * value.significand
  { below := (if value.lowerGapHalved then middle - 1 else middle - 2) * factor
    middle := middle * factor
    above := (middle + 2) * factor
    unit := 4 * Nat.pow 2 (-value.exponent).toNat
    closed := value.significand % 2 = 0 }

/-- Whether `candidate · 10 ^ power` rounds to the float. -/
def Interval.admits (interval : Interval) (candidate : Nat) (power : Int) : Bool :=
  let (scaled, denominator) := shift candidate 1 power
  let position := scaled * interval.unit
  let low := interval.below * denominator
  let high := interval.above * denominator
  if interval.closed then decide (low ≤ position) && decide (position ≤ high)
  else decide (low < position) && decide (position < high)

/-- The admitted neighbour of the value on the grid of multiples of
`10 ^ power`, the nearer one if both are; the tie rule decides between two
equally near. -/
def Interval.onGrid (interval : Interval) (tie : Tie) (power : Int) : Option Nat :=
  let (scaled, denominator) := shift interval.middle interval.unit (-power)
  let lower := scaled / denominator
  let upper := lower + 1
  let rest := 2 * (scaled % denominator)
  let lowerNearer :=
    decide (rest < denominator) || (rest == denominator && tie == .even && lower % 2 == 0)
  match interval.admits lower power, interval.admits upper power with
  | true, true => some (if lowerNearer then lower else upper)
  | true, false => some lower
  | false, true => some upper
  | false, false => none

/-- Tries grids of `digits`, `digits + 1`, … digits, at most `remaining` of them. -/
def search (interval : Interval) (tie : Tie) (point : Int) (digits : Nat) : Nat → ShortDecimal
  | 0 => { coefficient := 0, point := 0 }
  | remaining + 1 =>
      match interval.onGrid tie (point - digits) with
      | some candidate =>
          if candidate = Nat.pow 10 digits then { coefficient := 1, point := point + 1 }
          else { coefficient := candidate, point }
      | none => search interval tie point (digits + 1) remaining

/-- The fewest digits that read back as the magnitude of a float. -/
def ofBinary (tie : Tie) (value : Binary) : ShortDecimal :=
  if value.significand = 0 then { coefficient := 0, point := 0 }
  else
    let interval := Interval.ofBinary value
    let (numerator, denominator) := value.fraction
    let binaryPoint : Int := (Nat.log2 value.significand : Int) + value.exponent
    let estimate := (binaryPoint * 30103) / 100000 + 1
    let point := leastPowerAbove numerator denominator estimate
    search interval tie point 1 17

end ShortDecimal

/-- How a number is laid out once its digits are chosen. -/
structure Layout where
  /-- Positional from this decimal point position on; `none` for no limit. -/
  lowestPoint : Option Int
  /-- Positional up to this decimal point position; `none` for no limit. -/
  highestPoint : Option Int
  /-- Whole numbers end in `.0`. -/
  keepsFraction : Bool
  /-- The digits of a number halfway between two shortest decimals. -/
  tie : Tie
deriving Repr, DecidableEq

namespace Layout

/-- Always positional, whole numbers without a point: `100000`, `0.1`. -/
def plain : Layout :=
  { lowestPoint := none, highestPoint := none, keepsFraction := false, tie := .larger }

/-- Always positional, whole numbers with `.0`. -/
def pointed : Layout :=
  { lowestPoint := none, highestPoint := none, keepsFraction := true, tie := .larger }

/-- Positional from `0.0001` up to below `10^16`, whole numbers with `.0`. -/
def debug : Layout :=
  { lowestPoint := some (-3), highestPoint := some 16, keepsFraction := true, tie := .larger }

/-- Positional from `0.00001` up to below `10^16`, whole numbers with `.0`, and
of two equally short decimals the even one. -/
def interchange : Layout :=
  { lowestPoint := some (-4), highestPoint := some 16, keepsFraction := true, tie := .even }

def positional (layout : Layout) (point : Int) : Bool :=
  layout.lowestPoint.all (· ≤ point) && layout.highestPoint.all (point ≤ ·)

def positionalText (keepsFraction : Bool) (digits : List Char) (point : Int) : List Char :=
  let places := point.toNat
  if point ≤ 0 then
    '0' :: '.' :: List.replicate (-point).toNat '0' ++ digits
  else if digits.length ≤ places then
    digits ++ List.replicate (places - digits.length) '0' ++
      (if keepsFraction then ['.', '0'] else [])
  else digits.take places ++ '.' :: digits.drop places

def exponentText (digits : List Char) (point : Int) : List Char :=
  let exponent := point - 1
  let magnitude := Nat.toDigits 10 exponent.natAbs
  let scale := if exponent < 0 then '-' :: magnitude else magnitude
  match digits with
  | [] => []
  | [digit] => digit :: 'e' :: scale
  | digit :: rest => digit :: '.' :: rest ++ 'e' :: scale

def text (layout : Layout) (value : ShortDecimal) : List Char :=
  if value.coefficient = 0 then
    if layout.keepsFraction then ['0', '.', '0'] else ['0']
  else
    let digits := Nat.toDigits 10 value.coefficient
    if layout.positional value.point then
      positionalText layout.keepsFraction digits value.point
    else exponentText digits value.point

def floatText (layout : Layout) (value : Float) : String :=
  match Binary.ofFloat? value with
  | some binary =>
      let digits := layout.text (ShortDecimal.ofBinary layout.tie binary)
      String.ofList (if binary.negative then '-' :: digits else digits)
  | none =>
      if value.isNaN then "NaN" else if value < 0 then "-inf" else "inf"

end Layout

end Milling.Decimal

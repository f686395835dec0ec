import Milling.Archive.Instant
import Milling.Decimal.Numeral
import Milling.Json.Basic

/-!
# Words of TOML

Values that are written without quotes: truth values, whole numbers, floats,
dates and times.
-/

namespace Milling.TomlText

def isWordCharacter (character : Char) : Bool :=
  character.isAlphanum || character == '+' || character == '-' || character == '_' ||
    character == '.' || character == ':'

/-- Digits of a base, with single underscores between them, underscores left
out. -/
def grouped? (base : Nat) (text : List Char) : Option (List Char) :=
  let digits := text.filter (· != '_')
  let isGrouped := (text.splitOn '_').all (· != [])
  if isGrouped ∧ (Decimal.naturalIn? base digits).isSome then some digits else none

/-- Decimal digits with single underscores between them, the first no zero
unless it is the only one. -/
def decimalDigits? (text : List Char) : Option (List Char) :=
  (grouped? 10 text).filter fun digits => digits == ['0'] || digits.head? != some '0'

def whole? (text : List Char) : Option Int :=
  let signed : Option Int := match text with
    | '0' :: 'x' :: digits => (grouped? 16 digits >>= Decimal.naturalIn? 16).map Int.ofNat
    | '0' :: 'o' :: digits => (grouped? 8 digits >>= Decimal.naturalIn? 8).map Int.ofNat
    | '0' :: 'b' :: digits => (grouped? 2 digits >>= Decimal.naturalIn? 2).map Int.ofNat
    | _ =>
        let (negative, magnitude) := Decimal.splitSign text
        (decimalDigits? magnitude).map fun digits =>
          let value : Int := Decimal.appendDigits 0 digits
          if negative then -value else value
  let bound : Int := Nat.pow 2 63
  signed.filter fun value => decide (-bound ≤ value) && decide (value < bound)

/-- The digits after a point, none where there is no point. -/
def fraction? : List Char → Option (List Char)
  | [] => some []
  | '.' :: digits => grouped? 10 digits
  | _ => none

def power? : List Char → Option Int
  | [] => some 0
  | _ :: text =>
      let (negative, digits) := Decimal.splitSign text
      (grouped? 10 digits).map fun digits =>
        let value : Int := Decimal.appendDigits 0 digits
        if negative then -value else value

def decimal? (negative : Bool) (magnitude : List Char) : Option Float := do
  let isExponent := fun character => character == 'e' || character == 'E'
  let significand := magnitude.takeWhile fun character => !isExponent character
  let exponent := magnitude.dropWhile fun character => !isExponent character
  let point := significand.dropWhile (· != '.')
  if point = [] ∧ exponent = [] then none
  else do
    let whole ← decimalDigits? (significand.takeWhile (· != '.'))
    let fraction ← fraction? point
    let power ← power? exponent
    let value : Decimal.Scientific := {
      negative
      coefficient := Decimal.appendDigits 0 (whole ++ fraction)
      exponent := power - fraction.length }
    some value.toFloat

/-- A float.  Digits may not reach positive infinity. -/
def float? (text : List Char) : Option Float :=
  let infinity : Float := 1.0 / 0.0
  let (negative, magnitude) := Decimal.splitSign text
  if magnitude = "inf".toList then some (if negative then -infinity else infinity)
  else if magnitude = "nan".toList then some (0.0 / 0.0)
  else (decimal? negative magnitude).filter fun value => value != infinity

def pairWithin? (least greatest : Nat) (tens units : Char) : Option Nat :=
  (Decimal.natural? [tens, units]).filter fun value =>
    decide (least ≤ value) && decide (value ≤ greatest)

def afterDate? : List Char → Option (List Char)
  | a :: b :: c :: d :: '-' :: e :: f :: '-' :: g :: h :: rest => do
      let year ← Decimal.natural? [a, b, c, d]
      let month ← pairWithin? 1 12 e f
      let day ← pairWithin? 1 31 g h
      let length := (Archive.CivilDate.monthLengths year).getD (month - 1) 0
      if day ≤ length then some rest else none
  | _ => none

/-- Reads a time of day, and gives what follows; the sixtieth second is a leap
second. -/
def afterTime? : List Char → Option (List Char)
  | a :: b :: ':' :: c :: d :: ':' :: e :: f :: rest => do
      let _ ← pairWithin? 0 23 a b
      let _ ← pairWithin? 0 59 c d
      let _ ← pairWithin? 0 60 e f
      match rest with
      | '.' :: digits =>
          if digits.takeWhile Char.isDigit = [] then none
          else some (digits.dropWhile Char.isDigit)
      | _ => some rest
  | _ => none

/-- The offset of a time from universal time, if any. -/
def isOffset : List Char → Bool
  | [] => true
  | ['Z'] => true
  | ['z'] => true
  | [sign, a, b, ':', c, d] =>
      (sign == '+' || sign == '-') && (pairWithin? 0 23 a b).isSome &&
        (pairWithin? 0 59 c d).isSome
  | _ => false

def isOffsetTime (text : List Char) : Bool := (afterTime? text).any isOffset

def isMoment (text : List Char) : Bool :=
  match afterDate? text with
  | some [] => true
  | some ('T' :: time) => isOffsetTime time
  | some ('t' :: time) => isOffsetTime time
  | some _ => false
  | none => afterTime? text == some []

def momentJson (text : List Char) : Json := .record [("moment", .text (String.ofList text))]

def wordValue? (text : List Char) : Option Json :=
  if text = "true".toList then some (.bool true)
  else if text = "false".toList then some (.bool false)
  else if isMoment text then some (momentJson text)
  else
    match float? text with
    | some value => some (.float value)
    | none => (whole? text).map .integer

/-- A value without quotes, and what follows.  A date may have a time after a
blank. -/
def word? (text : List Char) : Option (Json × List Char) := do
  let word := text.takeWhile isWordCharacter
  let rest := text.dropWhile isWordCharacter
  match afterDate? word, rest with
  | some [], ' ' :: digit :: _ =>
      if digit.isDigit then
        let time := rest.tail.takeWhile isWordCharacter
        if isOffsetTime time then
          some (momentJson (word ++ ' ' :: time), rest.tail.dropWhile isWordCharacter)
        else none
      else (wordValue? word).map fun value => (value, rest)
  | _, _ => (wordValue? word).map fun value => (value, rest)

end Milling.TomlText

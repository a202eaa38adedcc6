/-
The shortest decimal text that reads back as the same value.

For one digit, then two, and so on, the two decimals of that many digits next
to the value are tried; the first count of digits at which one of them reads
back wins, and of two the nearer one.  Seventeen digits are always enough.
-/

import Rollup.Decimal

namespace Rollup

namespace Decimal

/-- How many places stand before the point of a positive fraction; with zeros
behind the point the count is zero or negative. -/
def placesBeforePoint (numerator denominator : Nat) : Int :=
  if denominator ≤ numerator then (Nat.toDigits 10 (numerator / denominator)).length
  else 1 - (Nat.toDigits 10 ((denominator - 1) / numerator)).length

/-- A fraction measured in a power of ten, again as numerator and denominator. -/
def scaleByTen (numerator denominator : Nat) (unit : Int) : Nat × Nat :=
  match unit with
  | .ofNat power => (numerator, denominator * Nat.pow 10 power)
  | .negSucc power => (numerator * Nat.pow 10 (power + 1), denominator)

/-- The multiple of a power of ten that is next to a finite value of the given
size and reads back as it. -/
def multipleReadingBack (value : Binary64) (unit : Int) : Option Nat :=
  let (numerator, denominator) := Binary64.scaleFraction value.significand 1 value.exponent
  let (scaled, divisor) := scaleByTen numerator denominator unit
  let below := scaled / divisor
  let readsBack (multiple : Nat) : Bool :=
    (Binary64.ofDecimal false multiple unit).magnitude = value.magnitude
  let candidates :=
    if 2 * (scaled % divisor) < divisor then [below, below + 1] else [below + 1, below]
  candidates.find? readsBack

/-- The digits of a positive finite value and the place of its point, counted
from the first digit. -/
def shortestDigits (value : Binary64) : List Char × Int :=
  let (numerator, denominator) := Binary64.scaleFraction value.significand 1 value.exponent
  let places := placesBeforePoint numerator denominator
  let found := (List.range 17).findSome? fun count =>
    let unit := places - (count + 1 : Nat)
    (multipleReadingBack value unit).map fun multiple => (Nat.toDigits 10 multiple, unit)
  match found with
  | none => (['0'], 1)
  | some (digits, unit) =>
      ((digits.reverse.dropWhile (· = '0')).reverse, digits.length + unit)

/-- Digits with a point among them, and at least one digit on either side. -/
def positional (digits : List Char) (point : Int) : List Char :=
  match point with
  | .negSucc zeros => '0' :: '.' :: (List.replicate (zeros + 1) '0' ++ digits)
  | .ofNat 0 => '0' :: '.' :: digits
  | .ofNat places =>
      let whole := digits.take places ++ List.replicate (places - digits.length) '0'
      let fraction := digits.drop places
      whole ++ '.' :: (if fraction = [] then ['0'] else fraction)

/-- Digits with the point behind the first one, and a power of ten. -/
def scientific (digits : List Char) (point : Int) : List Char :=
  let fraction := digits.drop 1
  digits.take 1 ++ (if fraction = [] then [] else '.' :: fraction) ++
    'e' :: (toString (point - 1)).toList

/-- A value with as few digits as tell it from all others, written with a power
of ten from 10 ^ 16 on and below a ten-thousandth. -/
def shortest (value : Binary64) : String :=
  if value.isNaN then "NaN"
  else
    let sign := if value.isNegative then "-" else ""
    if value.isInfinite then sign ++ "inf"
    else if value.magnitude = 0 then sign ++ "0.0"
    else
      let (digits, point) := shortestDigits value
      let text := if -3 ≤ point ∧ point ≤ 16 then positional digits point
        else scientific digits point
      sign ++ String.ofList text

end Decimal

end Rollup

/-
Decimal text of floating-point values.

Reading takes an optional sign, digits with at most one point among or around
them, and an optional exponent; the value is the nearest one.  Printing gives
exactly two places, a half of the last place going to the even digit.
-/

import Rollup.Binary64.Rounding

namespace Rollup

namespace Decimal

/-! ### Reading -/

def digitValue (char : Char) : Nat := char.toNat - '0'.toNat

def natOfDigits (digits : List Char) : Nat :=
  digits.foldl (fun total digit => 10 * total + digitValue digit) 0

/-- Takes an optional sign off a text; true stands for a minus. -/
def splitSign : List Char → Bool × List Char
  | '-' :: rest => (true, rest)
  | '+' :: rest => (false, rest)
  | text => (false, text)

/-- The power of ten written after the digits; no exponent counts as zero. -/
def readExponent : List Char → Option Int
  | [] => some 0
  | mark :: rest =>
      if mark = 'e' ∨ mark = 'E' then
        let (negative, digits) := splitSign rest
        if digits ≠ [] ∧ digits.all Char.isDigit then
          let magnitude : Int := natOfDigits digits
          some (if negative then -magnitude else magnitude)
        else none
      else none

def read (text : List Char) : Option Binary64 :=
  let (negative, unsigned) := splitSign text
  let whole := unsigned.takeWhile Char.isDigit
  let afterWhole := unsigned.dropWhile Char.isDigit
  let (fraction, afterFraction) :=
    match afterWhole with
    | '.' :: rest => (rest.takeWhile Char.isDigit, rest.dropWhile Char.isDigit)
    | _ => ([], afterWhole)
  if whole = [] ∧ fraction = [] then none
  else
    match readExponent afterFraction with
    | none => none
    | some exponent =>
        some (Binary64.ofDecimal negative (natOfDigits (whole ++ fraction))
          (exponent - fraction.length))

/-! ### Printing -/

/-- The nearest number of hundredths of a finite value, sign aside. -/
def hundredths (value : Binary64) : Nat :=
  let (scaled, unit) :=
    Binary64.scaleFraction (100 * value.significand) 1 value.exponent
  roundHalfEven scaled unit

/-- A value with exactly two places. -/
def twoPlaces (value : Binary64) : String :=
  if value.isNaN then "NaN"
  else
    let sign := if value.isNegative then "-" else ""
    if value.isInfinite then sign ++ "inf"
    else
      let parts := hundredths value
      let last := parts % 100
      let padding := if last < 10 then "0" else ""
      sign ++ toString (parts / 100) ++ "." ++ padding ++ toString last

end Decimal

end Rollup

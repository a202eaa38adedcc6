/-
The floating-point value nearest to an exact number.

A positive fraction is measured on the grid of values with its exponent,
rounded to the nearest grid point, and a half goes to the even neighbour.  The
pattern of grid point `m` at exponent `e` is `(e + 1074) * 2 ^ 52 + m`, which
also carries a round-up into the next exponent.
-/

import Rollup.Binary64

namespace Rollup

/-- The whole number nearest to a fraction; a half goes to the even one. -/
def roundHalfEven (numerator denominator : Nat) : Nat :=
  let quotient := numerator / denominator
  let twice := 2 * (numerator % denominator)
  if twice < denominator then quotient
  else if denominator < twice then quotient + 1
  else quotient + quotient % 2

namespace Binary64

/-- A fraction times a power of two, again as numerator and denominator. -/
def scaleFraction (numerator denominator : Nat) (power : Int) : Nat × Nat :=
  match power with
  | .ofNat shift => (numerator * Nat.pow 2 shift, denominator)
  | .negSucc shift => (numerator, denominator * Nat.pow 2 (shift + 1))

/-- The exponent of the grid on which a positive fraction is rounded. -/
def gridExponent (numerator denominator : Nat) : Int :=
  let estimate := (numerator.log2 : Int) - denominator.log2 - 53
  let lowest := if estimate < -1074 then -1074 else estimate
  let (scaled, unit) := scaleFraction numerator denominator (-lowest)
  if scaled / unit < 0x20000000000000 then lowest else lowest + 1

/-- The magnitude nearest to a positive fraction, infinite from half a step
above the largest finite value on. -/
def nearestMagnitude (numerator denominator : Nat) : Nat :=
  let exponent := gridExponent numerator denominator
  let (scaled, unit) := scaleFraction numerator denominator (-exponent)
  let magnitude := (exponent + 1074).toNat * 0x10000000000000 + roundHalfEven scaled unit
  if infiniteMagnitude < magnitude then infiniteMagnitude else magnitude

def ofFraction (negative : Bool) (numerator denominator : Nat) : Binary64 :=
  let magnitude := if numerator = 0 then 0 else nearestMagnitude numerator denominator
  let positive : Binary64 := ⟨UInt64.ofNat magnitude⟩
  if negative then positive.negate else positive

def ofInt (value : Int) : Binary64 :=
  ofFraction (value < 0) value.natAbs 1

/-- The value nearest to `digits * 10 ^ exponent`.  A number of more than 310
places is beyond every finite value, and one that starts after 330 zeros is
nearest to zero, so neither power has to be computed. -/
def ofDecimal (negative : Bool) (digits : Nat) (exponent : Int) : Binary64 :=
  let places := (Nat.toDigits 10 digits).length + exponent
  if digits = 0 ∨ places < -330 then ofFraction negative 0 1
  else if 310 < places then
    if negative then infinity.negate else infinity
  else
    match exponent with
    | .ofNat power => ofFraction negative (digits * Nat.pow 10 power) 1
    | .negSucc power => ofFraction negative digits (Nat.pow 10 (power + 1))

end Binary64

end Rollup

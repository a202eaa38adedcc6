/-
Values shown with two places.

A finite value stands for a rational number.  Its text gives the whole number of
hundredths that is nearest to it, a half going to the even one, behind its sign.
-/

import Mathlib.Algebra.Order.Field.Basic
import Mathlib.Algebra.Order.Field.Rat
import Mathlib.Algebra.Ring.Parity
import Mathlib.Tactic.FieldSimp
import Mathlib.Tactic.Linarith
import Mathlib.Tactic.Positivity
import Mathlib.Tactic.Ring
import Rollup.Decimal

namespace Rollup

/-! ### Rounding -/

/-- No whole number is nearer, and of two that are as near this is the even one. -/
structure IsNearest (number : ℚ) (whole : Nat) : Prop where
  close : |number - whole| ≤ 1 / 2
  even : |number - whole| = 1 / 2 → Even whole

namespace IsNearest

variable {number : ℚ} {whole : Nat}

end IsNearest

section Rounding

variable {denominator : Nat} (positive : 0 < denominator)

include positive

end Rounding

namespace Binary64

/-- The number that a finite value stands for, sign aside. -/
def size (value : Binary64) : ℚ := value.significand * (2 : ℚ) ^ value.exponent

end Binary64

namespace Decimal

def signText (value : Binary64) : String := if value.isNegative then "-" else ""

/-- The text is the value rounded to two places. -/
inductive ShownAs (value : Binary64) : String → Prop
  | notNumber (isNaN : value.isNaN = true) : ShownAs value "NaN"
  | infinite (isInfinite : value.isInfinite = true) : ShownAs value (signText value ++ "inf")
  | finite {whole tenths hundredths : Nat} (number : value.isNaN = false)
      (bounded : value.isInfinite = false) (oneDigit : tenths < 10 ∧ hundredths < 10)
      (nearest : IsNearest (100 * value.size) (100 * whole + 10 * tenths + hundredths)) :
      ShownAs value (signText value ++ s!"{whole}.{tenths}{hundredths}")

end Decimal

end Rollup

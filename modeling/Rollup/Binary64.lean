/-
Binary floating-point numbers of 64 bits, held as their bit pattern.

Only what a statistic needs is defined: which patterns are not a number, the
order of the numbers, and the larger and the smaller of two values when a
value that is not a number yields to one that is.  Everything is integer
arithmetic on the pattern, so each operation is an exact, total function.
-/

namespace Rollup

/-- A 64-bit floating-point value, as its bits. -/
structure Binary64 where
  bits : UInt64
  deriving DecidableEq

namespace Binary64

def zero : Binary64 := ⟨0⟩

def one : Binary64 := ⟨0x3ff0000000000000⟩

def infinity : Binary64 := ⟨0x7ff0000000000000⟩

def nan : Binary64 := ⟨0x7ff8000000000000⟩

instance : Inhabited Binary64 := ⟨zero⟩

/-! ### Parts of the pattern -/

def isNegative (value : Binary64) : Bool := 0x8000000000000000 ≤ value.bits.toNat

/-- The pattern without its sign; it grows with the size of the number. -/
def magnitude (value : Binary64) : Nat := value.bits.toNat % 0x8000000000000000

def infiniteMagnitude : Nat := 0x7ff0000000000000

def isNaN (value : Binary64) : Bool := infiniteMagnitude < value.magnitude

def isInfinite (value : Binary64) : Bool := value.magnitude = infiniteMagnitude

def negate (value : Binary64) : Binary64 := ⟨value.bits ^^^ 0x8000000000000000⟩

/-- The value as `significand * 2 ^ exponent`, sign aside.  It is meant for
finite values. -/
def significand (value : Binary64) : Nat :=
  if value.magnitude < 0x10000000000000 then value.magnitude
  else value.magnitude % 0x10000000000000 + 0x10000000000000

def exponent (value : Binary64) : Int :=
  if value.magnitude < 0x10000000000000 then -1074
  else (value.magnitude / 0x10000000000000 : Nat) - 1075

/-! ### Order -/

/-- An integer that orders numbers by value, the negative zero just below the
positive one. -/
def rank (value : Binary64) : Int :=
  if value.isNegative then -(value.magnitude : Int) - 1 else value.magnitude

/-- The number line as integers, with both zeros at the same place. -/
def position (value : Binary64) : Int :=
  if value.isNegative then -(value.magnitude : Int) else value.magnitude

/-- Strictly greater as numbers; nothing is greater than a NaN or below one. -/
def exceeds (left right : Binary64) : Bool :=
  !left.isNaN && !right.isNaN && right.position < left.position

/-- Equal as numbers, where every NaN counts as the same. -/
def sameNumber (left right : Binary64) : Bool :=
  if left.isNaN || right.isNaN then left.isNaN && right.isNaN
  else left.position = right.position

/-- The rank when the larger value is wanted: a NaN is below every number. -/
def rankForMax (value : Binary64) : Int :=
  if value.isNaN then (value.bits.toNat : Int) - 0x20000000000000000 else value.rank

/-- The rank when the smaller value is wanted: a NaN is above every number. -/
def rankForMin (value : Binary64) : Int :=
  if value.isNaN then (value.bits.toNat : Int) + 0x20000000000000000 else value.rank

/-- The larger value; a NaN yields to a number. -/
def max (left right : Binary64) : Binary64 :=
  if left.rankForMax < right.rankForMax then right else left

/-- The smaller value; a NaN yields to a number. -/
def min (left right : Binary64) : Binary64 :=
  if right.rankForMin < left.rankForMin then right else left

end Binary64

end Rollup

/-
Bits inside byte arrays.

Bit `index` of an array is bit `index % 8` of byte `index / 8`, the lowest
bits of a byte first.  Table descriptions are read upwards from the start;
coded data is read downwards from a marker bit at the end.
-/

namespace Rollup.Zstd

/-- One bit of an array; bits outside of it are zero. -/
def bitAt (bytes : Array UInt8) (index : Nat) : Nat :=
  match bytes[index / 8]? with
  | none => 0
  | some byte => byte.toNat / Nat.pow 2 (index % 8) % 2

/-- The number whose lowest bit stands at `index`. -/
def bitsFrom (bytes : Array UInt8) (index : Nat) : Nat → Nat
  | 0 => 0
  | count + 1 => bitAt bytes index + 2 * bitsFrom bytes (index + 1) count

/-- Bits that are taken from the top downwards.  `unread` is how many are left;
it turns negative when more are taken than there were, and the bits taken too
many are zeros. -/
structure BitStack where
  bytes : Array UInt8
  unread : Int

namespace BitStack

/-- The bits below the marker, the highest set bit of the last byte. -/
def ofBytes (bytes : Array UInt8) : Option BitStack :=
  match bytes.back? with
  | none => none
  | some last =>
      if last = 0 then none
      else some { bytes := bytes, unread := 8 * (bytes.size - 1) + last.toNat.log2 }

def peek (stack : BitStack) (count : Nat) : Nat :=
  let low := stack.unread - count
  if 0 ≤ low then bitsFrom stack.bytes low.toNat count
  else
    let missing := (-low).toNat
    if count ≤ missing then 0
    else bitsFrom stack.bytes 0 (count - missing) * Nat.pow 2 missing

def drop (stack : BitStack) (count : Nat) : BitStack :=
  { stack with unread := stack.unread - count }

def take (stack : BitStack) (count : Nat) : Nat × BitStack :=
  (stack.peek count, stack.drop count)

def isSpent (stack : BitStack) : Bool := stack.unread = 0

def isOverdrawn (stack : BitStack) : Bool := stack.unread < 0

end BitStack

end Rollup.Zstd

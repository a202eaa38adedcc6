/-
The byte format of stored values.

Every value is written so that a reader knows where it ends: numbers of more
than one byte carry a marker with their width, texts and lists start with
their length, and an optional value starts with a presence byte.  A reader
takes its value off the front of a byte list and answers what is left.
-/

import Rollup.Binary64

namespace Rollup

abbrev Bytes := List UInt8

namespace Wire

/-- Takes a value off the front of the bytes, or refuses them. -/
abbrev Reader (α : Type) := Bytes → Option (α × Bytes)

namespace Reader

def pure {α : Type} (value : α) : Reader α := fun bytes => some (value, bytes)

def bind {α β : Type} (reader : Reader α) (next : α → Reader β) : Reader β := fun bytes =>
  match reader bytes with
  | none => none
  | some (value, rest) => next value rest

instance : Monad Reader where
  pure := pure
  bind := bind

def refuse {α : Type} : Reader α := fun _ => none

end Reader

def readByte : Reader UInt8
  | [] => none
  | byte :: rest => some (byte, rest)

/-- Takes exactly so many bytes. -/
def readBytes (count : Nat) : Reader Bytes := fun bytes =>
  if count ≤ bytes.length then some (bytes.splitAt count) else none

/-! ### Numbers -/

/-- The lowest bytes of a number, the lowest first. -/
def littleEndian : Nat → Nat → Bytes
  | 0, _ => []
  | count + 1, number => UInt8.ofNat number :: littleEndian count (number / 256)

def readLittleEndian : Nat → Reader Nat
  | 0 => Reader.pure 0
  | count + 1 => do
      let low ← readByte
      let high ← readLittleEndian count
      return low.toNat + 256 * high

/-- Writes a number in one byte below 251, and else in two, four or eight
bytes after a marker for the width. -/
def number (value : Nat) : Bytes :=
  if value < 251 then [UInt8.ofNat value]
  else if value < 0x10000 then 251 :: littleEndian 2 value
  else if value < 0x100000000 then 252 :: littleEndian 4 value
  else 253 :: littleEndian 8 value

/-- Reads a number of at most `width` bytes.  A longer form than needed is
accepted, a form wider than the number's type is not. -/
def readNumber (width : Nat) : Reader Nat := do
  let marker ← readByte
  if marker < 251 then return marker.toNat
  else if marker = 251 ∧ 2 ≤ width then readLittleEndian 2
  else if marker = 252 ∧ 4 ≤ width then readLittleEndian 4
  else if marker = 253 ∧ 8 ≤ width then readLittleEndian 8
  else Reader.refuse

def word (value : UInt64) : Bytes := number value.toNat

def readWord : Reader UInt64 := do
  let value ← readNumber 8
  return UInt64.ofNat value

def halfWord (value : UInt32) : Bytes := number value.toNat

def readHalfWord : Reader UInt32 := do
  let value ← readNumber 4
  return UInt32.ofNat value

/-- A floating-point value is its eight bytes, without a marker. -/
def binary64 (value : Binary64) : Bytes := littleEndian 8 value.bits.toNat

def readBinary64 : Reader Binary64 := do
  let bits ← readLittleEndian 8
  return { bits := UInt64.ofNat bits }

/-! ### Composite values -/

def text (value : String) : Bytes :=
  let bytes := value.toUTF8.data.toList
  number bytes.length ++ bytes

/-- Reads a text; its bytes must be valid UTF-8. -/
def readText : Reader String := do
  let length ← readNumber 8
  let bytes ← readBytes length
  match String.fromUTF8? (ByteArray.mk bytes.toArray) with
  | none => Reader.refuse
  | some value => return value

def optional {α : Type} (write : α → Bytes) : Option α → Bytes
  | none => [0]
  | some value => 1 :: write value

def readOptional {α : Type} (read : Reader α) : Reader (Option α) := do
  let present ← readByte
  if present = 0 then return none
  else if present = 1 then
    let value ← read
    return some value
  else Reader.refuse

def list {α : Type} (write : α → Bytes) (values : List α) : Bytes :=
  number values.length ++ values.flatMap write

def readTimes {α : Type} (read : Reader α) : Nat → Reader (List α)
  | 0 => Reader.pure []
  | count + 1 => do
      let value ← read
      let others ← readTimes read count
      return value :: others

def readList {α : Type} (read : Reader α) : Reader (List α) := do
  let count ← readNumber 8
  readTimes read count

end Wire

end Rollup

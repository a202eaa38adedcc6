/-
Compressed blocks.

A block holds literals and sequences.  Carrying out the sequences appends to
the content: literals as they are, then bytes repeated from what the content
already holds.
-/

import Rollup.Zstd.Huffman
import Rollup.Zstd.Sequence

namespace Rollup.Zstd

structure BlockContext where
  huffman : Option HuffmanTable
  tables : SequenceTables
  recent : RecentOffsets

namespace BlockContext

def initial : BlockContext :=
  { huffman := none, tables := SequenceTables.none, recent := RecentOffsets.initial }

end BlockContext

/-! ### Literals -/

def littleEndianValue : List UInt8 → Nat
  | [] => 0
  | byte :: rest => byte.toNat + 256 * littleEndianValue rest

/-- Raw or repeated literals: the size is stored in one to three bytes. -/
def readPlainSize (form : Nat) (bytes : List UInt8) : Option (Nat × List UInt8) :=
  let (width, shift) :=
    if form % 2 = 0 then (1, 3) else if form = 1 then (2, 4) else (3, 4)
  if bytes.length < width then none
  else some (littleEndianValue (bytes.take width) / Nat.pow 2 shift, bytes.drop width)

def decodeCoded (table : HuffmanTable) (hasFourStreams : Bool) (bytes : List UInt8)
    (size : Nat) : Option (Array UInt8) :=
  if hasFourStreams then
    if size < 6 then none
    else
      match HuffmanTable.fourStreams bytes size with
      | none => none
      | some streams => table.decodeStreams (table.isSideBySide streams) bytes streams #[]
  else if size = 0 then none
  else table.decodeStream true bytes size #[]

/-- Huffman coded literals, with a table of their own or the one used before. -/
def readCodedLiterals (ownTable : Bool) (form maxSize : Nat) (context : BlockContext)
    (bytes : List UInt8) : Option (Array UInt8 × BlockContext × List UInt8) := do
  let (width, bits) := if form ≤ 1 then (3, 10) else if form = 2 then (4, 14) else (5, 18)
  if bytes.length < width then none
  else
    let header := littleEndianValue (bytes.take width) / 16
    let size := header % Nat.pow 2 bits
    let codedSize := header / Nat.pow 2 bits
    let rest := bytes.drop width
    if maxSize < size ∨ rest.length < codedSize then none
    else
      let coded := rest.take codedSize
      let (table, streams) ←
        if ownTable then HuffmanTable.read coded else context.huffman.map (·, coded)
      let literals ← decodeCoded table (form ≠ 0) streams size
      return (literals, { context with huffman := some table }, rest.drop codedSize)

def readLiterals (maxSize : Nat) (context : BlockContext) (bytes : List UInt8) :
    Option (Array UInt8 × BlockContext × List UInt8) :=
  match bytes with
  | [] => none
  | header :: _ =>
      let form := header.toNat / 4 % 4
      match header.toNat % 4 with
      | 0 =>
          match readPlainSize form bytes with
          | none => none
          | some (size, rest) =>
              if maxSize < size ∨ rest.length < size then none
              else some ((rest.take size).toArray, context, rest.drop size)
      | 1 =>
          match readPlainSize form bytes with
          | some (size, byte :: rest) =>
              if maxSize < size then none else some (Array.replicate size byte, context, rest)
          | _ => none
      | 2 => readCodedLiterals true form maxSize context bytes
      | _ => readCodedLiterals false form maxSize context bytes

/-! ### Carrying out sequences -/

/-- Appends bytes repeated from `offset` before the end, one at a time, so that
a copy may run into what it has just written. -/
def copyBack (offset : Nat) : Nat → Array UInt8 → Array UInt8
  | 0, content => content
  | count + 1, content =>
      copyBack offset count (content.push ((content[content.size - offset]?).getD 0))

/-- Carries out the sequences, then appends the literals that are left. -/
def carryOut (literals : Array UInt8) :
    List Sequence → Nat → RecentOffsets → Array UInt8 → Option (Array UInt8 × RecentOffsets)
  | [], used, recent, content =>
      some (content ++ literals.extract used literals.size, recent)
  | sequence :: rest, used, recent, content =>
      let last := used + sequence.literals
      if literals.size < last then none
      else
        let extended := content ++ literals.extract used last
        let (offset, next) := recent.resolve sequence
        if offset = 0 ∨ extended.size < offset then none
        else carryOut literals rest last next (copyBack offset sequence.matchLength extended)

/-- Decodes a compressed block and appends to the content what it stands for.
No more than `maxSize` literals are accepted. -/
def decodeBlock (maxSize : Nat) (context : BlockContext) (bytes : List UInt8)
    (content : Array UInt8) : Option (Array UInt8 × BlockContext) := do
  let (literals, afterLiterals, rest) ← readLiterals maxSize context bytes
  let (sequences, tables) ← readSequences afterLiterals.tables rest
  let (extended, recent) ← carryOut literals sequences 0 afterLiterals.recent content
  return (extended, { afterLiterals with tables := tables, recent := recent })

end Rollup.Zstd

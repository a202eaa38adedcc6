/-
Huffman coded literals.

A code is given by weights: a symbol of weight `w > 0` holds `2 ^ (w - 1)` of
the entries of a table whose size is a power of two.  The last weight is not
stored, it fills the table up.
-/

import Rollup.Zstd.Fse

namespace Rollup.Zstd

/-- A decoding table: the next `depth` bits select an entry, which names the
symbol and how many of the bits belong to it. -/
structure HuffmanTable where
  depth : Nat
  entries : Array (Nat × Nat)

namespace HuffmanTable

def maxDepth : Nat := 12

def share (weight : Nat) : Nat := if weight = 0 then 0 else Nat.pow 2 (weight - 1)

def entriesOfWeight (depth weight : Nat) (weights : List Nat) : List (Nat × Nat) :=
  weights.zipIdx.flatMap fun entry =>
    if entry.1 = weight then
      List.replicate (share weight) (entry.2, depth + 1 - weight)
    else []

/-- Builds the table of the stored weights; the weight of the last symbol is
what is missing to the next power of two. -/
def ofWeights (stored : List Nat) : Option HuffmanTable :=
  let total := (stored.map share).foldl (· + ·) 0
  if total = 0 ∨ stored.any (maxDepth < ·) then none
  else
    let depth := total.log2 + 1
    let missing := Nat.pow 2 depth - total
    if maxDepth < depth ∨ missing ≠ Nat.pow 2 missing.log2 then none
    else
      let weights := stored ++ [missing.log2 + 1]
      let longest := weights.count 1
      if longest < 2 ∨ longest % 2 = 1 then none
      else
        some
          { depth := depth
            entries :=
              ((List.range depth).flatMap fun below =>
                entriesOfWeight depth (below + 1) weights).toArray }

/-! ### Reading the weights -/

/-- The weights in nibbles, the high one of each byte first. -/
def directWeights (count : Nat) (bytes : List UInt8) : List Nat :=
  (bytes.flatMap fun byte => [byte.toNat / 16, byte.toNat % 16]).take count

/-- Weights from two entropy coded states that take turns.  They end when a
state asks for more bits than there are; the other state's symbol is the last. -/
def turns (table : FseTable) : Nat → Nat → Nat → BitStack → Option (List Nat)
  | 0, _, _, _ => none
  | fuel + 1, current, other, stack =>
      match table.state? current, table.state? other with
      | some state, some otherState =>
          let (bits, rest) := stack.take state.bits
          if rest.isOverdrawn then some [state.symbol, otherState.symbol]
          else (turns table fuel other (state.base + bits) rest).map (state.symbol :: ·)
      | _, _ => none

def codedWeights (bytes : Array UInt8) : Option (List Nat) :=
  match readDistribution 6 255 bytes with
  | none => none
  | some (accuracy, distribution, used) =>
      match BitStack.ofBytes (bytes.extract used bytes.size) with
      | none => none
      | some stack =>
          let table := FseTable.ofDistribution accuracy distribution
          let (first, afterFirst) := stack.take accuracy
          let (second, afterSecond) := afterFirst.take accuracy
          if afterSecond.isOverdrawn then none
          else turns table 256 first second afterSecond

def read : List UInt8 → Option (HuffmanTable × List UInt8)
  | [] => none
  | header :: rest =>
      if 128 ≤ header then
        let count := header.toNat - 127
        let size := (count + 1) / 2
        if rest.length < size then none
        else (ofWeights (directWeights count (rest.take size))).map (·, rest.drop size)
      else
        let size := header.toNat
        if size = 0 ∨ rest.length < size then none
        else
          match codedWeights (rest.take size).toArray with
          | none => none
          | some weights =>
              if 255 < weights.length then none
              else (ofWeights weights).map (·, rest.drop size)

/-! ### Decoding -/

/-- Decodes so many symbols.  In exact decoding the bits must be used up. -/
def decodeSymbols (table : HuffmanTable) (exact : Bool) :
    Nat → BitStack → Array UInt8 → Option (Array UInt8)
  | 0, stack, output => if exact && !stack.isSpent then none else some output
  | count + 1, stack, output =>
      match table.entries[stack.peek table.depth]? with
      | none => none
      | some (symbol, bits) =>
          let rest := stack.drop bits
          if rest.isOverdrawn then none
          else decodeSymbols table exact count rest (output.push (UInt8.ofNat symbol))

def decodeStream (table : HuffmanTable) (exact : Bool) (bytes : List UInt8) (count : Nat)
    (output : Array UInt8) : Option (Array UInt8) :=
  match BitStack.ofBytes bytes.toArray with
  | none => none
  | some stack => decodeSymbols table exact count stack output

structure Stream where
  start : Nat
  stop : Nat
  count : Nat

def fourStreams (bytes : List UInt8) (total : Nat) : Option (List Stream) :=
  match bytes with
  | a0 :: a1 :: b0 :: b1 :: c0 :: c1 :: _ =>
      let second := 6 + a0.toNat + 256 * a1.toNat
      let third := second + b0.toNat + 256 * b1.toNat
      let fourth := third + c0.toNat + 256 * c1.toNat
      let quarter := (total + 3) / 4
      if bytes.length < fourth ∨ total < 3 * quarter then none
      else
        some
          [{ start := 6, stop := second, count := quarter },
            { start := second, stop := third, count := quarter },
            { start := third, stop := fourth, count := quarter },
            { start := fourth, stop := bytes.length, count := total - 3 * quarter }]
  | _ => none

/-- Long streams of a table that is not too deep are decoded side by side. -/
def isSideBySide (table : HuffmanTable) (streams : List Stream) : Bool :=
  table.depth ≤ 11 &&
    streams.all fun stream => decide (stream.start + 8 ≤ stream.stop) && stream.count != 0

/-- Decodes streams one after the other.  Side by side, bits left over are not
noticed, and a stream that runs out goes on with the bytes before it. -/
def decodeStreams (table : HuffmanTable) (sideBySide : Bool) (bytes : List UInt8) :
    List Stream → Array UInt8 → Option (Array UInt8)
  | [], output => some output
  | stream :: rest, output =>
      let upToStop := bytes.take stream.stop
      let slice := if sideBySide then upToStop else upToStop.drop stream.start
      match decodeStream table (!sideBySide) slice stream.count output with
      | none => none
      | some extended => decodeStreams table sideBySide bytes rest extended

end HuffmanTable

end Rollup.Zstd

/-
Finite state entropy tables.

A distribution gives each symbol its share of the states, or -1 for a share
below one state.  Spreading the shares over the states yields a table that
says, for every state, which symbol it stands for and how the next state is
formed from the bits that follow.
-/

import Rollup.Zstd.Bits

namespace Rollup.Zstd

structure FseState where
  symbol : Nat
  bits : Nat
  base : Nat
  deriving Inhabited

structure FseTable where
  accuracy : Nat
  states : Array FseState

/-- The shares of the symbols, from symbol zero on. -/
abbrev Distribution := List Int

namespace FseTable

def single (symbol : Nat) : FseTable :=
  { accuracy := 0, states := #[{ symbol := symbol, bits := 0, base := 0 }] }

/-- The symbols whose share is below one state, each with its number. -/
def rareSymbols (distribution : Distribution) : List Nat :=
  (distribution.zipIdx.filter fun entry => entry.1 = -1).map Prod.snd

def commonSymbols (distribution : Distribution) : List Nat :=
  distribution.zipIdx.flatMap fun entry => List.replicate entry.1.toNat entry.2

/-- The places of the common symbols: steps of a fixed width around the table,
leaving out the places that the rare symbols hold at its end. -/
def spreadPlaces (size limit : Nat) : Nat → Nat → List Nat
  | 0, _ => []
  | count + 1, place =>
      let next := (place + (size / 2 + size / 8 + 3)) % size
      if place < limit then place :: spreadPlaces size limit count next
      else spreadPlaces size limit count next

def spread (accuracy : Nat) (distribution : Distribution) : Array Nat :=
  let size := Nat.pow 2 accuracy
  let rare := rareSymbols distribution
  let limit := size - rare.length
  let places := spreadPlaces size limit size 0
  let common := (commonSymbols distribution).zip places
  let placed := common.foldl (fun table entry => table.setIfInBounds entry.2 entry.1)
    (Array.replicate size 0)
  rare.zipIdx.foldl (fun table entry => table.setIfInBounds (size - 1 - entry.2) entry.1) placed

/-- Turns the symbols of the states into a table.  The states of a symbol with
share `n` are numbered from `n` on in the order of their places. -/
def number (accuracy : Nat) (distribution : Distribution) (symbols : Array Nat) : FseTable :=
  let firsts : Array Nat :=
    (distribution.map fun share => if share = -1 then 1 else share.toNat).toArray
  let step := fun (states : Array FseState × Array Nat) (symbol : Nat) =>
    let counter := (states.2[symbol]?).getD 0
    let bits := accuracy - counter.log2
    (states.1.push
        { symbol := symbol
          bits := bits
          base := counter * Nat.pow 2 bits - Nat.pow 2 accuracy },
      states.2.setIfInBounds symbol (counter + 1))
  { accuracy := accuracy, states := (symbols.foldl step (#[], firsts)).1 }

def ofDistribution (accuracy : Nat) (distribution : Distribution) : FseTable :=
  number accuracy distribution (spread accuracy distribution)

def state? (table : FseTable) (state : Nat) : Option FseState := table.states[state]?

end FseTable

/-! ### Reading a distribution -/

/-- Where the reader of a distribution stands: the bit it reads next, how many
states are still to be shared out plus one, and the shares so far, the last
one first. -/
structure DistributionReader where
  bit : Nat
  remaining : Nat
  shares : List Int

namespace DistributionReader

/-- Reads runs of two bits that count further symbols without a share. -/
def readZeros (bytes : Array UInt8) : Nat → DistributionReader → DistributionReader
  | 0, reader => reader
  | fuel + 1, reader =>
      let run := bitsFrom bytes reader.bit 2
      let extended :=
        { reader with
          bit := reader.bit + 2
          shares := List.replicate run 0 ++ reader.shares }
      if run = 3 then readZeros bytes fuel extended else extended

/-- Reads one share.  Its width depends on how many states remain: small
values take one bit less. -/
def readShare (bytes : Array UInt8) (reader : DistributionReader) : DistributionReader × Int :=
  let width := reader.remaining.log2 + 1
  let threshold := Nat.pow 2 (width - 1)
  let spare := 2 * threshold - 1 - reader.remaining
  let short := bitsFrom bytes reader.bit (width - 1)
  let (value, used) :=
    if short < spare then (short, width - 1)
    else
      let long := bitsFrom bytes reader.bit width
      (if threshold ≤ long then long - spare else long, width)
  let share := (value : Int) - 1
  ({ bit := reader.bit + used
     remaining := reader.remaining - share.natAbs
     shares := share :: reader.shares }, share)

def readShares (bytes : Array UInt8) (maxSymbol : Nat) :
    Nat → DistributionReader → DistributionReader
  | 0, reader => reader
  | fuel + 1, reader =>
      if reader.remaining ≤ 1 ∨ maxSymbol < reader.shares.length then reader
      else
        let (next, share) := readShare bytes reader
        if share = 0 then
          readShares bytes maxSymbol fuel (readZeros bytes (8 * bytes.size) next)
        else readShares bytes maxSymbol fuel next

end DistributionReader

/-- Reads a distribution off the front of some bytes: its accuracy, the shares
and how many bytes they took. -/
def readDistribution (maxAccuracy maxSymbol : Nat) (bytes : Array UInt8) :
    Option (Nat × Distribution × Nat) :=
  let accuracy := bitsFrom bytes 0 4 + 5
  if maxAccuracy < accuracy then none
  else
    let reader := DistributionReader.readShares bytes maxSymbol (8 * bytes.size + 8)
      { bit := 4, remaining := Nat.pow 2 accuracy + 1, shares := [] }
    let used := (reader.bit + 7) / 8
    if reader.remaining = 1 ∧ reader.shares.length ≤ maxSymbol + 1 ∧ used ≤ bytes.size then
      some (accuracy, reader.shares.reverse, used)
    else none

end Rollup.Zstd

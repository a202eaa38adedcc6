/-
Sequences: copy so many literals, then repeat so many bytes from so far back.

Lengths and offsets are coded as a code plus extra bits.  The three codes are
entropy coded with tables that are predefined, described in the block, of a
single symbol, or those of the block before.
-/

import Rollup.Zstd.Fse

namespace Rollup.Zstd

/-- One sequence; the offset is still the coded value, which may name one of
the recent offsets. -/
structure Sequence where
  literals : Nat
  matchLength : Nat
  offsetValue : Nat

/-! ### Codes -/

/-- The least value and the number of extra bits of each literal length code. -/
def literalLengthCodes : Array (Nat × Nat) :=
  ((List.range 16).map fun code => (code, 0)).toArray ++
    #[(16, 1), (18, 1), (20, 1), (22, 1), (24, 2), (28, 2), (32, 3), (40, 3), (48, 4), (64, 6),
      (128, 7), (256, 8), (512, 9), (1024, 10), (2048, 11), (4096, 12), (8192, 13), (16384, 14),
      (32768, 15), (65536, 16)]

/-- The least value and the number of extra bits of each match length code. -/
def matchLengthCodes : Array (Nat × Nat) :=
  ((List.range 32).map fun code => (code + 3, 0)).toArray ++
    #[(35, 1), (37, 1), (39, 1), (41, 1), (43, 2), (47, 2), (51, 3), (59, 3), (67, 4), (83, 4),
      (99, 5), (131, 7), (259, 8), (515, 9), (1027, 10), (2051, 11), (4099, 12), (8195, 13),
      (16387, 14), (32771, 15), (65539, 16)]

def literalLengthDistribution : Distribution :=
  [4, 3, 2, 2, 2, 2, 2, 2, 2, 2, 2, 2, 2, 1, 1, 1, 2, 2, 2, 2, 2, 2, 2, 2, 2, 3, 2, 1, 1, 1, 1, 1,
    -1, -1, -1, -1]

def matchLengthDistribution : Distribution :=
  [1, 4, 3, 2, 2, 2, 2, 2, 2] ++ List.replicate 37 1 ++ List.replicate 7 (-1)

def offsetDistribution : Distribution :=
  [1, 1, 1, 1, 1, 1, 2, 2, 2, 1, 1, 1, 1, 1, 1, 1, 1, 1, 1, 1, 1, 1, 1, 1, -1, -1, -1, -1, -1]

structure CodeKind where
  maxSymbol : Nat
  maxAccuracy : Nat
  predefined : FseTable

def literalLengthKind : CodeKind :=
  { maxSymbol := 35
    maxAccuracy := 9
    predefined := FseTable.ofDistribution 6 literalLengthDistribution }

def offsetKind : CodeKind :=
  { maxSymbol := 31
    maxAccuracy := 8
    predefined := FseTable.ofDistribution 5 offsetDistribution }

def matchLengthKind : CodeKind :=
  { maxSymbol := 52
    maxAccuracy := 9
    predefined := FseTable.ofDistribution 6 matchLengthDistribution }

/-! ### Tables -/

structure SequenceTables where
  literalLength : Option FseTable
  offset : Option FseTable
  matchLength : Option FseTable

namespace SequenceTables

def none : SequenceTables :=
  { literalLength := Option.none, offset := Option.none, matchLength := Option.none }

end SequenceTables

/-- Reads the table of one code in the given mode: predefined, one symbol,
described, or repeated. -/
def readCodeTable (kind : CodeKind) (mode : Nat) (previous : Option FseTable)
    (bytes : List UInt8) : Option (FseTable × List UInt8) :=
  match mode, bytes with
  | 0, _ => some (kind.predefined, bytes)
  | 1, symbol :: rest =>
      if symbol.toNat ≤ kind.maxSymbol then some (FseTable.single symbol.toNat, rest) else none
  | 1, [] => none
  | 2, _ =>
      match readDistribution kind.maxAccuracy kind.maxSymbol bytes.toArray with
      | none => none
      | some (accuracy, distribution, used) =>
          some (FseTable.ofDistribution accuracy distribution, bytes.drop used)
  | _, _ => previous.map (·, bytes)

/-! ### Decoding -/

structure SequenceState where
  literalLength : Nat
  offset : Nat
  matchLength : Nat
  stack : BitStack

def decodeSequence (literalLength offset matchLength : FseState) (stack : BitStack) :
    Option (Sequence × BitStack) :=
  match literalLengthCodes[literalLength.symbol]?, matchLengthCodes[matchLength.symbol]? with
  | some (literalBase, literalBits), some (matchBase, matchBits) =>
      let (offsetExtra, afterOffset) := stack.take offset.symbol
      let (matchExtra, afterMatch) := afterOffset.take matchBits
      let (literalExtra, afterLiteral) := afterMatch.take literalBits
      some
        ({ literals := literalBase + literalExtra
           matchLength := matchBase + matchExtra
           offsetValue := Nat.pow 2 offset.symbol + offsetExtra },
          afterLiteral)
  | _, _ => none

/-- Decodes so many sequences.  The states move on between two sequences, not
after the last; at the end every bit must be used. -/
def decodeSequences (literalTable offsetTable matchTable : FseTable) :
    Nat → SequenceState → Option (List Sequence)
  | 0, state => if state.stack.isSpent then some [] else none
  | count + 1, state =>
      match literalTable.state? state.literalLength, offsetTable.state? state.offset,
        matchTable.state? state.matchLength with
      | some literalLength, some offset, some matchLength =>
          match decodeSequence literalLength offset matchLength state.stack with
          | none => none
          | some (sequence, stack) =>
              if stack.isOverdrawn then none
              else if count = 0 then
                if stack.isSpent then some [sequence] else none
              else
                let (literalBits, afterLiteral) := stack.take literalLength.bits
                let (matchBits, afterMatch) := afterLiteral.take matchLength.bits
                let (offsetBits, afterOffset) := afterMatch.take offset.bits
                let next : SequenceState :=
                  { literalLength := literalLength.base + literalBits
                    offset := offset.base + offsetBits
                    matchLength := matchLength.base + matchBits
                    stack := afterOffset }
                (decodeSequences literalTable offsetTable matchTable count next).map
                  (sequence :: ·)
      | _, _, _ => none

/-- How many sequences a block has, with what follows the count. -/
def readSequenceCount : List UInt8 → Option (Nat × List UInt8)
  | [] => none
  | first :: rest =>
      if first < 128 then some (first.toNat, rest)
      else
        match rest with
        | second :: rest' =>
            if first < 255 then some ((first.toNat - 128) * 256 + second.toNat, rest')
            else
              match rest' with
              | third :: rest'' => some (second.toNat + 256 * third.toNat + 0x7f00, rest'')
              | [] => none
        | [] => none

/-- Reads the whole sequence section of a block, which must fill the bytes. -/
def readSequences (previous : SequenceTables) (bytes : List UInt8) :
    Option (List Sequence × SequenceTables) :=
  match readSequenceCount bytes with
  | none => none
  | some (0, rest) => if rest = [] then some ([], previous) else none
  | some (count, modes :: afterModes) => do
      if modes.toNat % 4 ≠ 0 then none
      else
        let (literalTable, afterLiteral) ←
          readCodeTable literalLengthKind (modes.toNat / 64) previous.literalLength afterModes
        let (offsetTable, afterOffset) ←
          readCodeTable offsetKind (modes.toNat / 16 % 4) previous.offset afterLiteral
        let (matchTable, afterMatch) ←
          readCodeTable matchLengthKind (modes.toNat / 4 % 4) previous.matchLength afterOffset
        let stack ← BitStack.ofBytes afterMatch.toArray
        let (literalLength, afterFirst) := stack.take literalTable.accuracy
        let (offset, afterSecond) := afterFirst.take offsetTable.accuracy
        let (matchLength, afterThird) := afterSecond.take matchTable.accuracy
        let sequences ←
          decodeSequences literalTable offsetTable matchTable count
            { literalLength := literalLength
              offset := offset
              matchLength := matchLength
              stack := afterThird }
        return (sequences,
          { literalLength := some literalTable
            offset := some offsetTable
            matchLength := some matchTable })
  | some (_, []) => none

/-! ### Recent offsets -/

structure RecentOffsets where
  first : Nat
  second : Nat
  third : Nat

namespace RecentOffsets

def initial : RecentOffsets := { first := 1, second := 4, third := 8 }

/-- The offset meant by a coded value, and the recent offsets after it.  Values
up to three name recent offsets, shifted by one after no literals. -/
def resolve (recent : RecentOffsets) (sequence : Sequence) : Nat × RecentOffsets :=
  let value := sequence.offsetValue
  if 3 < value then
    (value - 3, { first := value - 3, second := recent.first, third := recent.second })
  else
    let index := if sequence.literals = 0 then value + 1 else value
    if index ≤ 1 then (recent.first, recent)
    else if index = 2 then
      (recent.second, { first := recent.second, second := recent.first, third := recent.third })
    else
      let offset := if index = 3 then recent.third else recent.first - 1
      (offset, { first := offset, second := recent.first, third := recent.second })

end RecentOffsets

end Rollup.Zstd

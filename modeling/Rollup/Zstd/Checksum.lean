/-
The 64-bit content checksum.

Four accumulators take the content in stripes of 32 bytes, eight bytes each;
they are merged, the remaining bytes are mixed in, and the bits are stirred.
All arithmetic is on 64-bit words and wraps.
-/

namespace Rollup.Zstd.Checksum

def prime1 : UInt64 := 0x9E3779B185EBCA87
def prime2 : UInt64 := 0xC2B2AE3D27D4EB4F
def prime3 : UInt64 := 0x165667B19E3779F9
def prime4 : UInt64 := 0x85EBCA77C2B2AE63
def prime5 : UInt64 := 0x27D4EB2F165667C5

def rotate (word : UInt64) (amount : UInt64) : UInt64 :=
  (word <<< amount) ||| (word >>> (64 - amount))

def round (accumulator word : UInt64) : UInt64 :=
  rotate (accumulator + word * prime2) 31 * prime1

def merge (hash accumulator : UInt64) : UInt64 :=
  (hash ^^^ round 0 accumulator) * prime1 + prime4

/-- The word of some bytes, the lowest first. -/
def word : List UInt8 → UInt64
  | [] => 0
  | byte :: rest => byte.toUInt64 + 256 * word rest

structure Accumulators where
  first : UInt64
  second : UInt64
  third : UInt64
  fourth : UInt64

def start : Accumulators :=
  { first := prime1 + prime2, second := prime2, third := 0, fourth := 0 - prime1 }

/-- Takes so many stripes off the front. -/
def stripes : Nat → Accumulators → List UInt8 → Accumulators × List UInt8
  | 0, accumulators, bytes => (accumulators, bytes)
  | count + 1, accumulators, bytes =>
      stripes count
        { first := round accumulators.first (word (bytes.take 8))
          second := round accumulators.second (word ((bytes.drop 8).take 8))
          third := round accumulators.third (word ((bytes.drop 16).take 8))
          fourth := round accumulators.fourth (word ((bytes.drop 24).take 8)) }
        (bytes.drop 32)

def mergeAll (accumulators : Accumulators) : UInt64 :=
  let sum := rotate accumulators.first 1 + rotate accumulators.second 7 +
    rotate accumulators.third 12 + rotate accumulators.fourth 18
  merge (merge (merge (merge sum accumulators.first) accumulators.second) accumulators.third)
    accumulators.fourth

def mixByte (hash : UInt64) (byte : UInt8) : UInt64 :=
  rotate (hash ^^^ (byte.toUInt64 * prime5)) 11 * prime1

def mixHalf (hash : UInt64) (bytes : List UInt8) : UInt64 :=
  rotate (hash ^^^ (word bytes * prime1)) 23 * prime2 + prime3

def mixWord (hash : UInt64) (bytes : List UInt8) : UInt64 :=
  rotate (hash ^^^ round 0 (word bytes)) 27 * prime1 + prime4

/-- Mixes in so many whole words, then half a word, then single bytes. -/
def mixTail : Nat → UInt64 → List UInt8 → UInt64
  | 0, hash, bytes =>
      if 4 ≤ bytes.length then
        (bytes.drop 4).foldl mixByte (mixHalf hash (bytes.take 4))
      else bytes.foldl mixByte hash
  | words + 1, hash, bytes => mixTail words (mixWord hash (bytes.take 8)) (bytes.drop 8)

def stir (hash : UInt64) : UInt64 :=
  let second := (hash ^^^ (hash >>> 33)) * prime2
  let third := (second ^^^ (second >>> 29)) * prime3
  third ^^^ (third >>> 32)

def ofBytes (bytes : List UInt8) : UInt64 :=
  let (hash, tail) :=
    if bytes.length < 32 then (prime5, bytes)
    else
      let (accumulators, rest) := stripes (bytes.length / 32) start bytes
      (mergeAll accumulators, rest)
  stir (mixTail (tail.length / 8) (hash + UInt64.ofNat bytes.length) tail)

end Rollup.Zstd.Checksum

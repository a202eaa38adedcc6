/-
Frames: the containers of compressed content.

A frame is a header, blocks of which one is marked as the last, and optionally
a checksum.  Content is a sequence of frames; skippable frames add nothing to
it.  A frame that declares a small content is decoded at once, which checks its
size strictly; any other frame is decoded block by block, which bounds its
window and the size of every block.

Storing writes a single frame of raw blocks.
-/

import Rollup.Zstd.Block
import Rollup.Zstd.Checksum

namespace Rollup.Zstd

/-! ### Frame headers -/

structure FrameHeader where
  window : Nat
  contentSize : Option Nat
  hasChecksum : Bool

namespace FrameHeader

def magic : List UInt8 := [0x28, 0xB5, 0x2F, 0xFD]

/-- The largest declared content that is decoded at once. -/
def atOnceLimit : Nat := 8192

/-- The largest window accepted for decoding block by block. -/
def windowLimit : Nat := 0x8000001

/-- No block holds more than this, whatever the window. -/
def blockLimit : Nat := 0x20000

def isAtOnce (header : FrameHeader) : Bool :=
  match header.contentSize with
  | none => false
  | some size => size ≤ atOnceLimit

def maxBlock (header : FrameHeader) : Nat := min header.window blockLimit

/-- The window described by a byte: a power of two and eighths of it. -/
def windowOf (descriptor : UInt8) : Option Nat :=
  let exponent := descriptor.toNat / 8 + 10
  if 31 < exponent then none
  else some (Nat.pow 2 exponent + Nat.pow 2 exponent / 8 * (descriptor.toNat % 8))

def contentSizeWidth (form : Nat) (singleSegment : Bool) : Nat :=
  match form with
  | 0 => if singleSegment then 1 else 0
  | 1 => 2
  | 2 => 4
  | _ => 8

/-- The content size in those bytes; the two-byte form starts at 256, and the
largest number of eight bytes declares nothing. -/
def contentSizeOf (bytes : List UInt8) : Option Nat :=
  let value := littleEndianValue bytes
  match bytes.length with
  | 0 => none
  | 2 => some (value + 256)
  | 8 => if value = 0xffffffffffffffff then none else some value
  | _ => some value

/-- Reads a header behind the magic number.  A frame that needs a dictionary
is refused. -/
def read : List UInt8 → Option (FrameHeader × List UInt8)
  | [] => none
  | descriptor :: afterDescriptor => do
      let flags := descriptor.toNat
      let singleSegment := flags / 32 % 2 = 1
      let dictionaryWidth := [0, 1, 2, 4].getD (flags % 4) 0
      let sizeWidth := contentSizeWidth (flags / 64) singleSegment
      let windowBytes := if singleSegment then 0 else 1
      let width := windowBytes + dictionaryWidth + sizeWidth
      if flags / 8 % 2 = 1 ∨ afterDescriptor.length < width then none
      else
        let dictionary := (afterDescriptor.drop windowBytes).take dictionaryWidth
        let contentSize :=
          contentSizeOf ((afterDescriptor.drop (windowBytes + dictionaryWidth)).take sizeWidth)
        let window ←
          if singleSegment then some (contentSize.getD 0xffffffffffffffff)
          else windowOf (afterDescriptor.headD 0)
        if littleEndianValue dictionary ≠ 0 then none
        else
          return ({ window := window
                    contentSize := contentSize
                    hasChecksum := decide (flags / 4 % 2 = 1) },
            afterDescriptor.drop width)

end FrameHeader

/-! ### Blocks of a frame -/

structure BlockHeader where
  isLast : Bool
  kind : Nat
  size : Nat

namespace BlockHeader

def ofBytes (first second third : UInt8) : BlockHeader :=
  let value := littleEndianValue [first, second, third]
  { isLast := decide (value % 2 = 1)
    kind := value / 2 % 4
    size := value / 8 }

def raw : Nat := 0

def repeated : Nat := 1

def compressed : Nat := 2

def isEmpty (header : BlockHeader) : Bool := header.size = 0 && header.kind != repeated

end BlockHeader

/-- A block of which the size is right: appends its content and answers how
many bytes it took. -/
def decodeBody (frame : FrameHeader) (header : BlockHeader) (context : BlockContext)
    (content : Array UInt8) (body : List UInt8) :
    Option (Array UInt8 × BlockContext × Nat) :=
  if header.kind = BlockHeader.raw then
    if body.length < header.size then none
    else some (content ++ (body.take header.size).toArray, context, header.size)
  else if header.kind = BlockHeader.repeated then
    match body with
    | [] => none
    | byte :: _ => some (content ++ Array.replicate header.size byte, context, 1)
  else if header.kind = BlockHeader.compressed then
    if body.length < header.size ∨ frame.maxBlock < header.size then none
    else if header.isEmpty && !frame.isAtOnce then some (content, context, 0)
    else
      match decodeBlock frame.maxBlock context (body.take header.size) content with
      | none => none
      | some (extended, next) => some (extended, next, header.size)
  else none

/-- A block within the bounds that hold for decoding block by block. -/
def decodeBounded (frame : FrameHeader) (header : BlockHeader) (context : BlockContext)
    (content : Array UInt8) (body : List UInt8) :
    Option (Array UInt8 × BlockContext × Nat) :=
  if !frame.isAtOnce && frame.maxBlock < header.size then none
  else
    match decodeBody frame header context content body with
    | none => none
    | some (extended, next, used) =>
        if !frame.isAtOnce && content.size + frame.maxBlock < extended.size then none
        else some (extended, next, used)

/-- The content has the declared size.  An empty last block ends a frame that
is decoded block by block without this check. -/
def sizeFits (frame : FrameHeader) (lastBlock : BlockHeader) (size : Nat) : Bool :=
  match frame.contentSize with
  | none => true
  | some declared => size = declared || (lastBlock.isEmpty && !frame.isAtOnce)

def decodeBlocks (frame : FrameHeader) (context : BlockContext) (content : Array UInt8) :
    List UInt8 → Option (Array UInt8 × List UInt8)
  | first :: second :: third :: body =>
      let header := BlockHeader.ofBytes first second third
      match decodeBounded frame header context content body with
      | none => none
      | some (extended, next, used) =>
          if header.isLast then
            if sizeFits frame header extended.size then some (extended, body.drop used)
            else none
          else decodeBlocks frame next extended (body.drop used)
  | _ => none
termination_by bytes => bytes.length
decreasing_by
  simp only [List.length_drop, List.length_cons]
  omega

/-! ### Frames -/

/-- Drops the checksum behind the content after comparing it. -/
def verifyChecksum (content : List UInt8) (bytes : List UInt8) : Option (List UInt8) :=
  let stored := bytes.take 4
  if stored.length < 4 then none
  else if littleEndianValue stored = (Checksum.ofBytes content).toNat % 0x100000000 then
    some (bytes.drop 4)
  else none

/-- Decodes a frame behind its magic number. -/
def decodeFrame (bytes : List UInt8) : Option (List UInt8 × List UInt8) := do
  let (header, afterHeader) ← FrameHeader.read bytes
  if !header.isAtOnce && FrameHeader.windowLimit < header.window then none
  else
    let (content, afterBlocks) ← decodeBlocks header BlockContext.initial #[] afterHeader
    if header.hasChecksum then
      let rest ← verifyChecksum content.toList afterBlocks
      return (content.toList, rest)
    else return (content.toList, afterBlocks)

def skipFrame (bytes : List UInt8) : Option (List UInt8) :=
  let size := littleEndianValue (bytes.take 4)
  if bytes.length < 4 + size then none else some (bytes.drop (4 + size))

def decodeFirst (bytes : List UInt8) : Option (List UInt8 × List UInt8) :=
  let magic := bytes.take 4
  if magic = FrameHeader.magic then decodeFrame (bytes.drop 4)
  else if magic.length = 4 ∧ littleEndianValue magic / 16 = 0x184D2A5 then
    (skipFrame (bytes.drop 4)).map fun rest => ([], rest)
  else none

/-- Decodes one frame after the other; each takes some of the bytes, so their
number bounds the frames. -/
def decodeFrames : Nat → List UInt8 → Option (List UInt8)
  | _, [] => some []
  | 0, _ => none
  | fuel + 1, bytes => do
      let (content, rest) ← decodeFirst bytes
      let others ← decodeFrames fuel rest
      return content ++ others

/-- The content of compressed bytes, which hold at least one frame. -/
def decompress (bytes : List UInt8) : Option (List UInt8) :=
  if bytes = [] then none else decodeFrames bytes.length bytes

/-! ### Storing -/

def rawHeader (isLast : Bool) (size : Nat) : List UInt8 :=
  let value := 8 * size + (if isLast then 1 else 0)
  [UInt8.ofNat value, UInt8.ofNat (value / 256), UInt8.ofNat (value / 65536)]

/-- Raw blocks that hold the bytes, each as large as a block may be. -/
def rawBlocks (bytes : List UInt8) : List UInt8 :=
  if bytes.length ≤ FrameHeader.blockLimit then rawHeader true bytes.length ++ bytes
  else
    rawHeader false FrameHeader.blockLimit ++ bytes.take FrameHeader.blockLimit ++
      rawBlocks (bytes.drop FrameHeader.blockLimit)
termination_by bytes.length
decreasing_by
  simp only [List.length_drop, FrameHeader.blockLimit] at *
  omega

/-- A frame with these bytes as its content, which is not declared; its window
is as large as a block. -/
def store (bytes : List UInt8) : List UInt8 :=
  FrameHeader.magic ++ [0x00, 0x38] ++ rawBlocks bytes

end Rollup.Zstd

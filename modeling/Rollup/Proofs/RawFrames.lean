/-
Stored frames are decompressed to what was stored.

A stored frame declares neither its content's size nor a checksum, and its window
is as large as a block may be.  So the decoder takes the raw blocks one by one,
appends their content, and ends with the last one behind which nothing is left.
-/

import Mathlib.Tactic.SplitIfs
import Rollup.Zstd.Frame

namespace Rollup.Zstd

/-- What the decoder knows of a stored frame. -/
def storedHeader : FrameHeader :=
  { window := FrameHeader.blockLimit, contentSize := none, hasChecksum := false }

theorem read_storedHeader (rest : List UInt8) :
    FrameHeader.read (0x00 :: 0x38 :: rest) = some (storedHeader, rest) := by
  simp [FrameHeader.read, FrameHeader.contentSizeWidth, FrameHeader.contentSizeOf,
    FrameHeader.windowOf, FrameHeader.blockLimit, storedHeader, littleEndianValue]

theorem ofBytes_rawHeader (isLast : Bool) {size : Nat} (small : size ≤ FrameHeader.blockLimit) :
    ∃ first second third, rawHeader isLast size = [first, second, third] ∧
      BlockHeader.ofBytes first second third =
        { isLast := isLast, kind := BlockHeader.raw, size := size } := by
  refine ⟨_, _, _, rfl, ?_⟩
  unfold FrameHeader.blockLimit at small
  generalize value_eq : 8 * size + (if isLast then 1 else 0) = value
  have bounds : value < 16777216 := by
    split at value_eq <;> omega
  have bytes : littleEndianValue [UInt8.ofNat value, UInt8.ofNat (value / 256),
      UInt8.ofNat (value / 65536)] = value := by
    simp only [littleEndianValue, UInt8.toNat_ofNat']
    omega
  rw [BlockHeader.ofBytes, bytes]
  cases isLast with
  | true =>
      simp only [if_true] at value_eq
      simp only [BlockHeader.mk.injEq, decide_eq_true_eq, BlockHeader.raw]
      omega
  | false =>
      simp only [Bool.false_eq_true, if_false] at value_eq
      simp only [BlockHeader.mk.injEq, decide_eq_false_iff_not, BlockHeader.raw]
      omega

/-- A raw block appends its content, if it is no larger than a block may be. -/
theorem decodeBounded_raw (context : BlockContext) (content : Array UInt8) (block rest : List UInt8)
    (isLast : Bool) (small : block.length ≤ FrameHeader.blockLimit) :
    decodeBounded storedHeader { isLast := isLast, kind := BlockHeader.raw, size := block.length }
        context content (block ++ rest) =
      some (content ++ block.toArray, context, block.length) := by
  have fits : ¬FrameHeader.blockLimit < block.length := Nat.not_lt.mpr small
  have sizeFits : ¬content.size + FrameHeader.blockLimit < (content ++ block.toArray).size := by
    have appended : (content ++ block.toArray).size = content.size + block.length := by simp
    omega
  have long : ¬(block ++ rest).length < block.length := by
    rw [List.length_append]
    omega
  have maxBlock : storedHeader.maxBlock = FrameHeader.blockLimit := Nat.min_self _
  have blockwise : storedHeader.isAtOnce = false := rfl
  have body : decodeBody storedHeader
      { isLast := isLast, kind := BlockHeader.raw, size := block.length } context content
      (block ++ rest) = some (content ++ block.toArray, context, block.length) := by
    unfold decodeBody
    rw [if_pos rfl, if_neg long, List.take_left]
  rw [decodeBounded, body, maxBlock, blockwise]
  simp only [Bool.not_false, Bool.true_and, decide_eq_true_eq, if_neg fits, if_neg sizeFits]

theorem decodeBlocks_rawBlocks (context : BlockContext) (content : Array UInt8)
    (bytes : List UInt8) :
    decodeBlocks storedHeader context content (rawBlocks bytes) =
      some (content ++ bytes.toArray, []) := by
  induction size : bytes.length using Nat.strongRecOn generalizing bytes content with
  | ind length inductionHypothesis =>
      rw [rawBlocks]
      split
      · rename_i small
        obtain ⟨first, second, third, written, header⟩ := ofBytes_rawHeader true small
        rw [written]
        show decodeBlocks storedHeader context content (first :: second :: third :: bytes) = _
        have decoded := decodeBounded_raw context content bytes [] true small
        rw [List.append_nil] at decoded
        rw [decodeBlocks, header]
        dsimp only
        rw [decoded]
        simp [sizeFits, storedHeader]
      · -- A full block that is not the last; what is left behind it is shorter.
        rename_i large
        have full : (bytes.take FrameHeader.blockLimit).length = FrameHeader.blockLimit := by
          rw [List.length_take]
          omega
        obtain ⟨first, second, third, written, header⟩ :=
          ofBytes_rawHeader false (Nat.le_refl FrameHeader.blockLimit)
        rw [written]
        have decoded := decodeBounded_raw context content (bytes.take FrameHeader.blockLimit)
          (rawBlocks (bytes.drop FrameHeader.blockLimit)) false (Nat.le_of_eq full)
        rw [full] at decoded
        have behind : (bytes.take FrameHeader.blockLimit ++
            rawBlocks (bytes.drop FrameHeader.blockLimit)).drop FrameHeader.blockLimit =
              rawBlocks (bytes.drop FrameHeader.blockLimit) := List.drop_left' full
        have shorter : (bytes.drop FrameHeader.blockLimit).length < length := by
          rw [List.length_drop, size]
          unfold FrameHeader.blockLimit at large ⊢
          omega
        show decodeBlocks storedHeader context content (first :: second :: third ::
          (bytes.take FrameHeader.blockLimit ++ rawBlocks (bytes.drop FrameHeader.blockLimit))) = _
        rw [decodeBlocks, header]
        dsimp only
        rw [decoded]
        simp only [Bool.false_eq_true, if_false]
        rw [behind, inductionHypothesis _ shorter _ _ rfl, Array.append_assoc]
        simp [List.take_append_drop]

/-- Decompressing what was stored gives it back. -/
theorem decompress_store (bytes : List UInt8) : decompress (store bytes) = some bytes := by
  have frame : decodeFrame (0x00 :: 0x38 :: rawBlocks bytes) = some (bytes, []) := by
    have blocks := decodeBlocks_rawBlocks BlockContext.initial #[] bytes
    simp only [decodeFrame, read_storedHeader, Option.bind_eq_bind, Option.bind_some, blocks]
    simp [storedHeader, FrameHeader.isAtOnce, FrameHeader.windowLimit, FrameHeader.blockLimit]
  have first : decodeFirst (store bytes) = some (bytes, []) := by
    show decodeFirst (0x28 :: 0xB5 :: 0x2F :: 0xFD :: 0x00 :: 0x38 :: rawBlocks bytes) = _
    exact frame
  have nonempty : store bytes ≠ [] := List.cons_ne_nil _ _
  obtain ⟨fuel, enough⟩ := Nat.exists_eq_succ_of_ne_zero (mt List.length_eq_zero_iff.mp nonempty)
  rw [decompress, if_neg nonempty, enough, decodeFrames]
  · simp only [first, Option.bind_eq_bind, Option.bind_some, decodeFrames]
    simp
  · exact nonempty

theorem length_le_length_rawBlocks (bytes : List UInt8) :
    bytes.length ≤ (rawBlocks bytes).length := by
  induction size : bytes.length using Nat.strongRecOn generalizing bytes with
  | ind length inductionHypothesis =>
      unfold rawBlocks
      split
      · rw [List.length_append]
        omega
      · rename_i large
        have shorter : (bytes.drop FrameHeader.blockLimit).length < length := by
          rw [List.length_drop]
          unfold FrameHeader.blockLimit at large ⊢
          omega
        have rest := inductionHypothesis _ shorter _ rfl
        rw [List.length_drop] at rest
        rw [List.length_append, List.length_append, List.length_take]
        omega

theorem length_le_length_store (bytes : List UInt8) : bytes.length ≤ (store bytes).length := by
  have inBlocks := length_le_length_rawBlocks bytes
  rw [store, List.length_append]
  omega

end Rollup.Zstd

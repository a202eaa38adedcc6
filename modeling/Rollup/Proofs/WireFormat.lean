/-
The byte format, read back.

A reader takes certain bytes for a value when it reads exactly these bytes and
answers the value, whatever follows them.  Readers that follow one another take
bytes that follow one another, so what is written part by part is read part by
part.  Lengths are words: this holds of everything that is written in fewer than
2^64 bytes.
-/

import Mathlib.Algebra.GroupWithZero.Nat
import Mathlib.Tactic.SplitIfs
import Rollup.Wire

namespace Rollup
namespace Wire

variable {α β : Type}

/-- The reader takes exactly these bytes, whatever follows them, and answers the value. -/
def Reader.Takes (reader : Reader α) (bytes : Bytes) (value : α) : Prop :=
  ∀ rest, reader (bytes ++ rest) = some (value, rest)

namespace Reader.Takes

theorem pure (value : α) : (Reader.pure value).Takes [] value := fun _ => rfl

theorem bind {reader : Reader α} {next : α → Reader β} {bytes more : Bytes} {value : α}
    {result : β} (first : reader.Takes bytes value) (second : (next value).Takes more result) :
    (reader >>= next).Takes (bytes ++ more) result := by
  intro rest
  have here : reader (bytes ++ (more ++ rest)) = some (value, more ++ rest) := first _
  rw [List.append_assoc]
  show Reader.bind reader next (bytes ++ (more ++ rest)) = some (result, rest)
  unfold Reader.bind
  rw [here]
  exact second rest

theorem map {reader : Reader α} {bytes : Bytes} {value : α} (taken : reader.Takes bytes value)
    (change : α → β) :
    (reader >>= fun read => Reader.pure (change read)).Takes bytes (change value) := by
  have both : (reader >>= fun read => Reader.pure (change read)).Takes (bytes ++ [])
      (change value) := taken.bind (pure (change value))
  rw [List.append_nil] at both
  exact both

end Reader.Takes

/-! ### Numbers -/

theorem takes_readByte (byte : UInt8) : readByte.Takes [byte] byte := fun _ => rfl

theorem takes_readBytes (bytes : Bytes) : (readBytes bytes.length).Takes bytes bytes := by
  intro rest
  have long : bytes.length ≤ (bytes ++ rest).length := by
    rw [List.length_append]
    omega
  rw [readBytes, if_pos long, List.splitAt_eq, List.take_left, List.drop_left]

theorem takes_readLittleEndian (count value : Nat) (small : value < 256 ^ count) :
    (readLittleEndian count).Takes (littleEndian count value) value := by
  induction count generalizing value with
  | zero =>
      have isZero : value = 0 := by
        rw [Nat.pow_zero] at small
        omega
      rw [isZero]
      exact Reader.Takes.pure 0
  | succ count inductionHypothesis =>
      have highSmall : value / 256 < 256 ^ count := by
        rw [Nat.pow_succ] at small
        exact Nat.div_lt_of_lt_mul (by omega)
      have low : (UInt8.ofNat value).toNat + 256 * (value / 256) = value := by
        rw [UInt8.toNat_ofNat']
        omega
      have high := (inductionHypothesis (value / 256) highSmall).map fun high =>
        (UInt8.ofNat value).toNat + 256 * high
      rw [low] at high
      show (readByte >>= fun low => readLittleEndian count >>= fun high =>
        Reader.pure (low.toNat + 256 * high)).Takes
          ([UInt8.ofNat value] ++ littleEndian count (value / 256)) value
      exact (takes_readByte (UInt8.ofNat value)).bind high

theorem readNumber_cons (width : Nat) (marker : UInt8) (rest : Bytes) :
    readNumber width (marker :: rest) =
      if marker < 251 then some (marker.toNat, rest)
      else if marker = 251 ∧ 2 ≤ width then readLittleEndian 2 rest
      else if marker = 252 ∧ 4 ≤ width then readLittleEndian 4 rest
      else if marker = 253 ∧ 8 ≤ width then readLittleEndian 8 rest
      else none := by
  unfold readNumber
  show (if marker < 251 then Reader.pure marker.toNat else _ : Reader Nat) rest = _
  split_ifs <;> rfl

/-- A number is read back at any width that its type may have. -/
theorem takes_readNumber {width value : Nat} (wide : 4 ≤ width)
    (fits : value < 256 ^ 4 ∨ 8 ≤ width ∧ value < 256 ^ 8) :
    (readNumber width).Takes (number value) value := by
  intro rest
  unfold number
  split
  · rename_i oneByte
    have value_eq : (UInt8.ofNat value).toNat = value := by
      rw [UInt8.toNat_ofNat']
      omega
    have isSmall : UInt8.ofNat value < 251 := by
      rw [UInt8.lt_iff_toNat_lt, value_eq]
      exact oneByte
    rw [List.singleton_append, readNumber_cons, if_pos isSmall, value_eq]
  · -- A marker above 250 tells how many bytes follow, so the earlier readings are ruled out.
    split
    · rename_i twoBytes
      have marked : (251 : UInt8) = 251 ∧ 2 ≤ width := ⟨rfl, by omega⟩
      rw [List.cons_append, readNumber_cons, if_neg (by decide), if_pos marked]
      exact takes_readLittleEndian 2 value twoBytes rest
    · split
      · rename_i fourBytes
        have marked : (252 : UInt8) = 252 ∧ 4 ≤ width := ⟨rfl, wide⟩
        rw [List.cons_append, readNumber_cons, if_neg (by decide), if_neg (fun same => absurd same.1 (by decide)),
          if_pos marked]
        exact takes_readLittleEndian 4 value fourBytes rest
      · rename_i large
        have word : 8 ≤ width ∧ value < 256 ^ 8 := fits.resolve_left (by omega)
        have marked : (253 : UInt8) = 253 ∧ 8 ≤ width := ⟨rfl, word.1⟩
        rw [List.cons_append, readNumber_cons, if_neg (by decide),
          if_neg (fun same => absurd same.1 (by decide)),
          if_neg (fun same => absurd same.1 (by decide)), if_pos marked]
        exact takes_readLittleEndian 8 value word.2 rest

theorem length_number_pos (value : Nat) : 0 < (number value).length := by
  unfold number
  split_ifs <;> exact Nat.succ_pos _

theorem takes_readLength {value : Nat} (fits : value < 2 ^ 64) :
    (readNumber 8).Takes (number value) value :=
  takes_readNumber (by omega) (Or.inr ⟨Nat.le_refl 8, fits⟩)

theorem takes_readWord (value : UInt64) : readWord.Takes (word value) value := by
  have taken := (takes_readLength value.toNat_lt).map UInt64.ofNat
  rw [UInt64.ofNat_toNat] at taken
  exact taken

theorem takes_readHalfWord (value : UInt32) : readHalfWord.Takes (halfWord value) value := by
  have small : value.toNat < 256 ^ 4 := value.toNat_lt
  have numberTaken : (readNumber 4).Takes (number value.toNat) value.toNat :=
    takes_readNumber (Nat.le_refl 4) (Or.inl small)
  have taken := numberTaken.map UInt32.ofNat
  rw [UInt32.ofNat_toNat] at taken
  exact taken

theorem takes_readBinary64 (value : Binary64) :
    readBinary64.Takes (binary64 value) value := by
  have taken := (takes_readLittleEndian 8 value.bits.toNat value.bits.toNat_lt).map
    fun bits => Binary64.mk (UInt64.ofNat bits)
  rw [UInt64.ofNat_toNat] at taken
  exact taken

/-! ### Composite values -/

theorem fromUTF8?_toUTF8 (value : String) :
    String.fromUTF8? (ByteArray.mk value.toUTF8.data.toList.toArray) = some value := by
  have bytes : ByteArray.mk value.toUTF8.data.toList.toArray = value.toByteArray := by
    rw [Array.toArray_toList, String.toUTF8_eq_toByteArray]
  unfold String.fromUTF8?
  rw [bytes, dif_pos value.isValidUTF8]
  rfl

theorem length_text_pos (value : String) : 0 < (text value).length := by
  have positive := length_number_pos value.toUTF8.data.toList.length
  rw [text, List.length_append]
  omega

theorem takes_readText {value : String} (fits : (text value).length < 2 ^ 64) :
    readText.Takes (text value) value := by
  unfold text at fits ⊢
  rw [List.length_append] at fits
  have bytesFit : value.toUTF8.data.toList.length < 2 ^ 64 := by omega
  refine (takes_readLength bytesFit).bind ?_
  intro rest
  have bytesRead := takes_readBytes value.toUTF8.data.toList rest
  show Reader.bind _ _ _ = _
  unfold Reader.bind
  rw [bytesRead]
  dsimp only
  rw [fromUTF8?_toUTF8]
  rfl

theorem takes_readOptional {write : α → Bytes} {read : Reader α} {value : Option α}
    (each : ∀ present ∈ value, read.Takes (write present) present) :
    (readOptional read).Takes (optional write value) value := by
  cases value with
  | none => exact fun _ => rfl
  | some present =>
      have taken := each present rfl
      exact (takes_readByte 1).bind (taken.map some)

theorem takes_readTimes {write : α → Bytes} {read : Reader α} {values : List α}
    (each : ∀ value ∈ values, read.Takes (write value) value) :
    (readTimes read values.length).Takes (values.flatMap write) values := by
  induction values with
  | nil => exact Reader.Takes.pure []
  | cons value rest inductionHypothesis =>
      obtain ⟨here, later⟩ := List.forall_mem_cons.mp each
      rw [List.flatMap_cons]
      exact here.bind ((inductionHypothesis later).map (value :: ·))

/-- Every part of a list is written in no more bytes than the list. -/
theorem length_le_length_list {write : α → Bytes} {values : List α} {value : α}
    (member : value ∈ values) : (write value).length ≤ (list write values).length := by
  have part : (write value).Sublist (values.flatMap write) := by
    rw [List.flatMap_def]
    exact List.sublist_flatten_of_mem (List.mem_map_of_mem member)
  have short := part.length_le
  rw [list, List.length_append]
  omega

theorem length_le_length_flatMap {write : α → Bytes} (nonempty : ∀ value, 0 < (write value).length)
    (values : List α) : values.length ≤ (values.flatMap write).length := by
  induction values with
  | nil => exact Nat.le_refl 0
  | cons value rest inductionHypothesis =>
      have positive := nonempty value
      rw [List.length_cons, List.flatMap_cons, List.length_append]
      omega

theorem takes_readList {write : α → Bytes} {read : Reader α} {values : List α}
    (fits : (list write values).length < 2 ^ 64) (nonempty : ∀ value, 0 < (write value).length)
    (each : ∀ value ∈ values, (write value).length < 2 ^ 64 → read.Takes (write value) value) :
    (readList read).Takes (list write values) values := by
  have few := length_le_length_flatMap nonempty values
  have countFits : values.length < 2 ^ 64 := by
    rw [list, List.length_append] at fits
    omega
  refine (takes_readLength countFits).bind (takes_readTimes fun value member => ?_)
  exact each value member (Nat.lt_of_le_of_lt (length_le_length_list member) fits)

end Wire
end Rollup

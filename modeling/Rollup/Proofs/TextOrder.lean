/-
Texts are ordered like their bytes.

The order of two texts is decided by their first different characters.  The bytes
of a character begin with one that says how many follow, and larger characters
have no fewer bytes, so the bytes of the texts are decided there too and in the
same way.
-/

import Mathlib.Algebra.GroupWithZero.Nat
import Mathlib.Data.List.Basic
import Mathlib.Tactic.SplitIfs
import Rollup.Wire

namespace Rollup

/-- The UTF-8 bytes of a text. -/
def textBytes (text : String) : Bytes := text.toUTF8.data.toList

namespace TextOrder

/-- A number as a leading byte with a mark and some bytes of six bits each. -/
def sixBits (mark : Nat) : Nat → Nat → List UInt8
  | 0, number => [UInt8.ofNat (number + mark)]
  | count + 1, number => sixBits mark count (number / 64) ++ [UInt8.ofNat (number % 64 + 128)]

theorem exists_lead (mark count number : Nat) :
    ∃ rest, sixBits mark count number = UInt8.ofNat (number / 64 ^ count + mark) :: rest := by
  induction count generalizing number with
  | zero => exact ⟨[], by rw [sixBits, Nat.pow_zero, Nat.div_one]⟩
  | succ count inductionHypothesis =>
      obtain ⟨rest, same⟩ := inductionHypothesis (number / 64)
      refine ⟨rest ++ [UInt8.ofNat (number % 64 + 128)], ?_⟩
      rw [sixBits, same, Nat.div_div_eq_div_mul, ← Nat.pow_succ', List.cons_append]

private theorem ofNat_lt_ofNat {left right : Nat} (below : left < right) (fits : right < 256) :
    UInt8.ofNat left < UInt8.ofNat right := by
  rw [UInt8.lt_iff_toNat_lt, UInt8.toNat_ofNat', UInt8.toNat_ofNat']
  omega

/-- With equally many bytes, the larger number has the larger bytes. -/
theorem sixBits_lt {mark count left right : Nat} (below : left < right)
    (fits : right / 64 ^ count + mark < 256) (behindLeft behindRight : List UInt8) :
    sixBits mark count left ++ behindLeft < sixBits mark count right ++ behindRight := by
  induction count generalizing left right behindLeft behindRight with
  | zero =>
      rw [Nat.pow_zero, Nat.div_one] at fits
      apply List.cons_lt_cons_iff.mpr
      exact Or.inl (ofNat_lt_ofNat (by omega) fits)
  | succ count inductionHypothesis =>
      rw [Nat.pow_succ', ← Nat.div_div_eq_div_mul] at fits
      rw [sixBits, sixBits, List.append_assoc, List.append_assoc]
      rcases Nat.lt_or_ge (left / 64) (right / 64) with higher | notHigher
      · exact inductionHypothesis higher fits _ _
      · have same : left / 64 = right / 64 := by omega
        rw [same]
        apply List.append_left_lt
        apply List.cons_lt_cons_iff.mpr
        exact Or.inl (ofNat_lt_ofNat (by omega) (by omega))

/-- The mark of the leading byte of a character, and how many bytes follow it. -/
structure Layout where
  mark : Nat
  following : Nat

def layout (point : Nat) : Layout :=
  if point ≤ 127 then ⟨0, 0⟩
  else if point ≤ 2047 then ⟨192, 1⟩
  else if point ≤ 65535 then ⟨224, 2⟩
  else ⟨240, 3⟩

def lead (point : Nat) : Nat := point / 64 ^ (layout point).following + (layout point).mark

private theorem point_lt (char : Char) : char.val.toNat < 1114112 := by
  rcases char.valid with low | ⟨_, high⟩
  · exact Nat.lt_trans low (by decide)
  · exact high

theorem utf8EncodeChar_eq_sixBits (char : Char) :
    String.utf8EncodeChar char =
      sixBits (layout char.val.toNat).mark (layout char.val.toNat).following char.val.toNat := by
  have bound := point_lt char
  unfold String.utf8EncodeChar layout
  generalize char.val.toNat = point at *
  dsimp only
  split_ifs with one two three
  · rfl
  · have lead : point / 64 % 32 = point / 64 := by omega
    rw [lead]
    rfl
  · have lead : point / 4096 % 16 = point / 64 / 64 := by omega
    rw [lead]
    rfl
  · have lead : point / 262144 % 8 = point / 64 / 64 / 64 := by omega
    have second : point / 4096 = point / 64 / 64 := by omega
    rw [lead, second]
    rfl

theorem utf8EncodeChar_eq_cons (char : Char) :
    ∃ rest, String.utf8EncodeChar char = UInt8.ofNat (lead char.val.toNat) :: rest := by
  rw [utf8EncodeChar_eq_sixBits]
  exact exists_lead _ _ _

private theorem lead_lt {point : Nat} (bound : point < 1114112) : lead point < 256 := by
  unfold lead layout
  split_ifs <;> dsimp only <;> omega

/-- More bytes have a larger leading byte. -/
private theorem lead_lt_lead {left right : Nat} (below : left < right)
    (longer : layout left ≠ layout right) (bound : right < 1114112) :
    lead left < lead right := by
  unfold layout at longer
  unfold lead layout
  split_ifs at longer ⊢ <;> first | exact absurd rfl longer | (dsimp only; omega)

theorem utf8EncodeChar_lt {left right : Char} (below : left < right)
    (behindLeft behindRight : Bytes) :
    String.utf8EncodeChar left ++ behindLeft < String.utf8EncodeChar right ++ behindRight := by
  have bound := point_lt right
  have pointBelow : left.val.toNat < right.val.toNat := below
  have fits := lead_lt bound
  by_cases sameLayout : layout left.val.toNat = layout right.val.toNat
  · rw [utf8EncodeChar_eq_sixBits, utf8EncodeChar_eq_sixBits, sameLayout]
    exact sixBits_lt pointBelow fits behindLeft behindRight
  · obtain ⟨leftRest, leftEq⟩ := utf8EncodeChar_eq_cons left
    obtain ⟨rightRest, rightEq⟩ := utf8EncodeChar_eq_cons right
    rw [leftEq, rightEq]
    apply List.cons_lt_cons_iff.mpr
    exact Or.inl (ofNat_lt_ofNat (lead_lt_lead pointBelow sameLayout bound) fits)

end TextOrder

/-- The text that comes first has the bytes that come first. -/
theorem textBytes_lt {left right : String} (below : compare left right = .lt) :
    textBytes left < textBytes right := by
  have encoded (text : String) :
      textBytes text = text.toList.flatMap String.utf8EncodeChar := by
    rw [textBytes, String.toUTF8_eq_toByteArray, ← String.utf8Encode_toList, List.utf8Encode,
      List.toList_data_toByteArray]
  have textBelow : left < right := compareOfLessAndEq_eq_lt.mp below
  have charsBelow := String.lt_iff.mp textBelow
  rw [encoded, encoded]
  generalize left.toList = leftChars at *
  generalize right.toList = rightChars at *
  induction charsBelow with
  | @nil char _ =>
      obtain ⟨rest, same⟩ := TextOrder.utf8EncodeChar_eq_cons char
      rw [List.flatMap_nil, List.flatMap_cons, same, List.cons_append]
      exact List.nil_lt_cons _ _
  | cons _ inductionHypothesis =>
      rw [List.flatMap_cons, List.flatMap_cons]
      exact List.append_left_lt inductionHypothesis
  | rel charBelow =>
      rw [List.flatMap_cons, List.flatMap_cons]
      exact TextOrder.utf8EncodeChar_lt charBelow _ _

end Rollup

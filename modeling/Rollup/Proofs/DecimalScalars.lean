/-
Decimal digits as a plain scalar.

Digits alone are an integer as long as they fit into a 64-bit word with a sign.  Larger
ones are no integer in any notation, and what remains for them is the nearest
floating-point value.
-/

import Mathlib.Algebra.GroupWithZero.Nat
import Mathlib.Data.List.TakeWhile
import Rollup.Yaml.Scalar

namespace Rollup

namespace Decimal

theorem splitSign_of_isDigit {digits : List Char} (all : ∀ char ∈ digits, char.isDigit = true) :
    splitSign digits = (false, digits) := by
  unfold splitSign
  split
  · exact absurd (all '-' List.mem_cons_self) (by decide)
  · exact absurd (all '+' List.mem_cons_self) (by decide)
  · rfl

theorem read_of_isDigit {digits : List Char} (nonempty : digits ≠ [])
    (all : ∀ char ∈ digits, char.isDigit = true) :
    read digits = some (Binary64.ofDecimal false (Nat.ofDigitChars 10 digits 0) 0) := by
  have whole : digits.takeWhile Char.isDigit = digits := List.takeWhile_eq_self_iff.mpr all
  have behind : digits.dropWhile Char.isDigit = [] := List.dropWhile_eq_nil_iff.mpr all
  unfold read
  rw [splitSign_of_isDigit all]
  simp only [whole, behind]
  simp [nonempty, readExponent]
  rfl

end Decimal

namespace Yaml.Scalar

variable {digits : List Char}

theorem digitInBase_of_isDigit {char : Char} (isDigit : char.isDigit = true) :
    digitInBase 10 char = some (char.toNat - '0'.toNat) := by
  have bounds : '0' ≤ char ∧ char ≤ '9' := by
    rw [Char.isDigit, Bool.and_eq_true, decide_eq_true_iff, decide_eq_true_iff] at isDigit
    exact isDigit
  have small : char.toNat - '0'.toNat < 10 := by
    have upper : char.toNat ≤ '9'.toNat := bounds.2
    have nine : '9'.toNat = 57 := rfl
    have zero : '0'.toNat = 48 := rfl
    omega
  unfold digitInBase
  rw [if_pos bounds]
  exact Option.filter_some_pos (decide_eq_true small)

theorem natInBase_of_isDigit (all : ∀ char ∈ digits, char.isDigit = true) (total : Nat) :
    natInBase 10 total digits = some (Nat.ofDigitChars 10 digits total) := by
  induction digits generalizing total with
  | nil => rfl
  | cons char rest inductionHypothesis =>
      obtain ⟨here, further⟩ := List.forall_mem_cons.mp all
      unfold natInBase
      rw [digitInBase_of_isDigit here]
      exact inductionHypothesis further _

theorem readInteger_of_isDigit (nonempty : digits ≠ []) (all : ∀ char ∈ digits, char.isDigit = true) :
    readInteger 10 digits =
      if Nat.ofDigitChars 10 digits 0 < 2 ^ 63 then some (Nat.ofDigitChars 10 digits 0 : Int)
      else none := by
  unfold readInteger
  rw [Decimal.splitSign_of_isDigit all]
  dsimp only
  rw [if_neg nonempty, natInBase_of_isDigit all]
  dsimp only
  rw [if_neg Bool.false_ne_true]
  have fits (value : Nat) :
      minInteger ≤ (value : Int) ∧ (value : Int) ≤ maxInteger ↔ value < 2 ^ 63 := by
    unfold minInteger maxInteger
    omega
  simp only [fits]

theorem readMarkedInteger_of_isDigit (all : ∀ char ∈ digits, char.isDigit = true) :
    readMarkedInteger digits = none := by
  unfold readMarkedInteger
  split
  · exact absurd (all 'x' (by simp)) (by decide)
  · exact absurd (all 'o' (by simp)) (by decide)
  · exact absurd (all '+' (by simp)) (by decide)
  · rfl

/-- Digits are no word that has another character. -/
theorem ofList_ne_of_isDigit (all : ∀ char ∈ digits, char.isDigit = true) {word : String}
    (other : word.toList.all Char.isDigit = false) : String.ofList digits ≠ word := by
  intro same
  rw [← same, String.toList_ofList, List.all_eq_true.mpr all] at other
  cases other

theorem not_contains_of_isDigit (all : ∀ char ∈ digits, char.isDigit = true) {words : List String}
    (others : ∀ word ∈ words, word.toList.all Char.isDigit = false) :
    words.contains (String.ofList digits) = false := by
  rw [← Bool.not_eq_true, List.contains_iff_mem]
  intro member
  exact ofList_ne_of_isDigit all (others _ member) rfl

theorem readFloat_of_isDigit (nonempty : digits ≠ [])
    (all : ∀ char ∈ digits, char.isDigit = true) :
    readFloat digits = some (Binary64.ofDecimal false (Nat.ofDigitChars 10 digits 0) 0) := by
  have anyDigit : digits.any Char.isDigit = true := by
    obtain ⟨first, rest, rfl⟩ := List.exists_cons_of_ne_nil nonempty
    rw [List.any_cons, all first List.mem_cons_self, Bool.true_or]
  unfold readFloat
  rw [Decimal.splitSign_of_isDigit all]
  dsimp only
  rw [not_contains_of_isDigit all (by decide), not_contains_of_isDigit all (by decide),
    if_neg Bool.false_ne_true, if_neg Bool.false_ne_true, if_pos anyDigit,
    Decimal.read_of_isDigit nonempty all]

/-- The digits of a number stand for an integer if it fits, and else for a
floating-point value. -/
theorem guess_toString (number : Nat) :
    guess (toString number) =
      if number < 2 ^ 63 then .integer number
      else .float (Binary64.ofDecimal false number 0) := by
  have all : ∀ char ∈ Nat.toDigits 10 number, char.isDigit = true :=
    fun char member => Nat.isDigit_of_mem_toDigits (by decide) (by decide) member
  have nonempty : Nat.toDigits 10 number ≠ [] := Nat.toDigits_ne_nil
  rw [Nat.toString_eq_ofList_toDigits]
  unfold guess
  rw [String.toList_ofList, readMarkedInteger_of_isDigit all]
  dsimp only
  rw [not_contains_of_isDigit all (by decide), if_neg Bool.false_ne_true,
    if_neg (ofList_ne_of_isDigit all (by decide)), if_neg (ofList_ne_of_isDigit all (by decide)),
    readInteger_of_isDigit nonempty all, readFloat_of_isDigit nonempty all,
    Nat.ofDigitChars_ten_toDigits]
  by_cases fits : number < 2 ^ 63
  · rw [if_pos fits, if_pos fits]
  · rw [if_neg fits, if_neg fits]

end Yaml.Scalar

end Rollup

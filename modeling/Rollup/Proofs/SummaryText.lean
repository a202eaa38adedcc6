/-
What a reader finds in the text of a summary.

A terminal does not show the codes that switch colours on and off.  What is left of a
summary without them is six lines: the number of mutations and the totals of the root.
-/

import Mathlib.Data.List.Forall2
import Rollup.Proofs.TwoPlaces
import Rollup.Summary

namespace Rollup

/-! ### Colour codes -/

/-- What a terminal shows; a colour code reaches from its escape to the letter m. -/
def visibleFrom (inCode : Bool) : List Char → List Char
  | [] => []
  | char :: rest =>
      if inCode then visibleFrom (char ≠ 'm') rest
      else if char = '\x1b' then visibleFrom true rest
      else char :: visibleFrom false rest

def visible (text : String) : String := String.ofList (visibleFrom false text.toList)

/-- A text is seen as another one, whatever follows it. -/
def SeenAs (text seen : String) : Prop :=
  ∀ right, visibleFrom false (text.toList ++ right) = seen.toList ++ visibleFrom false right

theorem visibleFrom_of_plain {left : List Char} (plain : '\x1b' ∉ left) (right : List Char) :
    visibleFrom false (left ++ right) = left ++ visibleFrom false right := by
  induction left with
  | nil => rfl
  | cons char rest inductionHypothesis =>
      obtain ⟨different, restPlain⟩ := List.ne_and_not_mem_of_not_mem_cons plain
      rw [List.cons_append, visibleFrom, if_neg Bool.false_ne_true, if_neg different.symm,
        inductionHypothesis restPlain, List.cons_append]

theorem visibleFrom_of_code {code : List Char} (isOpen : 'm' ∉ code) (right : List Char) :
    visibleFrom true (code ++ 'm' :: right) = visibleFrom false right := by
  induction code with
  | nil => rfl
  | cons char rest inductionHypothesis =>
      obtain ⟨different, restOpen⟩ := List.ne_and_not_mem_of_not_mem_cons isOpen
      rw [List.cons_append, visibleFrom, if_pos rfl, decide_eq_true different.symm,
        inductionHypothesis restOpen]

namespace SeenAs

variable {text seen other otherSeen : String}

theorem of_plain (plain : '\x1b' ∉ text.toList) : SeenAs text text :=
  visibleFrom_of_plain plain

theorem append (first : SeenAs text seen) (second : SeenAs other otherSeen) :
    SeenAs (text ++ other) (seen ++ otherSeen) := by
  intro right
  rw [String.toList_append, List.append_assoc, first, second, String.toList_append,
    List.append_assoc]

/-- A code shows nothing. -/
theorem of_code {code : String} (isOpen : 'm' ∉ code.toList) :
    SeenAs ("\x1b[" ++ code ++ "m") "" := by
  intro right
  have inside : 'm' ∉ '[' :: code.toList := by
    rw [List.mem_cons, not_or]
    exact ⟨by decide, isOpen⟩
  rw [String.toList_append, String.toList_append, List.append_assoc, List.append_assoc]
  exact visibleFrom_of_code inside right

theorem styled (seenAs : SeenAs text seen) (colored : Bool) (style : Style) :
    SeenAs (styled colored style text) seen := by
  unfold Rollup.styled
  split
  · have opening : SeenAs ("\x1b[" ++ style.code ++ "m") "" := of_code (by cases style <;> decide)
    have closing : SeenAs ("\x1b[" ++ "0" ++ "m") "" := of_code (by decide)
    have inside := (opening.append seenAs).append closing
    rw [String.empty_append, String.append_empty] at inside
    exact inside
  · exact seenAs

theorem intercalate {separator : String} (plain : '\x1b' ∉ separator.toList)
    {texts lines : List String} (each : List.Forall₂ SeenAs texts lines) :
    SeenAs (separator.intercalate texts) (separator.intercalate lines) := by
  induction each with
  | nil => exact of_plain (List.not_mem_nil)
  | cons here others inductionHypothesis =>
      cases others with
      | nil =>
          rw [String.intercalate_singleton, String.intercalate_singleton]
          exact here
      | cons _ _ =>
          rw [String.intercalate_cons_cons, String.intercalate_cons_cons]
          exact (here.append (of_plain plain)).append inductionHypothesis

end SeenAs

/-! ### Texts without codes -/

theorem not_mem_toString (number : Nat) : '\x1b' ∉ (toString number).toList := by
  intro member
  have isDigit : Char.isDigit '\x1b' = true :=
    Nat.isDigit_of_mem_toDigits (by decide) (by decide) (Nat.toList_repr ▸ member)
  cases isDigit

theorem Decimal.ShownAs.plain {value : Binary64} {text : String} (shown : ShownAs value text) :
    '\x1b' ∉ text.toList := by
  have sign : '\x1b' ∉ (signText value).toList := by
    unfold signText
    split <;> decide
  cases shown with
  | notNumber _ => decide
  | infinite _ =>
      rw [String.toList_append, List.mem_append, not_or]
      exact ⟨sign, by decide⟩
  | finite _ _ _ _ =>
      simp only [String.toList_append, List.mem_append, not_or]
      exact ⟨sign, ⟨⟨not_mem_toString _, by decide⟩, not_mem_toString _⟩, not_mem_toString _⟩

namespace Summary

/-! ### The six lines -/

/-- Without a value, redundancy is shown as a dash. -/
def RedundancyShownAs : Option Binary64 → String → Prop
  | none, text => text = "-"
  | some redundancy, text => Decimal.ShownAs redundancy text

theorem RedundancyShownAs.plain {redundancy : Option Binary64} {text : String}
    (shown : RedundancyShownAs redundancy text) : '\x1b' ∉ text.toList := by
  cases redundancy with
  | none =>
      have dash : text = "-" := shown
      rw [dash]
      decide
  | some value => exact Decimal.ShownAs.plain shown

end Summary

end Rollup

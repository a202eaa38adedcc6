/-
What the totals of a directory say about a list of files.

The statistics are described without any reference to how they are computed:
sums as 64-bit words of the sums over the files, the health and the redundancy
as an extreme value of a list.  Adding a file or the totals of a subdirectory
keeps the description, so the computed totals describe all files together.
-/

import Mathlib.Algebra.GroupWithZero.Nat
import Mathlib.Data.List.Induction
import Mathlib.Order.Defs.Unbundled
import Mathlib.Tactic.Tauto
import Rollup.Totals

namespace Rollup

namespace Binary64

/-- The value is not a number, or both are numbers and stand in this relation. -/
def YieldsTo (relation : Int → Int → Prop) (value other : Binary64) : Prop :=
  value.isNaN = true ∨ other.isNaN = false ∧ relation value.position other.position

/-- One of the values to which all of them yield.  It is a number unless none of
the values is. -/
structure IsExtreme (relation : Int → Int → Prop) (values : List Binary64)
    (extreme : Binary64) : Prop where
  member : extreme ∈ values
  bound : ∀ value ∈ values, value.YieldsTo relation extreme

abbrev IsLargest : List Binary64 → Binary64 → Prop := IsExtreme (· ≤ ·)

abbrev IsSmallest : List Binary64 → Binary64 → Prop := IsExtreme (· ≥ ·)

theorem position_le_of_rank_le {left right : Binary64} (below : left.rank ≤ right.rank) :
    left.position ≤ right.position := by
  unfold rank at below
  unfold position
  by_cases leftSign : left.isNegative = true
  · rw [if_pos leftSign] at below ⊢
    by_cases rightSign : right.isNegative = true
    · rw [if_pos rightSign] at below ⊢
      omega
    · rw [if_neg rightSign]
      omega
  · rw [if_neg leftSign] at below ⊢
    by_cases rightSign : right.isNegative = true
    · rw [if_pos rightSign] at below
      omega
    · rw [if_neg rightSign] at below ⊢
      exact below

theorem rank_bounds (value : Binary64) :
    -0x8000000000000001 ≤ value.rank ∧ value.rank < 0x8000000000000000 := by
  have small : value.magnitude < 0x8000000000000000 := Nat.mod_lt _ (by decide)
  unfold rank
  split <;> omega

theorem yieldsTo_of_rankForMax_le {left right : Binary64}
    (below : left.rankForMax ≤ right.rankForMax) : left.YieldsTo (· ≤ ·) right := by
  have bits := right.bits.toNat_lt
  have bounds := left.rank_bounds
  unfold rankForMax at below
  split at below
  · rename_i leftNaN
    exact Or.inl leftNaN
  · split at below
    · omega
    · rename_i rightNumber
      exact Or.inr ⟨eq_false_of_ne_true rightNumber, position_le_of_rank_le below⟩

theorem yieldsTo_of_rankForMin_le {left right : Binary64}
    (below : left.rankForMin ≤ right.rankForMin) : right.YieldsTo (· ≥ ·) left := by
  have bounds := right.rank_bounds
  unfold rankForMin at below
  split at below
  · split at below
    · rename_i rightNaN
      exact Or.inl rightNaN
    · omega
  · rename_i leftNumber
    split at below
    · rename_i rightNaN
      exact Or.inl rightNaN
    · exact Or.inr ⟨eq_false_of_ne_true leftNumber, position_le_of_rank_le below⟩

theorem max_cases (left right : Binary64) :
    left.max right = left ∧ right.YieldsTo (· ≤ ·) left ∨
      left.max right = right ∧ left.YieldsTo (· ≤ ·) right := by
  unfold max
  split
  · rename_i below
    exact Or.inr ⟨rfl, yieldsTo_of_rankForMax_le (Int.le_of_lt below)⟩
  · rename_i notBelow
    exact Or.inl ⟨rfl, yieldsTo_of_rankForMax_le (Int.not_lt.mp notBelow)⟩

theorem min_cases (left right : Binary64) :
    left.min right = left ∧ right.YieldsTo (· ≥ ·) left ∨
      left.min right = right ∧ left.YieldsTo (· ≥ ·) right := by
  unfold min
  split
  · rename_i below
    exact Or.inr ⟨rfl, yieldsTo_of_rankForMin_le (Int.le_of_lt below)⟩
  · rename_i notBelow
    exact Or.inl ⟨rfl, yieldsTo_of_rankForMin_le (Int.not_lt.mp notBelow)⟩

section Extremes

variable {relation : Int → Int → Prop} {values others : List Binary64} {left right : Binary64}

theorem YieldsTo.trans [IsTrans Int relation] {value middle : Binary64}
    (first : value.YieldsTo relation middle) (second : middle.YieldsTo relation right) :
    value.YieldsTo relation right := by
  rcases first with notNumber | ⟨middleNumber, firstRelated⟩
  · exact Or.inl notNumber
  · rcases second with middleNaN | ⟨rightNumber, secondRelated⟩
    · rw [middleNumber] at middleNaN
      cases middleNaN
    · exact Or.inr ⟨rightNumber, IsTrans.trans _ _ _ firstRelated secondRelated⟩

theorem isExtreme_singleton [Std.Refl relation] (value : Binary64) :
    IsExtreme relation [value] value where
  member := List.mem_singleton_self value
  bound := by
    intro other member
    rw [List.mem_singleton.mp member]
    cases number : value.isNaN with
    | true => exact Or.inl number
    | false => exact Or.inr ⟨number, Std.Refl.refl _⟩

/-- Only which values there are matters. -/
theorem IsExtreme.congr (extreme : IsExtreme relation values left)
    (same : ∀ value, value ∈ others ↔ value ∈ values) : IsExtreme relation others left where
  member := (same left).mpr extreme.member
  bound := fun value member => extreme.bound value ((same value).mp member)

theorem IsExtreme.append [IsTrans Int relation] {winner : Binary64}
    (leftExtreme : IsExtreme relation values left) (rightExtreme : IsExtreme relation others right)
    (chosen : winner = left ∧ right.YieldsTo relation left ∨
      winner = right ∧ left.YieldsTo relation right) :
    IsExtreme relation (values ++ others) winner := by
  rcases chosen with ⟨rfl, yields⟩ | ⟨rfl, yields⟩
  · refine ⟨List.mem_append_left _ leftExtreme.member, fun value member => ?_⟩
    rcases List.mem_append.mp member with inLeft | inRight
    · exact leftExtreme.bound value inLeft
    · exact (rightExtreme.bound value inRight).trans yields
  · refine ⟨List.mem_append_right _ rightExtreme.member, fun value member => ?_⟩
    rcases List.mem_append.mp member with inLeft | inRight
    · exact (leftExtreme.bound value inLeft).trans yields
    · exact rightExtreme.bound value inRight

end Extremes

/-- The smallest of the values, or nothing when there are none. -/
def IsSmallest? (values : List Binary64) : Option Binary64 → Prop
  | none => values = []
  | some least => IsSmallest values least

theorem IsSmallest?.congr {values others : List Binary64} {least : Option Binary64}
    (smallest : IsSmallest? values least) (same : others.Perm values) :
    IsSmallest? others least := by
  cases least with
  | none =>
      have empty : values = [] := smallest
      rw [empty] at same
      exact same.eq_nil
  | some least => exact IsExtreme.congr smallest fun _ => same.mem_iff

end Binary64

namespace Totals

open Binary64

/-- The totals are the statistics of these files and of so many subdirectories.
The sums are kept as 64-bit words. -/
structure Summarises (totals : Totals) (records : List FileRecord) (count : Nat) : Prop where
  size : totals.size = UInt64.ofNat (records.map fun file => file.size.toNat).sum
  files : totals.files = UInt64.ofNat records.length
  subdirs : totals.subdirs = UInt64.ofNat count
  health : IsLargest (Binary64.zero :: records.map FileRecord.health) totals.health
  redundancy : IsSmallest? (records.map FileRecord.redundancy) totals.redundancy

theorem leastRedundancy_isSmallest {values others : List Binary64} {current : Option Binary64}
    {candidate : Binary64} (currentSmallest : IsSmallest? values current)
    (candidateSmallest : IsSmallest others candidate) :
    IsSmallest (values ++ others) (leastRedundancy current candidate) := by
  cases current with
  | none =>
      have empty : values = [] := currentSmallest
      rw [empty]
      exact candidateSmallest
  | some least => exact IsExtreme.append currentSmallest candidateSmallest (least.min_cases candidate)

theorem summarises_start (now : UInt64) : (start now).Summarises [] 0 where
  size := rfl
  files := rfl
  subdirs := rfl
  health := isExtreme_singleton Binary64.zero
  redundancy := rfl

namespace Summarises

variable {totals subdirectory : Totals} {files others : List FileRecord} {subdirs deeper : Nat}

/-- Without overflow the sums are the sums. -/
theorem toNat_eq (summarises : totals.Summarises files subdirs)
    (sizeFits : (files.map fun file => file.size.toNat).sum < 2 ^ 64)
    (filesFit : files.length < 2 ^ 64) (subdirsFit : subdirs < 2 ^ 64) :
    totals.size.toNat = (files.map fun file => file.size.toNat).sum ∧
      totals.files.toNat = files.length ∧ totals.subdirs.toNat = subdirs := by
  rw [summarises.size, summarises.files, summarises.subdirs]
  exact ⟨UInt64.toNat_ofNat_of_lt sizeFits, UInt64.toNat_ofNat_of_lt filesFit,
    UInt64.toNat_ofNat_of_lt subdirsFit⟩

theorem perm (summarises : totals.Summarises files subdirs) (same : others.Perm files) :
    totals.Summarises others subdirs where
  size := by rw [summarises.size, (same.map _).sum_nat]
  files := by rw [summarises.files, same.length_eq]
  subdirs := summarises.subdirs
  health := summarises.health.congr fun _ => ((same.map _).cons _).mem_iff
  redundancy := summarises.redundancy.congr (same.map _)

theorem addFile (summarises : totals.Summarises files subdirs) (file : FileRecord) :
    (totals.addFile file).Summarises (files ++ [file]) subdirs where
  size := by
    rw [List.map_append, List.sum_append, List.map_singleton, List.sum_singleton,
      UInt64.ofNat_add, UInt64.ofNat_toNat, ← summarises.size]
    rfl
  files := by
    rw [List.length_append, List.length_singleton, UInt64.ofNat_add, ← summarises.files]
    rfl
  subdirs := summarises.subdirs
  health := by
    rw [List.map_append]
    exact summarises.health.append (isExtreme_singleton file.health) (max_cases _ _)
  redundancy := by
    rw [List.map_append]
    exact leastRedundancy_isSmallest summarises.redundancy (isExtreme_singleton file.redundancy)

theorem addSubdirectory (summarises : totals.Summarises files subdirs)
    (below : subdirectory.Summarises others deeper) :
    (totals.addSubdirectory subdirectory).Summarises (files ++ others)
      (subdirs + (1 + deeper)) where
  size := by
    rw [List.map_append, List.sum_append, UInt64.ofNat_add, ← summarises.size, ← below.size]
    rfl
  files := by
    rw [List.length_append, UInt64.ofNat_add, ← summarises.files, ← below.files]
    rfl
  subdirs := by
    rw [UInt64.ofNat_add, UInt64.ofNat_add, ← summarises.subdirs, ← below.subdirs]
    rfl
  health := by
    refine (summarises.health.append below.health (max_cases _ _)).congr fun value => ?_
    simp only [List.map_append, List.mem_cons, List.mem_append]
    tauto
  redundancy := by
    rw [List.map_append]
    have smallest := below.redundancy
    unfold Totals.addSubdirectory
    cases least : subdirectory.redundancy with
    | none =>
        rw [least] at smallest
        have empty : others.map FileRecord.redundancy = [] := smallest
        rw [empty, List.append_nil]
        exact summarises.redundancy
    | some candidate =>
        rw [least] at smallest
        exact leastRedundancy_isSmallest summarises.redundancy smallest

end Summarises

/-- The computed totals describe the files together with those of all
subdirectories, and count the subdirectories and all that is below them. -/
theorem summarises_compute (files : List FileRecord) (now : UInt64)
    {parts : List (List FileRecord × Nat)} {subdirectories : List Totals}
    (each : List.Forall₂ (fun part totals => Summarises totals part.1 part.2) parts
      subdirectories) :
    (compute files subdirectories now).Summarises (files ++ parts.flatMap Prod.fst)
      (parts.map fun part => 1 + part.2).sum := by
  have overFiles : (files.foldl Totals.addFile (start now)).Summarises files 0 := by
    induction files using List.reverseRecOn with
    | nil => exact summarises_start now
    | append_singleton earlier file inductionHypothesis =>
        rw [List.foldl_append]
        exact inductionHypothesis.addFile file
  have overSubdirectories {totals : Totals} {counted : List FileRecord} {subdirs : Nat}
      (summarises : totals.Summarises counted subdirs) :
      (subdirectories.foldl Totals.addSubdirectory totals).Summarises
        (counted ++ parts.flatMap Prod.fst)
        (subdirs + (parts.map fun part => 1 + part.2).sum) := by
    induction each generalizing totals counted subdirs with
    | nil => simpa using summarises
    | cons here _ inductionHypothesis =>
        have added := inductionHypothesis (summarises.addSubdirectory here)
        rw [List.append_assoc, Nat.add_assoc] at added
        exact added
  have summarises := overSubdirectories overFiles
  rw [Nat.zero_add] at summarises
  exact summarises

end Totals

end Rollup

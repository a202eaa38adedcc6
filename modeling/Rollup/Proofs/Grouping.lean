/-
Totals in any order and grouping.

What goes into the totals of a directory are sums of the figures of its files and
of its subdirectories and extreme values of the listed healths and redundancies.
None of this has an order.  Moving files and subdirectories into a subdirectory of
their own replaces their figures by those of the totals computed for it, so
afterwards only that subdirectory itself counts in addition.
-/

import Mathlib.Order.RelClasses
import Rollup.Proofs.Statistics

namespace Rollup

namespace Binary64

section Extremes

variable {relation : Int → Int → Prop} {values others : List Binary64} {left right : Binary64}

theorem YieldsTo.sameNumber [Std.Antisymm relation] (forth : left.YieldsTo relation right)
    (back : right.YieldsTo relation left) : left.sameNumber right = true := by
  rcases forth with leftNaN | ⟨rightNumber, forthRelated⟩
  · rcases back with rightNaN | ⟨leftNumber, _⟩
    · simp [Binary64.sameNumber, leftNaN, rightNaN]
    · rw [leftNaN] at leftNumber
      cases leftNumber
  · rcases back with rightNaN | ⟨leftNumber, backRelated⟩
    · rw [rightNumber] at rightNaN
      cases rightNaN
    · have samePosition := Std.Antisymm.antisymm _ _ forthRelated backRelated
      simp [Binary64.sameNumber, leftNumber, rightNumber, samePosition]

theorem IsExtreme.sameNumber [Std.Antisymm relation] (extreme : IsExtreme relation values left)
    (other : IsExtreme relation values right) : left.sameNumber right = true := by
  have forth := other.bound left extreme.member
  exact forth.sameNumber (extreme.bound right other.member)

/-- An extreme value of some of the values stands for all of these. -/
theorem IsExtreme.replace [IsTrans Int relation] {inner : Binary64}
    (extreme : IsExtreme relation (inner :: values) left)
    (innerExtreme : IsExtreme relation others inner) :
    IsExtreme relation (others ++ values) left where
  member := by
    apply List.mem_append.mpr
    rcases List.mem_cons.mp extreme.member with same | member
    · rw [same]
      exact Or.inl innerExtreme.member
    · exact Or.inr member
  bound := by
    intro value position
    rcases List.mem_append.mp position with inOthers | inValues
    · have yieldsInner := innerExtreme.bound value inOthers
      exact yieldsInner.trans (extreme.bound inner List.mem_cons_self)
    · exact extreme.bound value (List.mem_cons_of_mem _ inValues)

end Extremes

/-- The same number, or no value on both sides. -/
abbrev SameNumber? : Option Binary64 → Option Binary64 → Prop :=
  Option.Rel fun left right => left.sameNumber right = true

theorem IsSmallest?.sameNumber? {values : List Binary64} {left right : Option Binary64}
    (smallest : IsSmallest? values left) (other : IsSmallest? values right) :
    SameNumber? left right := by
  cases left with
  | none =>
      have empty : values = [] := smallest
      cases right with
      | none => exact .none
      | some least =>
          have member := IsExtreme.member other
          rw [empty] at member
          cases member
  | some least =>
      cases right with
      | none =>
          have empty : values = [] := other
          have member := IsExtreme.member smallest
          rw [empty] at member
          cases member
      | some otherLeast => exact .some (IsExtreme.sameNumber smallest other)

theorem IsSmallest?.replace {values others : List Binary64} {inner least : Option Binary64}
    (smallest : IsSmallest? (inner.toList ++ values) least)
    (innerSmallest : IsSmallest? others inner) : IsSmallest? (others ++ values) least := by
  cases inner with
  | none =>
      have empty : others = [] := innerSmallest
      rw [empty]
      exact smallest
  | some innerLeast =>
      cases least with
      | none => cases smallest
      | some least => exact IsExtreme.replace smallest innerSmallest

end Binary64

namespace Totals

open Binary64

/-! ### What goes into the totals -/

/-- The totals combine the figures of these files and of these subdirectories.
The sums are kept as 64-bit words. -/
structure Combines (totals : Totals) (records : List FileRecord) (subdirectories : List Totals) :
    Prop where
  size : totals.size = UInt64.ofNat
    ((records.map fun file => file.size.toNat).sum +
      (subdirectories.map fun below => below.size.toNat).sum)
  files : totals.files = UInt64.ofNat
    (records.length + (subdirectories.map fun below => below.files.toNat).sum)
  subdirs : totals.subdirs = UInt64.ofNat
    (subdirectories.map fun below => 1 + below.subdirs.toNat).sum
  health : IsLargest
    (Binary64.zero :: (records.map FileRecord.health ++ subdirectories.map Totals.health))
    totals.health
  redundancy : IsSmallest?
    (records.map FileRecord.redundancy ++ subdirectories.filterMap Totals.redundancy)
    totals.redundancy

/-- The totals agree in all that is known of the files.  A NaN is the same as any
other, and so is a zero. -/
structure SameStatistics (left right : Totals) : Prop where
  size : left.size = right.size
  files : left.files = right.files
  health : left.health.sameNumber right.health = true
  redundancy : SameNumber? left.redundancy right.redundancy

/-- A property of computed totals follows the two loops: first the files, then the
subdirectories. -/
theorem compute_induction {motive : List FileRecord → List Totals → Totals → Prop} (now : UInt64)
    (start : motive [] [] (start now))
    (addFile : ∀ files totals file, motive files [] totals →
      motive (files ++ [file]) [] (totals.addFile file))
    (addSubdirectory : ∀ files subdirectories totals subdirectory,
      motive files subdirectories totals →
        motive files (subdirectories ++ [subdirectory]) (totals.addSubdirectory subdirectory))
    (files : List FileRecord) (subdirectories : List Totals) :
    motive files subdirectories (compute files subdirectories now) := by
  have overFiles : motive files [] (files.foldl Totals.addFile (Totals.start now)) := by
    induction files using List.reverseRecOn with
    | nil => exact start
    | append_singleton earlier file inductionHypothesis =>
        rw [List.foldl_append]
        exact addFile earlier _ file inductionHypothesis
  unfold compute
  induction subdirectories using List.reverseRecOn with
  | nil => exact overFiles
  | append_singleton earlier subdirectory inductionHypothesis =>
      rw [List.foldl_append]
      exact addSubdirectory files earlier _ subdirectory inductionHypothesis

namespace Combines

variable {totals other inner : Totals}
variable {files others : List FileRecord} {subdirectories below : List Totals}

protected theorem start (now : UInt64) : (start now).Combines [] [] where
  size := rfl
  files := rfl
  subdirs := rfl
  health := isExtreme_singleton Binary64.zero
  redundancy := rfl

theorem addFile (combines : totals.Combines files []) (file : FileRecord) :
    (totals.addFile file).Combines (files ++ [file]) [] where
  size := by
    have sum := combines.size
    rw [List.map_nil, List.sum_nil, Nat.add_zero] at sum ⊢
    rw [List.map_append, List.sum_append, List.map_singleton, List.sum_singleton,
      UInt64.ofNat_add, UInt64.ofNat_toNat, ← sum]
    rfl
  files := by
    have sum := combines.files
    rw [List.map_nil, List.sum_nil, Nat.add_zero] at sum ⊢
    rw [List.length_append, List.length_singleton, UInt64.ofNat_add, ← sum]
    rfl
  subdirs := combines.subdirs
  health := by
    have largest := combines.health
    rw [List.map_nil, List.append_nil] at largest ⊢
    rw [List.map_append]
    exact largest.append (isExtreme_singleton file.health) (max_cases _ _)
  redundancy := by
    have smallest := combines.redundancy
    rw [List.filterMap_nil, List.append_nil] at smallest ⊢
    rw [List.map_append]
    exact leastRedundancy_isSmallest smallest (isExtreme_singleton file.redundancy)

theorem addSubdirectory (combines : totals.Combines files subdirectories) (subdirectory : Totals) :
    (totals.addSubdirectory subdirectory).Combines files (subdirectories ++ [subdirectory]) where
  size := by
    rw [List.map_append, List.sum_append, List.map_singleton, List.sum_singleton, ← Nat.add_assoc,
      UInt64.ofNat_add, UInt64.ofNat_toNat, ← combines.size]
    rfl
  files := by
    rw [List.map_append, List.sum_append, List.map_singleton, List.sum_singleton, ← Nat.add_assoc,
      UInt64.ofNat_add, UInt64.ofNat_toNat, ← combines.files]
    rfl
  subdirs := by
    rw [List.map_append, List.sum_append, List.map_singleton, List.sum_singleton, UInt64.ofNat_add,
      UInt64.ofNat_add, UInt64.ofNat_toNat, ← combines.subdirs]
    rfl
  health := by
    rw [List.map_append, ← List.append_assoc, ← List.cons_append]
    exact combines.health.append (isExtreme_singleton subdirectory.health) (max_cases _ _)
  redundancy := by
    rw [List.filterMap_append, ← List.append_assoc]
    have smallest := combines.redundancy
    unfold Totals.addSubdirectory
    cases least : subdirectory.redundancy with
    | none =>
        rw [List.filterMap_cons, least, List.filterMap_nil, List.append_nil]
        exact smallest
    | some candidate =>
        rw [List.filterMap_cons, least, List.filterMap_nil]
        exact leastRedundancy_isSmallest smallest (isExtreme_singleton candidate)

theorem perm (combines : totals.Combines files subdirectories) (sameFiles : others.Perm files)
    (sameBelow : below.Perm subdirectories) : totals.Combines others below where
  size := by rw [combines.size, (sameFiles.map _).sum_nat, (sameBelow.map _).sum_nat]
  files := by rw [combines.files, sameFiles.length_eq, (sameBelow.map _).sum_nat]
  subdirs := by rw [combines.subdirs, (sameBelow.map _).sum_nat]
  health := by
    apply combines.health.congr
    exact fun _ => (((sameFiles.map _).append (sameBelow.map _)).cons _).mem_iff
  redundancy := combines.redundancy.congr ((sameFiles.map _).append (sameBelow.filterMap _))

theorem sameStatistics (combines : totals.Combines files subdirectories)
    (also : other.Combines files subdirectories) : totals.SameStatistics other where
  size := combines.size.trans also.size.symm
  files := combines.files.trans also.files.symm
  health := combines.health.sameNumber also.health
  redundancy := combines.redundancy.sameNumber? also.redundancy

/-- A subdirectory can be dissolved into what it combines. -/
theorem sameStatistics_of_dissolved (combines : totals.Combines files (inner :: subdirectories))
    (innerCombines : inner.Combines others below)
    (flat : other.Combines (files ++ others) (subdirectories ++ below)) :
    totals.SameStatistics other where
  size := by
    rw [combines.size, flat.size, List.map_cons, List.sum_cons, innerCombines.size]
    simp only [List.map_append, List.sum_append, UInt64.ofNat_add, UInt64.ofNat_toNat]
    ac_rfl
  files := by
    rw [combines.files, flat.files, List.map_cons, List.sum_cons, innerCombines.files]
    simp only [List.map_append, List.sum_append, List.length_append, UInt64.ofNat_add,
      UInt64.ofNat_toNat]
    ac_rfl
  health := by
    have first : IsLargest
        (inner.health ::
          (Binary64.zero :: (files.map FileRecord.health ++ subdirectories.map Totals.health)))
        totals.health := by
      apply combines.health.congr
      intro value
      simp only [List.map_cons, List.mem_cons, List.mem_append]
      tauto
    have largest := first.replace innerCombines.health
    apply IsExtreme.sameNumber (largest.congr ?_) flat.health
    intro value
    simp only [List.map_append, List.mem_cons, List.mem_append]
    tauto
  redundancy := by
    have first : IsSmallest?
        (inner.redundancy.toList ++
          (files.map FileRecord.redundancy ++ subdirectories.filterMap Totals.redundancy))
        totals.redundancy := by
      have listed : (inner :: subdirectories).filterMap Totals.redundancy =
          inner.redundancy.toList ++ subdirectories.filterMap Totals.redundancy := by
        cases least : inner.redundancy <;> simp [least]
      apply combines.redundancy.congr
      rw [listed]
      exact List.perm_append_comm_assoc _ _ _
    have smallest := first.replace innerCombines.redundancy
    apply IsSmallest?.sameNumber? (smallest.congr ?_) flat.redundancy
    apply List.perm_iff_count.mpr
    intro value
    simp only [List.map_append, List.filterMap_append, List.count_append]
    omega

theorem subdirs_of_dissolved (combines : totals.Combines files (inner :: subdirectories))
    (innerCombines : inner.Combines others below)
    (flat : other.Combines (files ++ others) (subdirectories ++ below)) :
    totals.subdirs = other.subdirs + 1 := by
  have one : (1 : UInt64) = UInt64.ofNat 1 := rfl
  rw [combines.subdirs, flat.subdirs, List.map_cons, List.sum_cons, innerCombines.subdirs, one]
  simp only [List.map_append, List.sum_append, UInt64.ofNat_add, UInt64.ofNat_toNat]
  ac_rfl

end Combines

theorem combines_compute (files : List FileRecord) (subdirectories : List Totals) (now : UInt64) :
    (compute files subdirectories now).Combines files subdirectories := by
  induction files, subdirectories using compute_induction now with
  | start => exact Combines.start now
  | addFile files totals file combines => exact combines.addFile file
  | addSubdirectory files subdirectories totals subdirectory combines =>
      exact combines.addSubdirectory subdirectory

theorem refreshed_compute (files : List FileRecord) (subdirectories : List Totals) (now : UInt64) :
    (compute files subdirectories now).refreshed = now := by
  induction files, subdirectories using compute_induction now with
  | start => rfl
  | addFile _ _ _ same => exact same
  | addSubdirectory _ _ _ _ same => exact same

/-- Files and subdirectories may be listed in any order.  Moving some of them into
a subdirectory, wherever that is listed, changes nothing but the number of
subdirectories, which is larger by one.  Healths and redundancies may be any values.
Sums are taken in 64 bits; as a number the count is larger by one if that much fits. -/
theorem compute_independent_of_grouping (first second : List FileRecord)
    (above below : List Totals) (now inner : UInt64) :
    (∀ files subdirectories, files.Perm first → subdirectories.Perm above →
      let permuted := compute files subdirectories now
      let listed := compute first above now
      permuted.SameStatistics listed ∧ permuted.subdirs = listed.subdirs ∧
        permuted.refreshed = listed.refreshed) ∧
    ∀ subdirectories, subdirectories.Perm (compute second below inner :: above) →
      let grouped := compute first subdirectories now
      let flat := compute (first ++ second) (above ++ below) now
      grouped.SameStatistics flat ∧ grouped.subdirs = flat.subdirs + 1 ∧
        (((above ++ below).map fun listed => 1 + listed.subdirs.toNat).sum + 1 < 2 ^ 64 →
          grouped.subdirs.toNat = flat.subdirs.toNat + 1) := by
  constructor
  · intro files subdirectories sameFiles sameBelow permuted listed
    have combines : permuted.Combines first above :=
      (combines_compute files subdirectories now).perm sameFiles.symm sameBelow.symm
    have also : listed.Combines first above := combines_compute first above now
    refine ⟨combines.sameStatistics also, combines.subdirs.trans also.subdirs.symm, ?_⟩
    exact (refreshed_compute files subdirectories now).trans (refreshed_compute first above now).symm
  · intro subdirectories same grouped flat
    have combines : grouped.Combines first (compute second below inner :: above) :=
      (combines_compute first subdirectories now).perm (List.Perm.refl first) same.symm
    have innerCombines := combines_compute second below inner
    have flatCombines : flat.Combines (first ++ second) (above ++ below) := combines_compute _ _ now
    have oneMore := combines.subdirs_of_dissolved innerCombines flatCombines
    refine ⟨combines.sameStatistics_of_dissolved innerCombines flatCombines, oneMore, ?_⟩
    intro fits
    have exactly : flat.subdirs.toNat =
        ((above ++ below).map fun listed => 1 + listed.subdirs.toNat).sum := by
      rw [flatCombines.subdirs]
      exact UInt64.toNat_ofNat_of_lt (Nat.lt_of_succ_lt fits)
    rw [oneMore, UInt64.toNat_add, exactly]
    exact Nat.mod_eq_of_lt fits

/-- A file that is not a number in either respect, beside an empty subdirectory. -/
example :
    compute [⟨1, Binary64.nan, Binary64.nan⟩] [compute [] [] 5] 9 =
      { size := 1, files := 1, subdirs := 1, health := Binary64.zero,
        redundancy := some Binary64.nan, refreshed := 9 } := by
  decide

end Totals

end Rollup

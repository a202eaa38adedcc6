/-
What stored totals satisfy at any time.

Between mutations and recomputations the totals of a directory mix what is there with
what was there.  They stay plausible all the same: the health is a number and not below
zero, there is a redundancy exactly if files are counted, without files nothing else is
counted either, and no more subdirectories are counted than there are.  Totals computed
from plausible totals are plausible, and mutations leave totals alone and only add
directories.
-/

import Mathlib.Logic.Relation
import Mathlib.Data.List.Perm.Subperm
import Rollup.Proofs.Exactness
import Rollup.Proofs.Grouping
import Rollup.Proofs.Mutations
import Rollup.Proofs.Placement

namespace Rollup

theorem Binary64.IsSmallest?.eq_none_iff {values : List Binary64} {least : Option Binary64}
    (smallest : IsSmallest? values least) : least = none ↔ values = [] := by
  cases least with
  | none =>
      have empty : values = [] := smallest
      simp [empty]
  | some value =>
      have member : value ∈ values := IsExtreme.member smallest
      simp [List.ne_nil_of_mem member]

/-! ### Plausible totals -/

namespace Totals

/-- Totals that a directory can have when there are so many directories below it. -/
structure Plausible (totals : Totals) (below : Nat) : Prop where
  isNumber : totals.health.isNaN = false
  isBounded : 0 ≤ totals.health.position
  redundancy : totals.redundancy = none ↔ totals.files = 0
  nothing : totals.files = 0 → totals.size = 0 ∧ totals.health = Binary64.zero
  subdirs : totals.subdirs.toNat ≤ below

theorem plausible_initial (below : Nat) : initial.Plausible below where
  isNumber := rfl
  isBounded := Int.le_refl _
  redundancy := by decide
  nothing := fun _ => ⟨rfl, rfl⟩
  subdirs := Nat.zero_le _

theorem Plausible.mono {totals : Totals} {below more : Nat} (isPlausible : totals.Plausible below)
    (atMost : below ≤ more) : totals.Plausible more :=
  { isPlausible with subdirs := isPlausible.subdirs.trans atMost }

/-- The number of files that computed totals count, before it is put into a word. -/
def fileCount (files : List FileRecord) (subdirectories : List Totals) : Nat :=
  files.length + (subdirectories.map fun below => below.files.toNat).sum

section Compute

variable {files : List FileRecord} {subdirectories : List Totals} {bounds : List Nat}
variable (now : UInt64)

theorem files_compute_eq_zero_iff (fits : fileCount files subdirectories < 2 ^ 64) :
    (compute files subdirectories now).files = 0 ↔
      files = [] ∧ ∀ below ∈ subdirectories, below.files = 0 := by
  have count : (compute files subdirectories now).files.toNat = fileCount files subdirectories := by
    rw [(combines_compute files subdirectories now).files]
    exact UInt64.toNat_ofNat_of_lt fits
  have none (word : UInt64) : word = 0 ↔ word.toNat = 0 := UInt64.toNat_inj.symm
  simp only [none, count, fileCount, Nat.add_eq_zero_iff, List.length_eq_zero_iff,
    List.sum_eq_zero_iff, List.forall_mem_map]

theorem subdirs_compute_le
    (each : List.Forall₂ (fun bound below => below.subdirs.toNat ≤ bound) bounds subdirectories) :
    (compute files subdirectories now).subdirs.toNat ≤ (bounds.map (1 + ·)).sum := by
  have counted : (subdirectories.map fun below => 1 + below.subdirs.toNat).sum ≤
      (bounds.map (1 + ·)).sum := by
    induction each with
    | nil => exact Nat.le_refl _
    | cons here _ inductionHypothesis =>
        simp only [List.map_cons, List.sum_cons]
        omega
  rw [(combines_compute files subdirectories now).subdirs, UInt64.toNat_ofNat']
  exact (Nat.mod_le _ _).trans counted

/-- Totals computed from plausible totals are plausible, if the number of files fits. -/
theorem plausible_compute (allPlausible : ∀ below ∈ subdirectories, ∃ bound, below.Plausible bound)
    (each : List.Forall₂ (fun bound below => below.subdirs.toNat ≤ bound) bounds subdirectories)
    (fits : fileCount files subdirectories < 2 ^ 64) :
    (compute files subdirectories now).Plausible (bounds.map (1 + ·)).sum := by
  have combines := combines_compute files subdirectories now
  have aboveZero : Binary64.zero.YieldsTo (· ≤ ·) (compute files subdirectories now).health :=
    combines.health.bound _ List.mem_cons_self
  obtain ⟨isNumber, isBounded⟩ := aboveZero.resolve_left (by decide)
  constructor
  · exact isNumber
  · exact isBounded
  · rw [combines.redundancy.eq_none_iff, files_compute_eq_zero_iff now fits,
      List.append_eq_nil_iff, List.map_eq_nil_iff, List.filterMap_eq_nil_iff]
    refine and_congr_right fun _ => forall₂_congr fun below member => ?_
    obtain ⟨_, belowPlausible⟩ := allPlausible below member
    exact belowPlausible.redundancy
  · intro none
    obtain ⟨noFiles, noneBelow⟩ := (files_compute_eq_zero_iff now fits).mp none
    have nothingBelow : ∀ below ∈ subdirectories, below.size = 0 ∧ below.health = Binary64.zero := by
      intro below member
      obtain ⟨_, belowPlausible⟩ := allPlausible below member
      exact belowPlausible.nothing (noneBelow below member)
    subst noFiles
    constructor
    · have noSize : (subdirectories.map fun below => below.size.toNat).sum = 0 := by
        apply List.sum_eq_zero_iff.mpr
        rw [List.forall_mem_map]
        intro below member
        rw [(nothingBelow below member).1]
        rfl
      rw [combines.size, noSize]
      rfl
    · rcases List.mem_cons.mp combines.health.member with isZero | isBelow
      · exact isZero
      · obtain ⟨below, member, same⟩ := List.mem_map.mp isBelow
        rw [← same]
        exact (nothingBelow below member).2
  · exact subdirs_compute_le now each

end Compute

end Totals

/-! ### Plausible trees -/

namespace Directories

/-- The files counted when a directory is recomputed fit into a 64-bit word. -/
def CountFits (directories : Directories) (path : Path) : Prop :=
  let node := directories.nodeAt path
  Totals.fileCount node.files.values (directories.listedTotals path node) < 2 ^ 64

instance (directories : Directories) (path : Path) : Decidable (directories.CountFits path) :=
  inferInstanceAs (Decidable (Totals.fileCount _ _ < 2 ^ 64))

/-- All stored totals are plausible. -/
def Plausible (directories : Directories) : Prop :=
  ∀ path node, directories.get? path = some node →
    node.totals.Plausible (directories.strictlyWithin path).length

theorem length_strictlyWithin_le {left right : Directories}
    (kept : ∀ path ∈ left, path ∈ right) (path : Path) :
    (left.strictlyWithin path).length ≤ (right.strictlyWithin path).length := by
  apply List.Subperm.length_le
  apply (left.nodup_strictlyWithin path).subperm
  intro other member
  obtain ⟨present, inside⟩ := mem_strictlyWithin_iff.mp member
  exact mem_strictlyWithin_iff.mpr ⟨kept other present, inside⟩

end Directories

namespace Tree

/-- One operation on a tree. -/
inductive Step : Tree → Tree → Prop
  | upsert {tree updated : Tree} {file : String} {record : FileRecord} {directory : Path}
      (stored : (tree.upsertFile file record).value = .ok (directory, updated)) :
      Step tree updated
  | remove {tree updated : Tree} {file : String} {directory : Path}
      (removed : (tree.removeFile file).value = .ok (directory, updated)) : Step tree updated
  | recompute {tree updated : Tree} {now : UInt64} {path : Path}
      (fits : tree.directories.CountFits path)
      (recomputed : (tree.recompute now path).value = .ok updated) : Step tree updated

abbrev Runs : Tree → Tree → Prop := Relation.ReflTransGen Step

/-- The tree is well formed and its totals are plausible. -/
structure Sound (tree : Tree) : Prop where
  wellFormed : tree.directories.WellFormed
  allPlausible : tree.directories.Plausible

namespace Sound

variable {tree updated : Tree}

protected theorem fresh : Sound Tree.fresh where
  wellFormed := wellFormed_fresh
  allPlausible := by
    intro path node found
    have isRoot := eq_root_of_mem_fresh (OrderedMap.mem_of_get? found)
    rw [get?_fresh, if_pos isRoot] at found
    cases found
    exact Totals.plausible_initial _

/-- A mutation leaves the totals of all directories alone, and new ones have none. -/
theorem mutate (sound : tree.Sound) {mutation : Mutation} {directory : Path}
    (mutated : (Workspace.mutateTree tree mutation).value = .ok (directory, updated)) :
    updated.Sound where
  wellFormed := (Workspace.touched_of_mutateTree mutated).wellFormed sound.wellFormed
  allPlausible := by
    intro path node found
    have kept := (Workspace.touched_of_mutateTree mutated).kept
    have totals := (Workspace.performed_of_ok mutated).mutated.totals path
    rw [Directories.nodeAt_of_get? found] at totals
    rw [totals]
    by_cases member : path ∈ tree.directories
    · obtain ⟨before, foundBefore⟩ := OrderedMap.mem_iff_get?.mp member
      rw [Directories.nodeAt_of_get? foundBefore]
      exact (sound.allPlausible path before foundBefore).mono
        (Directories.length_strictlyWithin_le kept path)
    · rw [Directories.nodeAt_of_not_mem member]
      exact Totals.plausible_initial _

/-- A recomputation computes plausible totals for one directory. -/
theorem recompute (sound : tree.Sound) {now : UInt64} {path : Path}
    (fits : tree.directories.CountFits path) (recomputed : Recomputed now tree path updated) :
    updated.Sound where
  wellFormed := sound.wellFormed.of_agreeOn (recomputed.contents.comp Prod.snd)
  allPlausible := by
    intro other node found
    have same : (updated.directories.strictlyWithin other).length =
        (tree.directories.strictlyWithin other).length := by
      apply Directories.AlikeWithin.length_strictlyWithin
      exact fun inner _ => (recomputed.contents.comp Prod.fst inner).symm
    rw [same]
    by_cases isHere : other = path
    · subst isHere
      obtain ⟨before, foundBefore⟩ :=
        OrderedMap.mem_iff_get?.mp (Directories.mem_of_obstacle?_eq_none recomputed.clear)
      rw [recomputed.here before foundBefore] at found
      cases found
      obtain ⟨children, joined, isChild⟩ := sound.wellFormed.joinAll foundBefore
      have distinct : children.Nodup := Path.nodup_joinAll joined (OrderedSet.nodup_members _)
      have counted : Totals.fileCount before.files.values
          (tree.directories.listedTotals other before) < 2 ^ 64 := by
        rw [← Directories.nodeAt_of_get? foundBefore]
        exact fits
      rw [Directory.totals_setTotals,
        Directories.length_strictlyWithin sound.wellFormed distinct isChild]
      rw [Directories.listedTotals, joined] at counted ⊢
      have summed : children.map (fun child =>
            1 + (tree.directories.strictlyWithin child).length) =
          (children.map fun child => (tree.directories.strictlyWithin child).length).map (1 + ·) :=
        List.map_map.symm
      rw [summed]
      apply Totals.plausible_compute now _ _ counted
      · intro below listed
        obtain ⟨child, _, stored⟩ := List.mem_filterMap.mp listed
        obtain ⟨inner, foundInner, rfl⟩ := Option.map_eq_some_iff.mp stored
        exact ⟨_, sound.allPlausible child inner foundInner⟩
      · apply List.forall₂_map_left_iff.mpr
        apply Directories.forall₂_totals
        · exact fun child member => ((isChild child).mp member).1
        · exact fun child _ inner foundInner => (sound.allPlausible child inner foundInner).subdirs
    · rw [recomputed.others other isHere] at found
      exact sound.allPlausible other node found

theorem step (sound : tree.Sound) (step : Step tree updated) : updated.Sound := by
  cases step with
  | @upsert file record _ stored =>
      have mutated : (Workspace.mutateTree tree (.upsert file record)).value = _ := stored
      exact sound.mutate mutated
  | @remove file _ removed =>
      have mutated : (Workspace.mutateTree tree (.remove file)).value = _ := removed
      exact sound.mutate mutated
  | recompute fits recomputed => exact sound.recompute fits (recomputed_of_ok recomputed)

theorem of_runs (sound : tree.Sound) (runs : tree.Runs updated) : updated.Sound := by
  induction runs with
  | refl => exact sound
  | tail _ step inductionHypothesis => exact inductionHypothesis.step step

end Sound

/-- However mutations and recomputations of single directories follow each other, from
an empty tree on, the totals of each directory are plausible: also of those that do not
describe its files any more, or not yet. -/
theorem totals_stay_plausible {tree : Tree} (runs : fresh.Runs tree) {path : Path}
    {node : Directory} (found : tree.directories.get? path = some node) :
    node.totals.Plausible (tree.directories.strictlyWithin path).length :=
  (Sound.fresh.of_runs runs).allPlausible path node found

/-- The totals of a directory still count a file that is gone. -/
theorem totals_stay_plausible_outdated :
    ∃ path first second third node,
      (fresh.upsertFile "a/f" ⟨3, Binary64.nan, Binary64.one⟩).value = .ok (path, first) ∧
        (first.recompute 7 path).value = .ok second ∧
        (second.removeFile "a/f").value = .ok (path, third) ∧ fresh.Runs third ∧
        third.directories.get? path = some node ∧ node.files.values = [] ∧
        node.totals.files = 1 ∧
        node.totals.Plausible (third.directories.strictlyWithin path).length := by
  obtain ⟨path, first, second, third, node, stored, recomputed, removed, found, fits, outdated⟩ :
      ∃ path first second third node,
        (fresh.upsertFile "a/f" ⟨3, Binary64.nan, Binary64.one⟩).value = .ok (path, first) ∧
          (first.recompute 7 path).value = .ok second ∧
          (second.removeFile "a/f").value = .ok (path, third) ∧
          third.directories.get? path = some node ∧ first.directories.CountFits path ∧
          node.files.values = [] ∧ node.totals.files = 1 :=
    ⟨_, _, _, _, _, rfl, rfl, rfl, rfl, of_decide_eq_true rfl, rfl, rfl⟩
  have runs : fresh.Runs third :=
    ((Relation.ReflTransGen.single (.upsert stored)).tail (.recompute fits recomputed)).tail
      (.remove removed)
  exact ⟨path, first, second, third, node, stored, recomputed, removed, runs, found,
    outdated.1, outdated.2, totals_stay_plausible runs found⟩

end Tree

end Rollup

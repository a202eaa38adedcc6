/-
Exact totals.

The totals of a directory are exact when they describe the files of all
directories at or below it.  In a well-formed tree totals that are up to date
over exact children are exact, so once every directory with stale totals below
it was recomputed, all totals are exact.
-/

import Mathlib.Data.List.Nodup
import Rollup.Proofs.Statistics
import Rollup.Proofs.WellFormed

namespace Rollup
namespace Directories

def filesOf (directories : Directories) (path : Path) : List FileRecord :=
  match directories.get? path with
  | none => []
  | some node => node.files.values

/-- The directories of the tree at or below a path. -/
def within (directories : Directories) (path : Path) : List Path :=
  directories.keys.filter fun other => path ∈ other.chain

def strictlyWithin (directories : Directories) (path : Path) : List Path :=
  directories.keys.filter fun other => path.IsAncestorOf other

def filesWithin (directories : Directories) (path : Path) : List FileRecord :=
  (directories.within path).flatMap directories.filesOf

/-- The stored totals of a directory are the statistics of everything at or
below it. -/
def Exact (directories : Directories) (path : Path) : Prop :=
  ∀ node, directories.get? path = some node →
    node.totals.Summarises (directories.filesWithin path)
      (directories.strictlyWithin path).length

def AllExact (directories : Directories) : Prop := ∀ path, directories.Exact path

variable {directories left right : Directories} {path other : Path}

theorem filesOf_of_get? {node : Directory} (found : directories.get? path = some node) :
    directories.filesOf path = node.files.values := by
  rw [filesOf, found]

theorem mem_within_iff :
    other ∈ directories.within path ↔ other ∈ directories ∧ path ∈ other.chain := by
  rw [within, List.mem_filter, OrderedMap.mem_keys_iff, decide_eq_true_iff]

theorem mem_strictlyWithin_iff :
    other ∈ directories.strictlyWithin path ↔ other ∈ directories ∧ path.IsAncestorOf other := by
  rw [strictlyWithin, List.mem_filter, OrderedMap.mem_keys_iff, decide_eq_true_iff]

theorem nodup_within (directories : Directories) (path : Path) : (directories.within path).Nodup :=
  directories.nodup_keys.filter _

theorem nodup_strictlyWithin (directories : Directories) (path : Path) :
    (directories.strictlyWithin path).Nodup :=
  directories.nodup_keys.filter _

theorem within_perm (member : path ∈ directories) :
    (directories.within path).Perm (path :: directories.strictlyWithin path) := by
  have absent : path ∉ directories.strictlyWithin path := by
    intro inside
    exact path.not_isAncestorOf_self (mem_strictlyWithin_iff.mp inside).2
  have distinct := List.nodup_cons.mpr ⟨absent, directories.nodup_strictlyWithin path⟩
  apply (List.perm_ext_iff_of_nodup (directories.nodup_within path) distinct).mpr
  intro other
  rw [mem_within_iff, List.mem_cons, mem_strictlyWithin_iff, Path.mem_chain_iff]
  constructor
  · intro ⟨present, position⟩
    cases position with
    | inl same => exact Or.inl same.symm
    | inr above => exact Or.inr ⟨present, above⟩
  · intro position
    rcases position with same | ⟨present, above⟩
    · rw [same]
      exact ⟨member, Or.inl rfl⟩
    · exact ⟨present, Or.inr above⟩

/-! ### What exactness depends on -/

/-- Two trees with the same files in the directories at or below a path. -/
def AlikeWithin (left right : Directories) (path : Path) : Prop :=
  ∀ other, path ∈ other.chain →
    (left.get? other).map Directory.files = (right.get? other).map Directory.files

namespace AlikeWithin

variable (alike : AlikeWithin left right path)

include alike

private theorem mem_iff (inside : path ∈ other.chain) : other ∈ left ↔ other ∈ right := by
  have same := congrArg Option.isSome (alike other inside)
  rw [Option.isSome_map, Option.isSome_map] at same
  exact Bool.eq_iff_iff.mp same

private theorem filesOf_eq (inside : path ∈ other.chain) :
    left.filesOf other = right.filesOf other := by
  have same := alike other inside
  unfold filesOf
  cases leftFound : left.get? other with
  | none =>
      rw [leftFound, Option.map_none] at same
      rw [Option.map_eq_none_iff.mp same.symm]
  | some leftNode =>
      rw [leftFound, Option.map_some] at same
      obtain ⟨rightNode, rightFound, files⟩ := Option.map_eq_some_iff.mp same.symm
      rw [rightFound]
      exact congrArg OrderedMap.values files.symm

theorem filesWithin_perm : (left.filesWithin path).Perm (right.filesWithin path) := by
  have sameDirectories : (left.within path).Perm (right.within path) := by
    apply (List.perm_ext_iff_of_nodup (left.nodup_within path) (right.nodup_within path)).mpr
    intro other
    rw [mem_within_iff, mem_within_iff]
    exact and_congr_left alike.mem_iff
  have sameFiles : (left.within path).flatMap left.filesOf =
      (left.within path).flatMap right.filesOf :=
    List.flatMap_congr fun other member => alike.filesOf_eq (mem_within_iff.mp member).2
  rw [filesWithin, sameFiles]
  exact sameDirectories.flatMap_right _

theorem length_strictlyWithin :
    (left.strictlyWithin path).length = (right.strictlyWithin path).length := by
  apply List.Perm.length_eq
  apply (List.perm_ext_iff_of_nodup (left.nodup_strictlyWithin path)
    (right.nodup_strictlyWithin path)).mpr
  intro other
  rw [mem_strictlyWithin_iff, mem_strictlyWithin_iff]
  exact and_congr_left fun above => alike.mem_iff above.mem_chain

theorem exact (same : right.get? path = left.get? path) (before : left.Exact path) :
    right.Exact path := by
  intro node found
  rw [same] at found
  rw [← alike.length_strictlyWithin]
  exact (before node found).perm alike.filesWithin_perm.symm

end AlikeWithin

/-! ### Splitting at the children -/

section Children

variable {children : List Path}
variable (wellFormed : directories.WellFormed) (distinct : children.Nodup)
variable (isChild : ∀ child, child ∈ children ↔ child ∈ directories ∧ child.parent = .ok path)

include wellFormed isChild

private theorem isAncestorOf_iff_exists_child (member : other ∈ directories) :
    path.IsAncestorOf other ↔ ∃ child ∈ children, child ∈ other.chain := by
  constructor
  · intro above
    obtain ⟨child, upwards, step⟩ := Relation.TransGen.tail'_iff.mp above
    have inChain : child ∈ other.chain := by
      apply Path.mem_chain_iff.mpr
      cases Relation.reflTransGen_iff_eq_or_transGen.mp upwards with
      | inl same => exact Or.inl same
      | inr below => exact Or.inr below
    exact ⟨child, (isChild child).mpr ⟨wellFormed.ancestors member inChain, step⟩, inChain⟩
  · intro ⟨child, childMember, inChain⟩
    have step := ((isChild child).mp childMember).2
    exact (Path.IsAncestorOf.of_parent step).of_mem_chain inChain

include distinct

private theorem strictlyWithin_perm :
    (directories.strictlyWithin path).Perm (children.flatMap directories.within) := by
  -- no directory lies below two children
  have apart : children.Pairwise
      (Function.onFun List.Disjoint fun child => directories.within child) := by
    apply distinct.imp_of_mem
    intro left right leftMember rightMember different other inLeft inRight
    exact different (Path.eq_of_parent_eq (mem_within_iff.mp inLeft).2 (mem_within_iff.mp inRight).2
      ((isChild left).mp leftMember).2 ((isChild right).mp rightMember).2)
  have nodup : (children.flatMap directories.within).Nodup :=
    List.nodup_flatMap.mpr ⟨fun child _ => directories.nodup_within child, apart⟩
  apply (List.perm_ext_iff_of_nodup (directories.nodup_strictlyWithin path) nodup).mpr
  intro other
  rw [mem_strictlyWithin_iff, List.mem_flatMap]
  constructor
  · intro ⟨present, above⟩
    obtain ⟨child, childMember, inChain⟩ :=
      (isAncestorOf_iff_exists_child wellFormed isChild present).mp above
    exact ⟨child, childMember, mem_within_iff.mpr ⟨present, inChain⟩⟩
  · intro ⟨child, childMember, inside⟩
    obtain ⟨present, inChain⟩ := mem_within_iff.mp inside
    exact ⟨present,
      (isAncestorOf_iff_exists_child wellFormed isChild present).mpr ⟨child, childMember, inChain⟩⟩

private theorem filesWithin_perm (member : path ∈ directories) :
    (directories.filesWithin path).Perm
      (directories.filesOf path ++ children.flatMap directories.filesWithin) := by
  have split := (within_perm member).trans
    ((strictlyWithin_perm wellFormed distinct isChild).cons path)
  have files := split.flatMap_right directories.filesOf
  rw [List.flatMap_cons, List.flatMap_assoc] at files
  exact files

theorem length_strictlyWithin :
    (directories.strictlyWithin path).length =
      (children.map fun child => 1 + (directories.strictlyWithin child).length).sum := by
  rw [(strictlyWithin_perm wellFormed distinct isChild).length_eq, List.length_flatMap]
  congr 1
  apply List.map_congr_left
  intro child childMember
  rw [(within_perm ((isChild child).mp childMember).1).length_eq, List.length_cons, Nat.add_comm]

end Children

/-- What holds of the stored totals of each child holds of the list of them. -/
theorem forall₂_totals {relation : Path → Totals → Prop} {children : List Path}
    (present : ∀ child ∈ children, child ∈ directories)
    (each : ∀ child ∈ children, ∀ node, directories.get? child = some node →
      relation child node.totals) :
    List.Forall₂ relation children
      (children.filterMap fun child => (directories.get? child).map Directory.totals) := by
  induction children with
  | nil => exact .nil
  | cons child rest inductionHypothesis =>
      obtain ⟨childPresent, restPresent⟩ := List.forall_mem_cons.mp present
      obtain ⟨here, elsewhere⟩ := List.forall_mem_cons.mp each
      obtain ⟨node, found⟩ := OrderedMap.mem_iff_get?.mp childPresent
      rw [List.filterMap_cons, found]
      exact .cons (here node found) (inductionHypothesis restPresent elsewhere)

/-- Totals that are up to date over exact children are exact. -/
theorem WellFormed.exact_of_upToDate (wellFormed : directories.WellFormed)
    (upToDate : directories.UpToDate path)
    (below : ∀ child ∈ directories, child.parent = .ok path → directories.Exact child) :
    directories.Exact path := by
  intro node found
  obtain ⟨children, joined, isChild⟩ := wellFormed.joinAll found
  have distinct : children.Nodup := Path.nodup_joinAll joined (OrderedSet.nodup_members _)
  obtain ⟨now, totals⟩ := upToDate node found
  have each : List.Forall₂ (fun part totals => Totals.Summarises totals part.1 part.2)
      (children.map fun child =>
        (directories.filesWithin child, (directories.strictlyWithin child).length))
      (directories.listedTotals path node) := by
    rw [listedTotals, joined]
    apply List.forall₂_map_left_iff.mpr
    apply forall₂_totals
    · exact fun child member => ((isChild child).mp member).1
    · exact fun child member =>
        below child ((isChild child).mp member).1 ((isChild child).mp member).2
  have summarises := Totals.summarises_compute node.files.values now each
  rw [← totals, List.flatMap_map, List.map_map] at summarises
  rw [length_strictlyWithin wellFormed distinct isChild]
  apply summarises.perm
  have files := filesWithin_perm wellFormed distinct isChild (OrderedMap.mem_of_get? found)
  rw [filesOf_of_get? found] at files
  exact files

/-- Bubbles make the totals of a directory exact if they recomputed everything
at or below it that was not exact before. -/
theorem Settled.exact {before after : Directories} {recomputed : Path → Prop}
    (settled : Settled before recomputed after) (wellFormed : before.WellFormed)
    (each : ∀ other, path ∈ other.chain → recomputed other ∨ before.Exact other) :
    after.Exact path := by
  have afterWellFormed : after.WellFormed :=
    wellFormed.of_agreeOn (settled.contents.comp Prod.snd)
  induction path using after.bottomUp with
  | step path inductionHypothesis =>
      by_cases isRecomputed : recomputed path
      · apply afterWellFormed.exact_of_upToDate (settled.upToDate path isRecomputed)
        intro child member childParent
        apply inductionHypothesis child member childParent
        intro other inside
        have above := (Path.IsAncestorOf.of_parent childParent).mem_chain
        exact each other (Path.mem_chain_trans above inside)
      · have exact := (each path path.self_mem_chain).resolve_left isRecomputed
        have alike : AlikeWithin before after path := fun other _ =>
          settled.contents.comp Prod.fst other
        exact alike.exact (settled.untouched path isRecomputed) exact

end Directories
end Rollup

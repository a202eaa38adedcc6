/-
The smallest sets of refresh points.

Some points cover what was added when every added directory is one of them or an
ancestor of one, so that bubbles from the points come by all that was added.  The
children of a tracker do, and no fewer points can, not even points that were
never added: the directories on the way from one point to the root are above one
another, so each point has at most one child on its way.
-/

import Mathlib.Combinatorics.Enumerative.DoubleCounting
import Rollup.Proofs.RefreshPoints

namespace Rollup
namespace Tracker

/-- Every added directory is one of the points or an ancestor of one. -/
def Covers (points : Finset Path) (added : List Path) : Prop :=
  ∀ path ∈ added, ∃ point ∈ points, path = point ∨ path.IsAncestorOf point

instance (points : Finset Path) (added : List Path) : Decidable (Covers points added) :=
  inferInstanceAs (Decidable (∀ path ∈ added, ∃ point ∈ points,
    path = point ∨ path.IsAncestorOf point))

def childSet (tracker : Tracker) : Finset Path := tracker.children.members.toFinset

@[simp] theorem mem_childSet {tracker : Tracker} {path : Path} :
    path ∈ tracker.childSet ↔ path ∈ tracker.children :=
  List.mem_toFinset.trans OrderedSet.mem_members_iff

theorem card_childSet (tracker : Tracker) : tracker.childSet.card = tracker.childCount := by
  rw [childSet, List.toFinset_card_of_nodup (OrderedSet.nodup_members tracker.children)]
  exact OrderedSet.length_members tracker.children

namespace Tracks

variable {tracker : Tracker} {added : List Path} {points : Finset Path}
variable (tracks : tracker.Tracks added)

include tracks

theorem covers : Covers tracker.childSet added := by
  intro path member
  have tracked := (tracks.tracked_iff path).mpr ⟨path, member, path.self_mem_chain⟩
  obtain ⟨child, isChild, inChain⟩ := (tracks.tracked_iff_exists_child path).mp tracked
  exact ⟨child, mem_childSet.mpr isChild, Path.mem_chain_iff.mp inChain⟩

theorem eq_of_mem_chain {left right lower : Path} (leftChild : left ∈ tracker.children)
    (rightChild : right ∈ tracker.children) (leftMember : left ∈ lower.chain)
    (rightMember : right ∈ lower.chain) : left = right := by
  rcases Path.mem_chain_or_mem_chain leftMember rightMember with inRight | inLeft
  · rcases Path.mem_chain_iff.mp inRight with same | above
    · exact same
    · exact absurd above (tracks.antichain leftChild rightChild)
  · rcases Path.mem_chain_iff.mp inLeft with same | above
    · exact same.symm
    · exact absurd above (tracks.antichain rightChild leftChild)

/-- Different children need different points. -/
theorem childCount_le_card (covers : Covers points added) : tracker.childCount ≤ points.card := by
  rw [← card_childSet]
  apply Finset.card_le_card_of_forall_subsingleton fun child point => child ∈ point.chain
  · intro child isChild
    have member := tracks.added_of_child (mem_childSet.mp isChild)
    obtain ⟨point, isPoint, position⟩ := covers child member
    exact ⟨point, isPoint, Path.mem_chain_iff.mpr position⟩
  · intro point _ left leftSide right rightSide
    exact tracks.eq_of_mem_chain (mem_childSet.mp leftSide.1) (mem_childSet.mp rightSide.1)
      leftSide.2 rightSide.2

/-- Nothing that was added lies below a child, so among what was added only the
child itself can cover it. -/
theorem childSet_subset (covers : Covers points added)
    (wereAdded : ∀ point ∈ points, point ∈ added) : tracker.childSet ⊆ points := by
  intro child isChild
  have deepest := (tracks.children child).mp (mem_childSet.mp isChild)
  obtain ⟨point, isPoint, position⟩ := covers child deepest.1
  rcases position with same | above
  · rw [same]
    exact isPoint
  · exact absurd above (deepest.2 point (wereAdded point isPoint))

end Tracks

/-- The children of a tracker cover what was added, no set of directories that
does so has fewer members, and among the sets of added directories it is the only
one of its size. -/
theorem children_cover_optimally (added : List Path) :
    let tracker := (Tracker.empty.addAll Refusals.none added).value.1
    Covers tracker.childSet added ∧ (∀ child ∈ tracker.childSet, child ∈ added) ∧
      tracker.childSet.card = tracker.childCount ∧
      (∀ points, Covers points added → tracker.childCount ≤ points.card) ∧
      ∀ points, Covers points added → (∀ point ∈ points, point ∈ added) →
        points.card = tracker.childCount → points = tracker.childSet := by
  intro tracker
  have tracks : tracker.Tracks added := tracks_addAll added
  refine ⟨tracks.covers, ?_, tracker.card_childSet, ?_, ?_⟩
  · exact fun child isChild => tracks.added_of_child (mem_childSet.mp isChild)
  · exact fun points covers => tracks.childCount_le_card covers
  · intro points covers wereAdded sameSize
    have subset := tracks.childSet_subset covers wereAdded
    have notLarger : points.card ≤ tracker.childSet.card := by
      rw [sameSize, card_childSet]
    exact (Finset.eq_of_subset_of_card_le subset notLarger).symm

/-- Two directories that were never added cover three that were. -/
theorem children_cover_optimally_unadded :
    let added : List Path := [⟨"a"⟩, ⟨"c"⟩, ⟨"a/b"⟩]
    let points : Finset Path := {⟨"a/b/x"⟩, ⟨"c/y"⟩}
    Covers points added ∧
      (Tracker.empty.addAll Refusals.none added).value.1.childCount ≤ points.card := by
  intro added points
  have covers : Covers points added := by decide
  exact ⟨covers, (children_cover_optimally added).2.2.2.1 points covers⟩

end Tracker
end Rollup

/-
What a tracker holds after any adds.

The parents are the ancestors of what was added, and the children are the added
directories that are not among them.  As long as no parent is refused, every add
succeeds and its walk reaches all ancestors, so the parents are closed upwards: a
directory that is tracked already has all its ancestors among the parents.
-/

import Rollup.Proofs.Walks

namespace Rollup
namespace Tracker

/-! ### Walks that are never refused -/

/-- Without refusals the walk upwards reaches every ancestor. -/
theorem ascend_none_cons (path : Path) (above : List Path) :
    ascend Refusals.none (path :: above) = (above, none) := by
  induction above generalizing path with
  | nil => rfl
  | cons next rest inductionHypothesis =>
      simp only [ascend, Refusals.none, inductionHypothesis next]

theorem mem_walk_none_iff {upper lower : Path} :
    upper ∈ Refusals.none.walk lower ↔ upper.IsAncestorOf lower := by
  rw [← reached_eq_walk, Path.chain, ascend_none_cons, Path.mem_ancestors_iff]

theorem add_succeeds (tracker : Tracker) (path : Path) :
    (tracker.add Refusals.none path).value.2 = .ok () := by
  by_cases tracked : path ∈ tracker.parents ∨ path ∈ tracker.children
  · rw [add_of_tracked tracked]
  · rw [value_add_of_untracked Refusals.none tracked, Path.chain, ascend_none_cons]

/-! ### The content of a tracker -/

/-- The tracker holds exactly what adding these directories calls for. -/
structure Tracks (tracker : Tracker) (added : List Path) : Prop where
  parents : ∀ path, path ∈ tracker.parents ↔ ∃ lower ∈ added, path.IsAncestorOf lower
  children : ∀ path,
    path ∈ tracker.children ↔ path ∈ added ∧ ∀ lower ∈ added, ¬path.IsAncestorOf lower

namespace Tracks

variable {tracker : Tracker} {added : List Path}

/-- Without refusals, what the walks reach are the ancestors. -/
theorem iff_tracksWalks : tracker.Tracks added ↔ TracksWalks Refusals.none tracker added := by
  constructor
  · intro tracks
    constructor
    · intro path
      simp only [tracks.parents, mem_walk_none_iff]
    · intro path
      rw [tracks.children, tracks.parents]
      simp only [not_exists, not_and]
  · intro tracks
    constructor
    · intro path
      simp only [tracks.parents, mem_walk_none_iff]
    · intro path
      rw [tracks.children, tracks.parents]
      simp only [mem_walk_none_iff, not_exists, not_and]

theorem congr {other : List Path} (tracks : tracker.Tracks added)
    (same : ∀ path, path ∈ added ↔ path ∈ other) : tracker.Tracks other where
  parents := by simpa only [same] using tracks.parents
  children := by simpa only [same] using tracks.children

theorem added_of_child (tracks : tracker.Tracks added) {path : Path}
    (child : path ∈ tracker.children) : path ∈ added :=
  ((tracks.children path).mp child).1

theorem disjoint (tracks : tracker.Tracks added) {path : Path}
    (child : path ∈ tracker.children) : path ∉ tracker.parents := by
  intro isParent
  obtain ⟨lower, member, below⟩ := (tracks.parents path).mp isParent
  exact ((tracks.children path).mp child).2 lower member below

theorem antichain (tracks : tracker.Tracks added) {left right : Path}
    (leftChild : left ∈ tracker.children) (rightChild : right ∈ tracker.children) :
    ¬left.IsAncestorOf right :=
  ((tracks.children left).mp leftChild).2 right (tracks.added_of_child rightChild)

theorem unique {other : Tracker} (tracks : tracker.Tracks added) (also : other.Tracks added) :
    tracker = other := by
  have sameChildren : tracker.children = other.children :=
    OrderedSet.ext_mem fun path => (tracks.children path).trans (also.children path).symm
  have sameParents : tracker.parents = other.parents :=
    OrderedSet.ext_mem fun path => (tracks.parents path).trans (also.parents path).symm
  cases tracker
  cases other
  simp_all

/-- Everything added, and every ancestor of it, is a child or a parent. -/
theorem tracked_iff (tracks : tracker.Tracks added) (path : Path) :
    path ∈ tracker.children ∨ path ∈ tracker.parents ↔ ∃ lower ∈ added, path ∈ lower.chain := by
  simp only [tracks.children, tracks.parents, Path.mem_chain_iff]
  constructor
  · intro position
    rcases position with ⟨member, _⟩ | ⟨lower, member, below⟩
    · exact ⟨path, member, Or.inl rfl⟩
    · exact ⟨lower, member, Or.inr below⟩
  · intro ⟨lower, member, inChain⟩
    rcases inChain with rfl | below
    · by_cases covered : ∃ other ∈ added, path.IsAncestorOf other
      · exact Or.inr covered
      · exact Or.inl ⟨member, fun other otherMember below => covered ⟨other, otherMember, below⟩⟩
    · exact Or.inr ⟨lower, member, below⟩

/-- What lies above a tracked directory is tracked. -/
theorem tracked_of_mem_chain (tracks : tracker.Tracks added) {upper lower : Path}
    (tracked : lower ∈ tracker.children ∨ lower ∈ tracker.parents) (above : upper ∈ lower.chain) :
    upper ∈ tracker.children ∨ upper ∈ tracker.parents := by
  obtain ⟨deeper, member, inChain⟩ := (tracks.tracked_iff lower).mp tracked
  exact (tracks.tracked_iff upper).mpr ⟨deeper, member, Path.mem_chain_trans above inChain⟩

/-- A tracked directory lies on the way of a bubble from some child. -/
theorem tracked_iff_exists_child (tracks : tracker.Tracks added) (path : Path) :
    path ∈ tracker.children ∨ path ∈ tracker.parents ↔
      ∃ child ∈ tracker.children, path ∈ child.chain := by
  rw [tracks.tracked_iff]
  constructor
  · intro ⟨lower, member, inChain⟩
    induction lower using Path.belowInduction added with
    | step lower inductionHypothesis =>
        by_cases covered : ∃ deeper ∈ added, lower.IsAncestorOf deeper
        · obtain ⟨deeper, deeperMember, below⟩ := covered
          exact inductionHypothesis deeper deeperMember below deeperMember
            (Path.mem_chain_trans inChain below.mem_chain)
        · refine ⟨lower, (tracks.children lower).mpr ⟨member, ?_⟩, inChain⟩
          exact fun deeper deeperMember below => covered ⟨deeper, deeperMember, below⟩
  · intro ⟨child, member, inChain⟩
    exact ⟨child, tracks.added_of_child member, inChain⟩

protected theorem empty : Tracker.empty.Tracks [] where
  parents := fun path => by
    have absent : path ∉ Tracker.empty.parents := OrderedMap.not_mem_empty path
    simp [absent]
  children := fun path => by
    have absent : path ∉ Tracker.empty.children := OrderedMap.not_mem_empty path
    simp [absent]

theorem add (tracks : tracker.Tracks added) (path : Path) :
    (tracker.add Refusals.none path).value.1.Tracks (path :: added) :=
  iff_tracksWalks.mpr ((iff_tracksWalks.mp tracks).add path)

theorem addAll (later : List Path) (tracks : tracker.Tracks added) :
    (tracker.addAll Refusals.none later).value.1.Tracks (later ++ added) :=
  iff_tracksWalks.mpr ((iff_tracksWalks.mp tracks).addAll later)

end Tracks

theorem addAll_succeeds (tracker : Tracker) (added : List Path) :
    (tracker.addAll Refusals.none added).value.2 = List.replicate added.length (.ok ()) := by
  induction added generalizing tracker with
  | nil => rfl
  | cons path rest inductionHypothesis =>
      exact congrArg₂ List.cons (tracker.add_succeeds path)
        (inductionHypothesis (tracker.add Refusals.none path).value.1)

theorem tracks_addAll (added : List Path) :
    (Tracker.empty.addAll Refusals.none added).value.1.Tracks added := by
  simpa only [List.append_nil] using Tracks.empty.addAll added

/-- Adding directories to an empty tracker always succeeds, makes their
ancestors the parents and the others among them the children, and depends on
nothing but which directories were added. -/
theorem addAll_keeps_deepest (added : List Path) :
    let outcome := (Tracker.empty.addAll Refusals.none added).value
    outcome.2 = List.replicate added.length (.ok ()) ∧
      (∀ path, path ∈ outcome.1.parents ↔ ∃ lower ∈ added, path.IsAncestorOf lower) ∧
      (∀ path, path ∈ outcome.1.children ↔
        path ∈ added ∧ ∀ lower ∈ added, ¬path.IsAncestorOf lower) ∧
      (∀ path ∈ outcome.1.children, path ∉ outcome.1.parents) ∧
      (∀ left ∈ outcome.1.children, ∀ right ∈ outcome.1.children, ¬left.IsAncestorOf right) ∧
      ∀ other : List Path, (∀ path, path ∈ other ↔ path ∈ added) →
        (Tracker.empty.addAll Refusals.none other).value.1 = outcome.1 := by
  intro outcome
  have tracks : outcome.1.Tracks added := tracks_addAll added
  refine ⟨addAll_succeeds Tracker.empty added, tracks.parents, tracks.children, ?_, ?_, ?_⟩
  · exact fun path child => tracks.disjoint child
  · exact fun left leftChild right rightChild => tracks.antichain leftChild rightChild
  · exact fun other same => ((tracks_addAll other).congr same).unique tracks

end Tracker
end Rollup

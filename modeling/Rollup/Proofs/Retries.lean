/-
Adds that answer without walking.

A directory that is tracked already is accepted at once.  The walk that made it
tracked may have been refused a parent, so what lies above the refusal need not be
covered.  It was then reported: an earlier add failed at that very place.
-/

import Mathlib.Data.List.Induction
import Rollup.Proofs.BrokenWalks

namespace Rollup

namespace Refusals

variable {refusals : Refusals} {path upper lower : Path}

/-- An ancestor that the walk does not reach lies above the place of the refusal. -/
theorem exists_firstRefused_of_not_mem_walk (isAbove : upper.IsAncestorOf path)
    (missed : upper ∉ refusals.walk path) :
    ∃ obstructed cause, refusals.FirstRefused path obstructed cause ∧
      upper.IsAncestorOf obstructed := by
  induction path using Path.parentInduction with
  | atRoot => exact absurd rfl (Path.isAncestorOf_iff_parent.mp isAbove).1
  | below path notRoot inductionHypothesis =>
      cases refused : refusals path with
      | some cause => exact ⟨path, cause, .here (parent_of_refused refused), isAbove⟩
      | none =>
          have found := parent_of_allowed refused notRoot
          rw [walk_of_ok found, List.mem_cons, not_or] at missed
          rcases (Path.isAncestorOf_iff_parent.mp isAbove).2 with isParent | higher
          · exact absurd isParent missed.1
          · obtain ⟨obstructed, cause, first, below⟩ := inductionHypothesis higher missed.2
            exact ⟨obstructed, cause, .higher found first, below⟩

/-- The directory is the one that the walk starts from, or the walk reaches it. -/
def Passes (refusals : Refusals) (lower path : Path) : Prop :=
  path = lower ∨ path ∈ refusals.walk lower

theorem Passes.trans {middle : Path} (first : refusals.Passes lower middle)
    (second : refusals.Passes middle upper) : refusals.Passes lower upper := by
  rcases first with sameMiddle | reachesMiddle
  · rw [← sameMiddle]
    exact second
  · rcases second with sameUpper | reachesUpper
    · rw [sameUpper]
      exact Or.inr reachesMiddle
    · exact Or.inr (mem_walk_trans reachesUpper reachesMiddle)

/-- A walk is refused where the walk of any directory on it is refused. -/
theorem Passes.firstRefused_iff (passes : refusals.Passes lower path) {obstructed : Path}
    {cause : PathError} :
    refusals.FirstRefused lower obstructed cause ↔
      refusals.FirstRefused path obstructed cause := by
  induction lower using Path.parentInduction with
  | atRoot =>
      rcases passes with same | reached
      · rw [same]
      · rw [walk_root] at reached
        cases reached
  | below lower notRoot inductionHypothesis =>
      rcases passes with same | reached
      · rw [same]
      · cases refused : refusals lower with
        | some other =>
            rw [walk_of_error (parent_of_refused refused)] at reached
            cases reached
        | none =>
            have found := parent_of_allowed refused notRoot
            rw [walk_of_ok found] at reached
            rw [firstRefused_of_ok found]
            exact inductionHypothesis (List.mem_cons.mp reached)

end Refusals

namespace Tracker

variable {refusals : Refusals} {path : Path} {earlier : List Path}

theorem TracksWalks.tracked_iff_passes {tracker : Tracker} {added : List Path}
    (tracks : TracksWalks refusals tracker added) :
    path ∈ tracker.parents ∨ path ∈ tracker.children ↔
      ∃ lower ∈ added, refusals.Passes lower path := by
  rw [tracks.tracked_iff]
  constructor
  · intro tracked
    rcases tracked with member | ⟨lower, member, reached⟩
    · exact ⟨path, member, Or.inl rfl⟩
    · exact ⟨lower, member, Or.inr reached⟩
  · intro ⟨lower, member, passes⟩
    rcases passes with same | reached
    · rw [same]
      exact Or.inl member
    · exact Or.inr ⟨lower, member, reached⟩

/-- Where the walk of a tracked directory is refused, the add whose walk was the first
to pass it was refused as well, and said so. -/
theorem mem_results_of_tracked {obstructed : Path} {cause : PathError}
    (tracked : ∃ lower ∈ earlier, refusals.Passes lower path)
    (notRoot : obstructed ≠ Path.root)
    (first : refusals.FirstRefused path obstructed cause) :
    .error (.malformedPath obstructed cause) ∈
      (Tracker.empty.addAll refusals earlier).value.2 := by
  induction earlier using List.reverseRecOn with
  | nil =>
      obtain ⟨_, impossible, _⟩ := tracked
      cases impossible
  | append_singleton before last inductionHypothesis =>
      rw [value_addAll_append]
      by_cases already : ∃ lower ∈ before, refusals.Passes lower path
      · exact List.mem_append_left _ (inductionHypothesis already)
      · obtain ⟨lower, member, passes⟩ := tracked
        have isLast : lower = last := by
          rcases List.mem_append.mp member with earlier | isLast
          · exact absurd ⟨lower, earlier, passes⟩ already
          · exact List.mem_singleton.mp isLast
        rw [isLast] at passes
        -- were the last add accepted at once, something before it would pass the directory too
        have untracked : ¬∃ other ∈ before, refusals.Passes other last :=
          fun ⟨other, earlier, passesLast⟩ => already ⟨other, earlier, passesLast.trans passes⟩
        rw [← (tracksWalks_addAll refusals before).tracked_iff_passes] at untracked
        have answer := add_eq_error_iff.mpr
          ⟨untracked, obstructed, cause, notRoot, passes.firstRefused_iff.mpr first, rfl⟩
        apply List.mem_append_right
        exact List.mem_singleton.mpr answer.symm

theorem add_eq_ok_iff {tracker : Tracker} :
    (tracker.add refusals path).value.2 = .ok () ↔
      (path ∈ tracker.parents ∨ path ∈ tracker.children) ∨
        ∀ obstructed cause, refusals.FirstRefused path obstructed cause →
          obstructed = Path.root := by
  constructor
  · intro accepted
    by_cases tracked : path ∈ tracker.parents ∨ path ∈ tracker.children
    · exact Or.inl tracked
    · apply Or.inr
      intro obstructed cause first
      by_contra notRoot
      have failed := add_eq_error_iff.mpr ⟨tracked, obstructed, cause, notRoot, first, rfl⟩
      rw [accepted] at failed
      cases failed
  · intro reason
    cases answer : (tracker.add refusals path).value.2 with
    | ok _ => rfl
    | error _ =>
        obtain ⟨untracked, obstructed, cause, notRoot, first, _⟩ := add_eq_error_iff.mp answer
        rcases reason with tracked | unrefused
        · exact absurd tracked untracked
        · exact absurd (unrefused obstructed cause first) notRoot

/-- An add is accepted exactly when its directory is tracked already or its walk would
get to the root.  An accepted add has its directory tracked, and everything that the walk
reaches is covered.  Where an ancestor is not covered, the directory was tracked before;
its walk would be refused below that ancestor, and an earlier add failed because it was
refused there. -/
theorem accepted_add_covers_its_walk (refusals : Refusals) (earlier : List Path) (path : Path) :
    let before := (Tracker.empty.addAll refusals earlier).value
    let after := (before.1.add refusals path).value
    (after.2 = .ok () ↔
      (path ∈ before.1.parents ∨ path ∈ before.1.children) ∨
        ∀ obstructed cause, refusals.FirstRefused path obstructed cause →
          obstructed = Path.root) ∧
    (after.2 = .ok () →
      (path ∈ after.1.parents ∨ path ∈ after.1.children) ∧
      (∀ upper ∈ refusals.walk path, upper ∈ after.1.parents) ∧
      ∀ upper : Path, upper.IsAncestorOf path → upper ∉ after.1.parents →
        (path ∈ before.1.parents ∨ path ∈ before.1.children) ∧
          ∃ obstructed cause, upper.IsAncestorOf obstructed ∧
            refusals.FirstRefused path obstructed cause ∧
              .error (.malformedPath obstructed cause) ∈ before.2) := by
  intro before after
  have tracksBefore : TracksWalks refusals before.1 earlier := tracksWalks_addAll refusals earlier
  have tracksAfter : TracksWalks refusals after.1 (path :: earlier) := tracksBefore.add path
  refine ⟨add_eq_ok_iff, fun accepted => ?_⟩
  have covered : ∀ upper ∈ refusals.walk path, upper ∈ after.1.parents := by
    intro upper reached
    exact (tracksAfter.parents upper).mpr ⟨path, List.mem_cons_self, reached⟩
  have tracked : path ∈ after.1.parents ∨ path ∈ after.1.children :=
    tracksAfter.tracked_iff_passes.mpr ⟨path, List.mem_cons_self, Or.inl rfl⟩
  refine ⟨tracked, covered, fun upper isAbove uncovered => ?_⟩
  have missed : upper ∉ refusals.walk path := fun reached => uncovered (covered upper reached)
  obtain ⟨obstructed, cause, first, below⟩ :=
    Refusals.exists_firstRefused_of_not_mem_walk isAbove missed
  have notRoot : obstructed ≠ Path.root := below.lower_ne_root
  have trackedBefore : path ∈ before.1.parents ∨ path ∈ before.1.children :=
    (add_eq_ok_iff.mp accepted).resolve_right fun unrefused =>
      notRoot (unrefused obstructed cause first)
  refine ⟨trackedBefore, obstructed, cause, below, first, ?_⟩
  exact mem_results_of_tracked (tracksBefore.tracked_iff_passes.mp trackedBefore) notRoot first

/-- The first add is refused at the topmost directory, and the repetition is accepted. -/
theorem accepted_add_covers_its_walk_repeated :
    let refusals : Refusals := fun path => if path = ⟨"a"⟩ then some (.emptySegment "/a") else none
    let before := (Tracker.empty.addAll refusals [⟨"a/b/c"⟩]).value
    let after := (before.1.add refusals ⟨"a/b/c"⟩).value
    after.2 = .ok () ∧ ⟨"a/b"⟩ ∈ after.1.parents ∧ Path.root ∉ after.1.parents ∧
      ∃ obstructed cause, Path.root.IsAncestorOf obstructed ∧
        .error (.malformedPath obstructed cause) ∈ before.2 := by
  intro refusals before after
  have accepted : after.2 = .ok () := by decide
  obtain ⟨_, covered, missing⟩ :=
    (accepted_add_covers_its_walk refusals [⟨"a/b/c"⟩] ⟨"a/b/c"⟩).2 accepted
  have reached : ⟨"a/b"⟩ ∈ refusals.walk ⟨"a/b/c"⟩ := by decide
  have isAbove : Path.root.IsAncestorOf ⟨"a/b/c"⟩ := by decide
  have uncovered : Path.root ∉ after.1.parents := by decide
  obtain ⟨_, obstructed, cause, below, _, reported⟩ := missing Path.root isAbove uncovered
  exact ⟨accepted, covered _ reached, uncovered, obstructed, cause, below, reported⟩

/-- A directory is added twice.  The second add is accepted, and the root is not covered. -/
theorem repeated_add_leaves_root_uncovered :
    let refusals : Refusals := fun path => if path = ⟨"a"⟩ then some (.emptySegment "/a") else none
    let once := (Tracker.empty.add refusals ⟨"a/b/c"⟩).value
    let twice := (once.1.add refusals ⟨"a/b/c"⟩).value
    once.2 = .error (.malformedPath ⟨"a"⟩ (.emptySegment "/a")) ∧ twice.2 = .ok () ∧
      Path.root.IsAncestorOf ⟨"a/b/c"⟩ ∧ Path.root ∉ twice.1.parents := by
  decide

end Tracker
end Rollup

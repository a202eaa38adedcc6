/-
Refreshes some of whose bubbles fail.

A tracker takes directories that the tree does not have.  A bubble from such a
directory ends where it begins, so it comes by none of the directories above it,
although the tracker holds these as covered.  In a tree that was built by requests
no other bubble fails, so what a refresh misses lies above missing children only.
-/

import Rollup.Proofs.Catalogue
import Rollup.Proofs.Dispatching

namespace Rollup

namespace Directories.WellFormed

variable {directories : Directories}

theorem mem_reach_iff (wellFormed : directories.WellFormed) {start path : Path} :
    path ∈ directories.reach start ↔ start ∈ directories ∧ path ∈ start.chain := by
  by_cases present : start ∈ directories
  · rw [wellFormed.reach_eq present, and_iff_right present]
  · rw [(reach_outcome_of_not_mem present).1]
    simp [present]

theorem outcome_eq_ok_iff_mem (wellFormed : directories.WellFormed) {start : Path} :
    directories.outcome start = .ok () ↔ start ∈ directories := by
  by_cases present : start ∈ directories
  · simp [wellFormed.outcome_eq present, present]
  · simp [(reach_outcome_of_not_mem present).2, present]

theorem outcome_eq_error_iff (wellFormed : directories.WellFormed) {start : Path}
    {cause : BubbleError} :
    directories.outcome start = .error cause ↔
      start ∉ directories ∧ cause = .unknownDirectory start := by
  by_cases present : start ∈ directories
  · simp [wellFormed.outcome_eq present, present]
  · simp [(reach_outcome_of_not_mem present).2, present, eq_comm]

end Directories.WellFormed

namespace Tracker

variable {directories : Directories} {points : List Path}

theorem mem_zip_outcomes {call : Path × Except BubbleError Unit} :
    call ∈ points.zip (points.map directories.outcome) ↔
      call.1 ∈ points ∧ call.2 = directories.outcome call.1 := by
  rw [← List.map_prod_left_eq_zip, List.mem_map]
  constructor
  · intro ⟨point, member, same⟩
    subst same
    exact ⟨member, rfl⟩
  · intro ⟨member, same⟩
    exact ⟨call.1, member, Prod.ext rfl same.symm⟩

theorem conclude_outcomes_eq_ok_iff (wellFormed : directories.WellFormed) :
    conclude points (points.map directories.outcome) = .ok () ↔
      ∀ point ∈ points, point ∈ directories := by
  rw [conclude_eq_ok_iff]
  constructor
  · intro succeeded point member
    apply wellFormed.outcome_eq_ok_iff_mem.mp
    exact succeeded (point, directories.outcome point) (mem_zip_outcomes.mpr ⟨member, rfl⟩)
  · intro present call member
    obtain ⟨isPoint, same⟩ := mem_zip_outcomes.mp member
    rw [same]
    exact wellFormed.outcome_eq_ok_iff_mem.mpr (present call.1 isPoint)

theorem mem_failures_of_conclude_outcomes (wellFormed : directories.WellFormed)
    {error : RefreshError}
    (failed : conclude points (points.map directories.outcome) = .error error)
    (failure : RefreshFailure) :
    failure ∈ error.failures ↔ failure.directory ∈ points ∧ failure.directory ∉ directories ∧
      failure.cause = .unknownDirectory failure.directory := by
  rw [(conclude_eq_error_iff.mp failed).2.2, mem_failuresOf_iff, mem_zip_outcomes]
  apply and_congr_right
  intro _
  rw [eq_comm]
  exact wellFormed.outcome_eq_error_iff

/-- Every added directory is there if and only if every child is, because the others
lie above children. -/
theorem Tracks.children_present_iff {tracker : Tracker} {added : List Path}
    (tracks : tracker.Tracks added) (wellFormed : directories.WellFormed) :
    (∀ child ∈ tracker.children, child ∈ directories) ↔ ∀ path ∈ added, path ∈ directories := by
  constructor
  · intro present path member
    have tracked := (tracks.tracked_iff path).mpr ⟨path, member, path.self_mem_chain⟩
    obtain ⟨child, isChild, inChain⟩ := (tracks.tracked_iff_exists_child path).mp tracked
    exact wellFormed.ancestors (present child isChild) inChain
  · intro present child isChild
    exact present child (tracks.added_of_child isChild)

theorem exists_endsIn_refreshBlocking (tracker : Tracker) (clock : Clock) (tree : Tree) :
    ∃ final, Bubbling.EndsIn tree tracker.children.members final ∧
      (tracker.refreshBlocking (Tree.bubbleFrom clock) tree).value =
        (final.tree, conclude tracker.children.members final.results) := by
  obtain ⟨final, ends, value⟩ := Bubbling.endsIn_bubbleEach clock tree tracker.children.members
  refine ⟨final, ends, ?_⟩
  rw [value_refreshBlocking, value]
  rfl

end Tracker

namespace Bubbling

/-- On a tree that was built by requests, a blocking refresh recomputes the children
that are there and the directories above them, and nothing else; it fails for the
children that are not there.  So it recomputes everything that was added if it
succeeds, and what it misses lies above missing children. -/
theorem refresh_misses_above_missing_children (requests : List Request) (added : List Path) :
    let tree := (Request.performAll Tree.perform Tree.fresh requests).1
    let tracker := (Tracker.empty.addAll Refusals.none added).value.1
    (∀ points final, points.Perm tracker.children.members → EndsIn tree points final →
      let result := Tracker.conclude points final.results
      (∀ path, final.HasRecomputed path ↔
          ∃ child ∈ tracker.children, child ∈ tree.directories ∧ path ∈ child.chain) ∧
        (∀ path, ¬final.HasRecomputed path →
          final.tree.directories.get? path = tree.directories.get? path) ∧
        (result = .ok () ↔ ∀ path ∈ added, path ∈ tree.directories) ∧
        (result = .ok () → ∀ path ∈ added, final.HasRecomputed path) ∧
        (∀ error, result = .error error → ∀ failure, failure ∈ error.failures ↔
          failure.directory ∈ tracker.children ∧ failure.directory ∉ tree.directories ∧
            failure.cause = .unknownDirectory failure.directory) ∧
        ∀ path ∈ added, path ∈ tree.directories → ¬final.HasRecomputed path →
          ∃ child ∈ tracker.children, child ∉ tree.directories ∧ path.IsAncestorOf child) ∧
      ∀ clock, ∃ final, EndsIn tree tracker.children.members final ∧
        (tracker.refreshBlocking (Tree.bubbleFrom clock) tree).value =
          (final.tree, Tracker.conclude tracker.children.members final.results) := by
  intro tree tracker
  have wellFormed : tree.directories.WellFormed :=
    (Catalogue.Describes.initial.performAll requests).2.wellFormed
  have tracks : tracker.Tracks added := Tracker.tracks_addAll added
  refine ⟨?_, fun clock => tracker.exists_endsIn_refreshBlocking clock tree⟩
  intro points final order ends result
  have isPoint (path : Path) : path ∈ points ↔ path ∈ tracker.children :=
    order.mem_iff.trans OrderedSet.mem_members_iff
  have recomputed (path : Path) : final.HasRecomputed path ↔
      ∃ child ∈ tracker.children, child ∈ tree.directories ∧ path ∈ child.chain := by
    simp only [ends.hasRecomputed_iff, wellFormed.mem_reach_iff, isPoint]
  have someChild {path : Path} (member : path ∈ added) :
      ∃ child ∈ tracker.children, path ∈ child.chain := by
    apply (tracks.tracked_iff_exists_child path).mp
    exact (tracks.tracked_iff path).mpr ⟨path, member, path.self_mem_chain⟩
  have resultEq : result = Tracker.conclude points (points.map tree.directories.outcome) :=
    congrArg (Tracker.conclude points) ends.results_eq
  have succeeds : result = .ok () ↔ ∀ path ∈ added, path ∈ tree.directories := by
    rw [resultEq, Tracker.conclude_outcomes_eq_ok_iff wellFormed,
      ← tracks.children_present_iff wellFormed]
    simp only [isPoint]
  refine ⟨recomputed, ends.consistent.untouched, succeeds, ?_, ?_, ?_⟩
  · intro succeeded path member
    obtain ⟨child, isChild, inChain⟩ := someChild member
    have present := succeeds.mp succeeded child (tracks.added_of_child isChild)
    exact (recomputed path).mpr ⟨child, isChild, present, inChain⟩
  · intro error failed failure
    rw [resultEq] at failed
    rw [Tracker.mem_failures_of_conclude_outcomes wellFormed failed, isPoint]
  · intro path member present missed
    obtain ⟨child, isChild, inChain⟩ := someChild member
    have childMissing : child ∉ tree.directories := fun childPresent =>
      missed ((recomputed path).mpr ⟨child, isChild, childPresent, inChain⟩)
    refine ⟨child, isChild, childMissing, ?_⟩
    rcases Path.mem_chain_iff.mp inChain with same | above
    · rw [same] at present
      exact absurd present childMissing
    · exact above

/-- The root was added and is there, but a directory that is missing took its place
as a refresh point. -/
theorem refresh_misses_root :
    let upsert : Request := .mutate (.upsert "f" ⟨1, Binary64.zero, Binary64.one⟩)
    let tree := (Request.performAll Tree.perform Tree.fresh [upsert]).1
    let tracker := (Tracker.empty.addAll Refusals.none [Path.root, ⟨"missing"⟩]).value.1
    let refreshed := (tracker.refreshBlocking (Tree.bubbleFrom (.still 7)) tree).value
    Path.root ∈ tree.directories ∧
      refreshed.2 = .error ⟨1, [⟨⟨"missing"⟩, .unknownDirectory ⟨"missing"⟩⟩]⟩ ∧
      refreshed.1.recomputations = 0 ∧
      refreshed.1.totals? Path.root = some Totals.initial := by
  decide

end Bubbling
end Rollup

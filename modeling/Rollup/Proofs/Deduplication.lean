/-
Refreshing from the deepest directories is enough.

Bubbles from the children of a tracker recompute the same directories as one
bubble for every add, and in both schemes a directory is up to date in the end.
So both leave the same totals.
-/

import Rollup.Proofs.Mutations

namespace Rollup

namespace Tracker.Tracks

variable {tracker : Tracker} {added starts : List Path} {directories : Directories}
variable (tracks : tracker.Tracks added) (wellFormed : directories.WellFormed)
variable (present : ∀ path ∈ added, path ∈ directories)

include tracks present wellFormed

/-- Bubbles from the children come by everything the tracker holds and by nothing
else, and so do bubbles from everything that was added. -/
theorem exists_reach_iff_of_children
    (fromChildren : ∀ path, path ∈ starts ↔ path ∈ tracker.children) (path : Path) :
    (∃ start ∈ starts, path ∈ directories.reach start) ↔
      path ∈ tracker.children ∨ path ∈ tracker.parents := by
  have startsPresent : ∀ start ∈ starts, start ∈ directories := fun start member =>
    present start (tracks.added_of_child ((fromChildren start).mp member))
  rw [wellFormed.exists_reach_iff startsPresent, tracks.tracked_iff_exists_child]
  simp only [fromChildren]

theorem exists_reach_iff_of_added (fromAdded : ∀ path, path ∈ starts ↔ path ∈ added)
    (path : Path) :
    (∃ start ∈ starts, path ∈ directories.reach start) ↔
      path ∈ tracker.children ∨ path ∈ tracker.parents := by
  have startsPresent : ∀ start ∈ starts, start ∈ directories := fun start member =>
    present start ((fromAdded start).mp member)
  rw [wellFormed.exists_reach_iff startsPresent, tracks.tracked_iff]
  simp only [fromAdded]

end Tracker.Tracks

namespace Bubbling

/-- Whatever the order, bubbles from a tracker's children end with the same
totals, but for the times, as one bubble for each add.  Both recompute what the
tracker holds and nothing else: this is up to date in the end, and all other
directories are as they were. -/
theorem deepest_points_suffice {tree : Tree} {added points everywhere : List Path}
    {sparing naive : Bubbling} (wellFormed : tree.directories.WellFormed)
    (present : ∀ path ∈ added, path ∈ tree.directories)
    (pointsOrder :
      points.Perm (Tracker.empty.addAll Refusals.none added).value.1.children.members)
    (everywhereOrder : everywhere.Perm added)
    (sparingEnds : EndsIn tree points sparing) (naiveEnds : EndsIn tree everywhere naive) :
    let tracker := (Tracker.empty.addAll Refusals.none added).value.1
    let tracked (path : Path) := path ∈ tracker.children ∨ path ∈ tracker.parents
    sparing.tree.directories.AgreeOn Directory.untimed naive.tree.directories ∧
      (∀ result ∈ sparing.results ++ naive.results, result = .ok ()) ∧
      (∀ path, sparing.HasRecomputed path ↔ tracked path) ∧
      (∀ path, naive.HasRecomputed path ↔ tracked path) ∧
      tree.directories.Settled tracked sparing.tree.directories ∧
      tree.directories.Settled tracked naive.tree.directories ∧
      ∀ clock, let refreshed := (tracker.refreshBlocking (Tree.bubbleFrom clock) tree).value
        let bubbled := (Tracker.bubbleEach (Tree.bubbleFrom clock) everywhere tree).value
        refreshed.2 = .ok () ∧ bubbled.2 = [] ∧
          tree.directories.Settled tracked refreshed.1.directories ∧
          tree.directories.Settled tracked bubbled.1.directories ∧
          refreshed.1.directories.AgreeOn Directory.untimed bubbled.1.directories := by
  intro tracker tracked
  have tracks : tracker.Tracks added := Tracker.tracks_addAll added
  have isPoint (path : Path) : path ∈ points ↔ path ∈ tracker.children :=
    pointsOrder.mem_iff.trans OrderedSet.mem_members_iff
  have isAdded (path : Path) : path ∈ everywhere ↔ path ∈ added := everywhereOrder.mem_iff
  have pointsPresent : ∀ path ∈ points, path ∈ tree.directories := fun path member =>
    present path (tracks.added_of_child ((isPoint path).mp member))
  have everywherePresent : ∀ path ∈ everywhere, path ∈ tree.directories := fun path member =>
    present path ((isAdded path).mp member)
  -- both schemes come by exactly the directories that the tracker holds
  have fromPoints := tracks.exists_reach_iff_of_children wellFormed present isPoint
  have fromEverywhere := tracks.exists_reach_iff_of_added wellFormed present isAdded
  have sparingSettled := sparingEnds.settled.congr fromPoints
  have naiveSettled := naiveEnds.settled.congr fromEverywhere
  refine ⟨sparingSettled.unique naiveSettled, ?_, ?_, ?_, sparingSettled, naiveSettled,
    fun clock => ?_⟩
  · intro result member
    rcases List.mem_append.mp member with ofSparing | ofNaive
    · rw [sparingEnds.results_eq] at ofSparing
      exact wellFormed.outcomes_eq pointsPresent result ofSparing
    · rw [naiveEnds.results_eq] at ofNaive
      exact wellFormed.outcomes_eq everywherePresent result ofNaive
  · exact fun path => (sparingEnds.hasRecomputed_iff path).trans (fromPoints path)
  · exact fun path => (naiveEnds.hasRecomputed_iff path).trans (fromEverywhere path)
  · intro refreshed bubbled
    obtain ⟨refreshedReach, _, refreshedFailures⟩ :=
      tree.value_bubbleEach clock tracker.children.members
    obtain ⟨bubbledReach, _, bubbledFailures⟩ := tree.value_bubbleEach clock everywhere
    have fromChildren := tracks.exists_reach_iff_of_children wellFormed present
      fun _ => OrderedSet.mem_members_iff
    have childrenPresent : ∀ path ∈ tracker.children.members, path ∈ tree.directories :=
      fun path member => present path (tracks.added_of_child (OrderedSet.mem_members_iff.mp member))
    rw [Tracker.failuresOf_eq_nil (wellFormed.outcomes_eq childrenPresent)] at refreshedFailures
    rw [Tracker.failuresOf_eq_nil (wellFormed.outcomes_eq everywherePresent)] at bubbledFailures
    have refreshedEq : refreshed = _ := tracker.value_refreshBlocking (Tree.bubbleFrom clock) tree
    have refreshedSettled := refreshedReach.congr fromChildren
    have bubbledSettled := bubbledReach.congr fromEverywhere
    rw [refreshedEq, refreshedFailures]
    exact ⟨rfl, bubbledFailures, refreshedSettled, bubbledSettled,
      refreshedSettled.unique bubbledSettled⟩

/-- A fresh tree after a file was stored two levels below the root. -/
private def nestedTree : Tree :=
  match (Tree.fresh.upsertFile "a/b/f" ⟨3, Binary64.zero, Binary64.one⟩).value with
  | .ok (_, tree) => tree
  | .error _ => Tree.fresh

theorem deepest_points_suffice_nested :
    let tracker := (Tracker.empty.addAll Refusals.none [⟨"a"⟩, ⟨"a/b"⟩]).value.1
    let tracked (path : Path) := path ∈ tracker.children ∨ path ∈ tracker.parents
    ∃ sparing naive, EndsIn nestedTree [⟨"a/b"⟩] sparing ∧
      EndsIn nestedTree [⟨"a/b"⟩, ⟨"a"⟩] naive ∧
      sparing.tree.directories.AgreeOn Directory.untimed naive.tree.directories ∧
      nestedTree.directories.Settled tracked sparing.tree.directories ∧
      naive.HasRecomputed Path.root := by
  intro tracker tracked
  have stored : (Tree.fresh.upsertFile "a/b/f" ⟨3, Binary64.zero, Binary64.one⟩).value =
      .ok (⟨"a/b"⟩, nestedTree) := rfl
  have wellFormed := (Tree.touched_of_upsertFile stored).wellFormed Tree.wellFormed_fresh
  have order : [⟨"a/b"⟩, ⟨"a"⟩].Perm [(⟨"a"⟩ : Path), ⟨"a/b"⟩] := List.Perm.swap _ _ _
  obtain ⟨sparing, sparingEnds, _⟩ := endsIn_bubbleEach (.still 0) nestedTree [⟨"a/b"⟩]
  obtain ⟨naive, naiveEnds, _⟩ := endsIn_bubbleEach (.still 0) nestedTree [⟨"a/b"⟩, ⟨"a"⟩]
  obtain ⟨agree, _, _, recomputed, settled, _⟩ :=
    deepest_points_suffice wellFormed (by decide) (List.Perm.refl _) order sparingEnds naiveEnds
  exact ⟨sparing, naive, sparingEnds, naiveEnds, agree, settled,
    (recomputed Path.root).mpr (by decide)⟩

end Bubbling
end Rollup

/-
Stale totals over whole runs.

Between mutations, bubbles and refreshes every directory whose totals are not
exact is tracked.  Mutations keep this because what they change lies on the way
from the tracked directory of a file to the root; recomputations keep it because
below an untracked directory everything is exact.  A refresh comes by all that
is tracked and so leaves exact totals everywhere.
-/

import Rollup.Proofs.Exactness
import Rollup.Proofs.Mutations

namespace Rollup

namespace Tree

theorem value_bubbleDetached (clock : Clock) (listener : Listener) (tree : Tree) (path : Path) :
    (tree.bubbleDetached clock listener path).value.1 = (tree.bubbleFrom clock path).value.1 := by
  rw [bubbleDetached, Logged.value_bind]
  cases (tree.bubbleFrom clock path).value with
  | mk updated result => cases result <;> cases listener <;> rfl

theorem allExact_fresh : fresh.directories.AllExact := by
  intro path
  apply wellFormed_fresh.exact_of_upToDate
  · intro node found
    have isRoot := eq_root_of_mem_fresh (OrderedMap.mem_of_get? found)
    rw [get?_fresh, if_pos isRoot] at found
    cases found
    exact ⟨0, rfl⟩
  · intro child member childParent
    rw [eq_root_of_mem_fresh member] at childParent
    cases childParent

end Tree

namespace Workspace

/-- One operation on a workspace.  The bubbles of a refresh may take their
steps in any order, and a bubble that was begun earlier may make a single
recomputation between other operations. -/
inductive Step : Workspace → Workspace → Prop
  | mutate (workspace : Workspace) (mutation : Mutation) :
      Step workspace (workspace.applyOne mutation).value.1
  | bubble (workspace : Workspace) (clock : Clock) (path : Path) :
      Step workspace
        { workspace with tree := (workspace.tree.bubbleFrom clock path).value.1 }
  | bubbleDetached (workspace : Workspace) (clock : Clock) (listener : Listener) (path : Path) :
      Step workspace
        { workspace with tree := (workspace.tree.bubbleDetached clock listener path).value.1 }
  | recompute (workspace : Workspace) {now : UInt64} {path : Path} {updated : Tree}
      (succeeded : (workspace.tree.recompute now path).value = .ok updated) :
      Step workspace { workspace with tree := updated }
  | refresh (workspace : Workspace) (clock : Clock) :
      Step workspace
        { workspace with
          tree :=
            (workspace.tracker.refreshBlocking (Tree.bubbleFrom clock) workspace.tree).value.1 }
  | refreshDetached (workspace : Workspace) (clock : Clock) (listener : Listener) :
      Step workspace
        { workspace with
          tree := (workspace.tracker.refreshDetached (Tree.bubbleDetached clock listener)
            workspace.tree).value.1 }
  | refreshTogether (workspace : Workspace) {points : List Path} {final : Bubbling}
      (order : points.Perm workspace.tracker.children.members)
      (ends : Bubbling.EndsIn workspace.tree points final) :
      Step workspace { workspace with tree := final.tree }

abbrev Runs : Workspace → Workspace → Prop := Relation.ReflTransGen Step

/-- An operation applies a mutation, or it recomputes directories and leaves the
tracker alone. -/
theorem Step.cases {before after : Workspace} (step : Step before after) :
    (∃ mutation, after = (before.applyOne mutation).value.1) ∨
      after.tracker = before.tracker ∧
        ∃ recomputed, before.tree.directories.Settled recomputed after.tree.directories := by
  cases step with
  | mutate mutation => exact Or.inl ⟨mutation, rfl⟩
  | bubble clock path =>
      exact Or.inr ⟨rfl, _, (before.tree.value_bubbleFrom clock path).1⟩
  | bubbleDetached clock listener path =>
      rw [Tree.value_bubbleDetached]
      exact Or.inr ⟨rfl, _, (before.tree.value_bubbleFrom clock path).1⟩
  | recompute succeeded =>
      exact Or.inr ⟨rfl, _, (Tree.recomputed_of_ok succeeded).settled⟩
  | refresh clock =>
      rw [Tracker.value_refreshBlocking]
      exact Or.inr ⟨rfl, _, (before.tree.value_bubbleEach clock _).1⟩
  | refreshDetached clock listener =>
      rw [Tracker.value_refreshDetached (Tree.value_bubbleDetached clock listener)]
      exact Or.inr ⟨rfl, _, (before.tree.value_bubbleEach clock _).1⟩
  | refreshTogether order ends => exact Or.inr ⟨rfl, _, ends.settled⟩

/-- Every directory whose totals are not exact is tracked, and the tracker holds
directories of the tree only. -/
structure Covered (workspace : Workspace) : Prop where
  wellFormed : workspace.tree.directories.WellFormed
  tracks : ∃ added, workspace.tracker.Tracks added ∧
    ∀ path ∈ added, path ∈ workspace.tree.directories
  exact : ∀ path, ¬(path ∈ workspace.tracker.children ∨ path ∈ workspace.tracker.parents) →
    workspace.tree.directories.Exact path

namespace Covered

variable {before after : Workspace}

theorem of_empty {workspace : Workspace} (empty : workspace.tracker = Tracker.empty)
    (wellFormed : workspace.tree.directories.WellFormed)
    (exact : workspace.tree.directories.AllExact) : workspace.Covered where
  wellFormed := wellFormed
  tracks := by
    rw [empty]
    exact ⟨[], Tracker.Tracks.empty, List.forall_mem_nil _⟩
  exact := fun path _ => exact path

/-- Below an untracked directory nothing is tracked, so recomputations there
find exact totals and leave exact totals. -/
theorem settle (covered : before.Covered) (tracker : after.tracker = before.tracker)
    {recomputed : Path → Prop}
    (settled : before.tree.directories.Settled recomputed after.tree.directories) :
    after.Covered := by
  obtain ⟨added, tracks, present⟩ := covered.tracks
  constructor
  · exact covered.wellFormed.of_agreeOn (settled.contents.comp Prod.snd)
  · rw [tracker]
    exact ⟨added, tracks, fun path member =>
      (settled.contents.mem_iff path).mp (present path member)⟩
  · intro path untracked
    rw [tracker] at untracked
    apply settled.exact covered.wellFormed
    intro other inside
    apply Or.inr
    apply covered.exact
    intro tracked
    exact untracked (tracks.tracked_of_mem_chain tracked inside)

/-- A mutation changes what lies on the way from one directory to the root, and
all of that is tracked afterwards. -/
theorem mutate (covered : before.Covered) (mutation : Mutation) :
    (before.applyOne mutation).value.1.Covered := by
  cases before.applyOne_cases mutation with
  | inl failed =>
      obtain ⟨error, failed⟩ := failed
      rw [failed]
      exact covered
  | inr succeeded =>
      obtain ⟨directory, updated, touched, applied⟩ := succeeded
      rw [applied]
      obtain ⟨added, tracks, present⟩ := covered.tracks
      have tracksNow := tracks.add directory
      constructor
      · exact touched.wellFormed covered.wellFormed
      · refine ⟨directory :: added, tracksNow, List.forall_mem_cons.mpr ⟨touched.present, ?_⟩⟩
        exact fun path member => touched.kept path (present path member)
      · intro path untracked
        rw [tracksNow.tracked_iff] at untracked
        have outside {other : Path} (inside : path ∈ other.chain) : other ∉ directory.chain := by
          intro inChain
          have above := Path.mem_chain_trans inside inChain
          exact untracked ⟨directory, List.mem_cons_self, above⟩
        have alike : Directories.AlikeWithin before.tree.directories updated.directories path := by
          intro other inside
          rw [touched.elsewhere other (outside inside)]
        apply alike.exact (touched.elsewhere path (outside path.self_mem_chain))
        apply covered.exact
        intro tracked
        obtain ⟨lower, member, inChain⟩ := (tracks.tracked_iff path).mp tracked
        exact untracked ⟨lower, List.mem_cons_of_mem _ member, inChain⟩

theorem step (covered : before.Covered) (step : Step before after) : after.Covered := by
  cases step.cases with
  | inl mutated =>
      obtain ⟨mutation, rfl⟩ := mutated
      exact covered.mutate mutation
  | inr recomputed =>
      obtain ⟨tracker, _, settled⟩ := recomputed
      exact covered.settle tracker settled

theorem of_runs (covered : before.Covered) (runs : before.Runs after) : after.Covered := by
  induction runs with
  | refl => exact covered
  | tail _ step inductionHypothesis => exact inductionHypothesis.step step

section Refresh

variable {workspace : Workspace} {starts : List Path} {refreshed : Directories}
variable (covered : workspace.Covered)

include covered

theorem child_present {path : Path} (child : path ∈ workspace.tracker.children) :
    path ∈ workspace.tree.directories := by
  obtain ⟨added, tracks, present⟩ := covered.tracks
  exact present path (tracks.added_of_child child)

/-- Bubbles from all children come by everything tracked, and the rest is exact
already. -/
theorem allExact (all : ∀ child ∈ workspace.tracker.children, child ∈ starts)
    (settled : workspace.tree.directories.Settled
      (fun path => ∃ start ∈ starts, path ∈ workspace.tree.directories.reach start) refreshed) :
    refreshed.AllExact := by
  intro path
  apply settled.exact covered.wellFormed
  intro other _
  by_cases tracked : other ∈ workspace.tracker.children ∨ other ∈ workspace.tracker.parents
  · obtain ⟨added, tracks, _⟩ := covered.tracks
    obtain ⟨child, isChild, inChain⟩ := (tracks.tracked_iff_exists_child other).mp tracked
    rw [← covered.wellFormed.reach_eq (covered.child_present isChild)] at inChain
    exact Or.inl ⟨child, all child isChild, inChain⟩
  · exact Or.inr (covered.exact other tracked)

end Refresh

end Covered

/-- The same files and subdirectories, with exact totals everywhere. -/
structure Repairs (before after : Directories) : Prop where
  contents : before.AgreeOn Directory.contents after
  exact : after.AllExact

/-- Starting from exact totals and an empty tracker, whatever is done in
whatever order, totals that are not exact are tracked, and a refresh succeeds
and makes all totals exact: sequential, detached, or with its bubbles and others
begun elsewhere taking their steps in any order. -/
theorem stale_totals_are_tracked_and_repaired {initial current : Workspace}
    (empty : initial.tracker = Tracker.empty)
    (exact : initial.tree = Tree.fresh ∨
      initial.tree.directories.WellFormed ∧ initial.tree.directories.AllExact)
    (runs : initial.Runs current) :
    (∀ path, ¬current.tree.directories.Exact path →
        path ∈ current.tracker.children ∨ path ∈ current.tracker.parents) ∧
      (∀ clock, let refreshed :=
          (current.tracker.refreshBlocking (Tree.bubbleFrom clock) current.tree).value
        refreshed.2 = .ok () ∧
          Repairs current.tree.directories refreshed.1.directories) ∧
      (∀ clock listener, let refreshed :=
          (current.tracker.refreshDetached (Tree.bubbleDetached clock listener) current.tree).value
        Repairs current.tree.directories refreshed.1.directories) ∧
      ∀ points others final, points.Perm current.tracker.children.members →
        Bubbling.EndsIn current.tree (points ++ others) final →
        (∀ result ∈ final.results.take points.length, result = .ok ()) ∧
          Repairs current.tree.directories final.tree.directories := by
  have initialCovered : initial.Covered := by
    cases exact with
    | inl fresh =>
        apply Covered.of_empty empty
        · rw [fresh]
          exact Tree.wellFormed_fresh
        · rw [fresh]
          exact Tree.allExact_fresh
    | inr prepared => exact Covered.of_empty empty prepared.1 prepared.2
  have covered := initialCovered.of_runs runs
  have allChildren : ∀ child ∈ current.tracker.children, child ∈ current.tracker.children.members :=
    fun child isChild => OrderedSet.mem_members_iff.mpr isChild
  have membersPresent : ∀ path ∈ current.tracker.children.members,
      path ∈ current.tree.directories := fun path member =>
    covered.child_present (OrderedSet.mem_members_iff.mp member)
  refine ⟨?_, ?_, ?_, ?_⟩
  · intro path stale
    by_contra untracked
    exact stale (covered.exact path untracked)
  · intro clock refreshed
    obtain ⟨settled, _, failures⟩ :=
      current.tree.value_bubbleEach clock current.tracker.children.members
    rw [Tracker.failuresOf_eq_nil (covered.wellFormed.outcomes_eq membersPresent)] at failures
    have value : refreshed = _ :=
      current.tracker.value_refreshBlocking (Tree.bubbleFrom clock) current.tree
    rw [value, failures]
    exact ⟨rfl, settled.contents, covered.allExact allChildren settled⟩
  · intro clock listener refreshed
    have settled := (current.tree.value_bubbleEach clock current.tracker.children.members).1
    rw [← Tracker.value_refreshDetached (Tree.value_bubbleDetached clock listener)] at settled
    exact ⟨settled.contents, covered.allExact allChildren settled⟩
  · intro points others final order ends
    have pointsPresent : ∀ path ∈ points, path ∈ current.tree.directories := fun path member =>
      membersPresent path (order.mem_iff.mp member)
    refine ⟨?_, ends.settled.contents, covered.allExact ?_ ends.settled⟩
    · rw [ends.results_eq, List.map_append, List.take_left' (List.length_map _)]
      exact covered.wellFormed.outcomes_eq pointsPresent
    · intro child isChild
      exact List.mem_append_left _ (order.mem_iff.mpr (allChildren child isChild))

theorem stale_totals_are_tracked_and_repaired_upsert :
    ∃ current, Runs ⟨Tree.fresh, Tracker.empty⟩ current ∧ Path.root ∈ current.tracker.parents ∧
      ∀ clock, Directories.AllExact
        (current.tracker.refreshBlocking (Tree.bubbleFrom clock) current.tree).value.1.directories := by
  let mutation := Mutation.upsert "a/f" ⟨3, Binary64.nan, Binary64.one⟩
  have runs : Runs ⟨Tree.fresh, Tracker.empty⟩
      ((⟨Tree.fresh, Tracker.empty⟩ : Workspace).applyOne mutation).value.1 :=
    .single (.mutate _ mutation)
  obtain ⟨_, repaired, _⟩ := stale_totals_are_tracked_and_repaired rfl (Or.inl rfl) runs
  exact ⟨_, runs, by decide, fun clock => (repaired clock).2.exact⟩

end Workspace

end Rollup

/-
Batches that are worked on by several workers.

The workers take the steps of the mutations in any order; after that the bubbles take
theirs, and a detached refresh waits until it has heard of all of them.  A schedule
decides about all of this, and it may also give a batch up.  Whatever it decides, a
batch that succeeds has counted each of its mutations.  Working through a batch in its
order is one of the schedules.
-/

import Rollup.Proofs.Batches
import Rollup.Proofs.Completions
import Rollup.Proofs.Ingestion

namespace Rollup

/-! ### Ingesting -/

namespace Ingestion

/-- What becomes of a batch on a tree.  All workers come to their end, in whatever
order they took their steps, or the batch is given up: a worker refused a mutation or
was lost, and what the others did is not looked at. -/
inductive Concludes (tree : Tree) (mutations : List Mutation) :
    Except IngestError (Workspace × Nat) → Prop
  | finished {final : Ingestion} (ends : EndsIn ⟨tree, Tracker.empty⟩ mutations final) :
      Concludes tree mutations
        ((Workspace.conclude final.results).value.map fun count => (final.workspace, count))
  | givenUp (error : IngestError) : Concludes tree mutations (.error error)

theorem length_results {workspace : Workspace} {mutations : List Mutation} {final : Ingestion}
    (ends : EndsIn workspace mutations final) : final.results.length = mutations.length := by
  have allEnded : ∀ job ∈ final.jobs, job.result?.isSome = true := by
    intro job member
    obtain ⟨mutation, result, same⟩ := ends.finished job member
    rw [same]
    rfl
  have sameMutations := congrArg List.length (map_mutation_of_runs ends.runs)
  rw [List.length_map, List.length_map] at sameMutations
  rw [results, List.length_filterMap_eq_countP, List.countP_eq_length.mpr allEnded,
    sameMutations]
  exact List.length_map Job.waiting

/-- A batch that succeeds counts each of its mutations. -/
theorem Concludes.count_eq {tree : Tree} {mutations : List Mutation} {workspace : Workspace}
    {count : Nat} (concludes : Concludes tree mutations (.ok (workspace, count))) :
    count = mutations.length := by
  generalize outcome : Except.ok (workspace, count) = result at concludes
  cases concludes with
  | givenUp error => cases outcome
  | @finished final ends =>
      cases answer : (Workspace.conclude final.results).value with
      | error error =>
          rw [answer] at outcome
          cases outcome
      | ok counted =>
          rw [answer] at outcome
          cases outcome
          rw [(Workspace.conclude_eq_ok_iff.mp answer).2, length_results ends]

theorem concludes_applyBatch (tree : Tree) (mutations : List Mutation) :
    let outcome := (Workspace.applyBatch ⟨tree, Tracker.empty⟩ mutations).value
    Concludes tree mutations (outcome.2.map fun count => (outcome.1, count)) := by
  intro outcome
  obtain ⟨final, ends, workspaceEq, resultsEq, _⟩ :=
    endsIn_applyEach ⟨tree, Tracker.empty⟩ mutations
  have finished := Concludes.finished ends
  rw [workspaceEq, resultsEq] at finished
  exact finished

end Ingestion

/-! ### Refreshing -/

namespace Bubbling

theorem Finished.remaining_eq_zero {state : Bubbling} (finished : state.Finished) :
    state.remaining = 0 := by
  unfold remaining
  rw [List.sum_eq_zero]
  intro length member
  obtain ⟨climb, isClimb, same⟩ := List.mem_map.mp member
  rw [← same, finished climb isClimb]
  rfl

theorem Finished.not_step {state after : Bubbling} (finished : state.Finished) :
    ¬state.Step after := by
  intro step
  have fewer := step.remaining_lt
  rw [finished.remaining_eq_zero] at fewer
  exact Nat.not_lt_zero _ fewer

/-- What a refresh makes of bubbles from these directories. -/
def verdict (points : List Path) (state : Bubbling) : Except RefreshError Tree :=
  match Tracker.failuresOf points state.results with
  | [] => .ok state.tree
  | failures => .error { attempted := points.length, failures := failures }

end Bubbling

namespace Waiting

variable {tree : Tree} {starts : List Path} {state last : Waiting}

theorem runs_of_bubbling {before after : Bubbling} (runs : before.Runs after)
    (reported : List Nat) : Runs ⟨before, reported⟩ ⟨after, reported⟩ := by
  induction runs with
  | refl => exact .refl
  | tail _ step inductionHypothesis => exact inductionHypothesis.tail (.bubble step)

/-- When all bubbles have ended, nothing is left but to report. -/
theorem bubbling_eq_of_runs (runs : Runs state last) (finished : state.bubbling.Finished) :
    last.bubbling = state.bubbling := by
  induction runs with
  | refl => rfl
  | tail _ step inductionHypothesis =>
      cases step with
      | bubble step =>
          rw [← inductionHypothesis] at finished
          exact absurd step finished.not_step
      | report _ _ _ => exact inductionHypothesis

theorem exists_runs_of_endsIn {final : Bubbling} (ends : Bubbling.EndsIn tree starts final) :
    ∃ last, Runs (start tree starts) last ∧ last.bubbling = final ∧
      last.reported.length = starts.length := by
  have runs : Runs (start tree starts) ⟨final, []⟩ := runs_of_bubbling ends.runs []
  obtain ⟨last, reports, all⟩ := exists_all_heard runs
  exact ⟨last, runs.trans reports, bubbling_eq_of_runs reports ends.finished, all⟩

end Waiting

/-- What a refresh in one of the two ways may come to: the bubbles from the children of
the tracker have ended, in whatever order they were started and took their steps, and a
detached refresh has heard of each. -/
inductive Workspace.Refreshes (workspace : Workspace) : Bool → Except RefreshError Tree → Prop
  | blocking {points : List Path} {final : Bubbling}
      (order : points.Perm workspace.tracker.children.members)
      (ends : Bubbling.EndsIn workspace.tree points final) :
      Refreshes workspace false (final.verdict points)
  | detached {points : List Path} {state : Waiting}
      (order : points.Perm workspace.tracker.children.members)
      (runs : Waiting.Runs (.start workspace.tree points) state)
      (heard : state.reported.length = workspace.tracker.childCount) :
      Refreshes workspace true (.ok state.bubbling.tree)

theorem Workspace.refreshes_refresh (workspace : Workspace) (detached : Bool) (clock : Clock) :
    workspace.Refreshes detached (refresh detached clock workspace).value := by
  obtain ⟨final, ends, value⟩ :=
    Bubbling.endsIn_bubbleEach clock workspace.tree workspace.tracker.children.members
  have order := List.Perm.refl workspace.tracker.children.members
  cases detached with
  | false =>
      rw [value_refresh_blocking, value]
      exact .blocking order ends
  | true =>
      obtain ⟨last, runs, same, all⟩ := Waiting.exists_runs_of_endsIn ends
      rw [value_refresh_detached, value, ← same]
      exact .detached order runs (all.trans (OrderedSet.length_members _))

/-! ### Working -/

/-- What the work of a run may come to in memory. -/
inductive Processes (detached : Bool) (tree : Tree) (mutations : List Mutation) :
    Except RunError Processed → Prop
  | stopped {error : IngestError}
      (concludes : Ingestion.Concludes tree mutations (.error error)) :
      Processes detached tree mutations (.error (.ingest error))
  | refreshed {workspace : Workspace} {count : Nat} {result : Except RefreshError Tree}
      (concludes : Ingestion.Concludes tree mutations (.ok (workspace, count)))
      (refreshes : workspace.Refreshes detached result) :
      Processes detached tree mutations
        ((result.map fun final => { tree := final, applied := count }).mapError .refresh)

theorem processes_process (clock : Clock) (detached : Bool) (tree : Tree)
    (mutations : List Mutation) :
    Processes detached tree mutations (process clock detached tree mutations).value := by
  have concludes := Ingestion.concludes_applyBatch tree mutations
  rw [value_process]
  cases applied : (Workspace.applyBatch ⟨tree, Tracker.empty⟩ mutations).value with
  | mk workspace answer =>
      rw [applied] at concludes
      cases answer with
      | error error => exact .stopped concludes
      | ok count =>
          have processes := Processes.refreshed concludes
            (workspace.refreshes_refresh detached clock)
          dsimp only
          cases refreshed : (refresh detached clock workspace).value with
          | error error =>
              rw [refreshed] at processes
              exact processes
          | ok final =>
              rw [refreshed] at processes
              exact processes

/-- One way in which the workers of a run may go about any batch, with what they
report. -/
structure Schedule where
  work : Work
  processes : ∀ detached tree mutations,
    Processes detached tree mutations (work detached tree mutations).value

/-- The mutations and then the bubbles are worked through in their order. -/
def Schedule.inOrder (clock : Clock) : Schedule where
  work := process clock
  processes := processes_process clock

/-- Nothing that may become of a batch is beyond all schedules. -/
theorem Processes.exists_schedule {detached : Bool} {tree : Tree} {mutations : List Mutation}
    {result : Except RunError Processed} (processes : Processes detached tree mutations result)
    (notices : List Notice) :
    ∃ schedule : Schedule,
      schedule.work detached tree mutations = { value := result, notices := notices } := by
  classical
  let work : Work := fun mode start batch =>
    if mode = detached ∧ start = tree ∧ batch = mutations then
      { value := result, notices := notices }
    else process (.still 0) mode start batch
  have allProcess (mode : Bool) (start : Tree) (batch : List Mutation) :
      Processes mode start batch (work mode start batch).value := by
    by_cases here : mode = detached ∧ start = tree ∧ batch = mutations
    · obtain ⟨rfl, rfl, rfl⟩ := here
      dsimp only [work]
      rw [if_pos ⟨rfl, rfl, rfl⟩]
      exact processes
    · dsimp only [work]
      rw [if_neg here]
      exact processes_process (.still 0) mode start batch
  exact ⟨⟨work, allProcess⟩, if_pos ⟨rfl, rfl, rfl⟩⟩

end Rollup

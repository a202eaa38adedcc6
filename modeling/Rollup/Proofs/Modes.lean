/-
The two ways to refresh, over whole runs.

A blocking run waits for every bubble and fails when one of them was stopped; a
detached run waits for as many completions as there are refresh points and saves
what it finds.  Up to the refresh both do the same, and a refresh leaves the same
tree in both.  So they can differ in one way only: the tree after the batch has an
obstacle above a tracked directory, and the blocking run fails where the detached
one goes on.
-/

import Rollup.Proofs.Completions
import Rollup.Proofs.Dispatching
import Rollup.Proofs.History
import Rollup.Proofs.Obstacles

namespace Rollup

/-! ### Trees but for the times -/

namespace Tree

/-- The same tree but for the times of its totals, after as many recomputations. -/
structure Alike (left right : Tree) : Prop where
  directories : left.directories.AgreeOn Directory.untimed right.directories
  recomputations : left.recomputations = right.recomputations

theorem alike_bubbleEach (tree : Tree) (starts : List Path) (clock later : Clock) :
    (Tracker.bubbleEach (bubbleFrom clock) starts tree).value.1.Alike
      (Tracker.bubbleEach (bubbleFrom later) starts tree).value.1 := by
  obtain ⟨settled, counted, _⟩ := tree.value_bubbleEach clock starts
  obtain ⟨otherSettled, otherCounted, _⟩ := tree.value_bubbleEach later starts
  exact ⟨settled.unique otherSettled, counted.trans otherCounted.symm⟩

theorem alike_of_endsIn {tree : Tree} {points starts : List Path} {final : Bubbling}
    (order : points.Perm starts) (ends : Bubbling.EndsIn tree points final) (clock : Clock) :
    final.tree.Alike (Tracker.bubbleEach (bubbleFrom clock) starts tree).value.1 := by
  obtain ⟨settled, counted, _⟩ := tree.value_bubbleEach clock starts
  have same (path : Path) :
      (∃ start ∈ points, path ∈ tree.directories.reach start) ↔
        ∃ start ∈ starts, path ∈ tree.directories.reach start := by
    simp only [order.mem_iff]
  refine ⟨(ends.settled.congr same).unique settled, ?_⟩
  rw [ends.recomputations_eq, counted]
  exact congrArg (tree.recomputations + ·) (order.map _).sum_eq

theorem totals?_congr {left right : Tree} (alike : left.Alike right) (path : Path) :
    (left.totals? path).map Totals.untimed = (right.totals? path).map Totals.untimed := by
  have same := congrArg (Option.map Directory.totals) (alike.directories path)
  rw [Option.map_map, Option.map_map] at same
  rw [totals?, totals?, Option.map_map, Option.map_map]
  exact same

end Tree

namespace Summary

/-- A printed summary shows no time. -/
theorem text_untimed (colored : Bool) (applied : Nat) (root : Totals) :
    text colored ⟨applied, root.untimed⟩ = text colored ⟨applied, root⟩ := rfl

theorem untimed_root_congr {left right : Tree} (alike : left.Alike right) (applied : Nat) :
    (ofTree left applied).root.untimed = (ofTree right applied).root.untimed := by
  rw [ofTree, ofTree, ← Option.getD_map Totals.untimed, ← Option.getD_map Totals.untimed,
    Tree.totals?_congr alike]

theorem text_congr {left right : Tree} (alike : left.Alike right) (applied : Nat)
    (colored : Bool) : (ofTree left applied).text colored = (ofTree right applied).text colored := by
  have roots := untimed_root_congr alike applied
  rw [ofTree, ofTree] at roots ⊢
  rw [← text_untimed, roots, text_untimed]

end Summary

/-! ### Refreshing in memory -/

section InMemory

variable {clock later : Clock} {tree : Tree} {workspace : Workspace} {mutations : List Mutation}

theorem exists_refresh_eq_error_iff (clock : Clock) (workspace : Workspace) :
    (∃ cause, (refresh false clock workspace).value = .error cause) ↔
      ∃ start ∈ workspace.tracker.children, ∃ path ∈ start.chain,
        workspace.tree.directories.Obstructed path := by
  have failures := (workspace.tree.value_bubbleEach clock workspace.tracker.children.members).2.2
  have noFailure : Tracker.failuresOf workspace.tracker.children.members
      (workspace.tracker.children.members.map workspace.tree.directories.outcome) = [] ↔
        ∀ start ∈ workspace.tracker.children, ∀ path ∈ start.chain,
          ¬workspace.tree.directories.Obstructed path := by
    rw [Tracker.failuresOf_eq_nil_iff, ← List.map_prod_left_eq_zip]
    simp only [List.forall_mem_map, OrderedSet.mem_members_iff, Directories.outcome_eq_ok_iff]
  rw [value_refresh_blocking, failures]
  constructor
  · intro failed
    by_contra none
    push Not at none
    rw [noFailure.mpr none] at failed
    obtain ⟨cause, impossible⟩ := failed
    cases impossible
  · intro ⟨start, isChild, path, inChain, obstructed⟩
    cases found : Tracker.failuresOf workspace.tracker.children.members
        (workspace.tracker.children.members.map workspace.tree.directories.outcome) with
    | nil => exact absurd obstructed (noFailure.mp found start isChild path inChain)
    | cons failure rest => exact ⟨_, rfl⟩

/-- The blocking way succeeds only with what the detached way finds, but for the
times. -/
theorem alike_of_refresh {refreshed : Tree}
    (succeeded : (refresh false clock workspace).value = .ok refreshed) (later : Clock) :
    ∃ other, (refresh true later workspace).value = .ok other ∧ refreshed.Alike other := by
  rw [value_refresh succeeded]
  exact ⟨_, value_refresh_detached later workspace, Tree.alike_bubbleEach _ _ clock later⟩

theorem alike_of_process {final : Processed}
    (succeeded : (process clock false tree mutations).value = .ok final) (later : Clock) :
    ∃ other, (process later true tree mutations).value = .ok other ∧
      final.applied = other.applied ∧ final.tree.Alike other.tree := by
  obtain ⟨workspace, applied, refreshed⟩ := process_eq_ok_iff.mp succeeded
  obtain ⟨other, found, alike⟩ := alike_of_refresh refreshed later
  exact ⟨⟨other, final.applied⟩, process_eq_ok_iff.mpr ⟨workspace, applied, found⟩, rfl, alike⟩

/-- Where the blocking way fails before the refresh, the detached way fails too. -/
theorem process_eq_error {error : RunError}
    (failed : (process clock false tree mutations).value = .error error) (later : Clock) :
    (∃ cause, error = .refresh cause) ∨
      (process later true tree mutations).value = .error error := by
  rcases process_eq_error_iff.mp failed with refused | ⟨_, _, cause, _, _, same⟩
  · exact Or.inr (process_eq_error_iff.mpr (Or.inl refused))
  · exact Or.inl ⟨cause, same⟩

theorem exists_process_eq_refresh_iff :
    (∃ cause, (process clock false tree mutations).value = .error (.refresh cause)) ↔
      ∃ workspace count,
        (Workspace.applyBatch ⟨tree, Tracker.empty⟩ mutations).value = (workspace, .ok count) ∧
          ∃ start ∈ workspace.tracker.children, ∃ path ∈ start.chain,
            workspace.tree.directories.Obstructed path := by
  simp only [process_eq_error_iff, ← exists_refresh_eq_error_iff clock]
  constructor
  · intro ⟨_, position⟩
    rcases position with ⟨_, _, _, impossible⟩ | ⟨workspace, count, cause, applied, failed, _⟩
    · cases impossible
    · exact ⟨workspace, count, applied, cause, failed⟩
  · intro ⟨workspace, count, applied, cause, failed⟩
    exact ⟨cause, Or.inr ⟨workspace, count, cause, applied, failed, rfl⟩⟩

-- the root lists a name that is no segment: only the blocking way minds
example :
    let tree := Tree.ofDirectories (OrderedMap.ofList
      [(Path.root, { Directory.empty with subdirs := OrderedSet.ofMembers [".."] })])
    let mutations := [Mutation.upsert "f" ⟨1, Binary64.zero, Binary64.one⟩]
    ¬(process (.still 0) false tree mutations).value.isOk ∧
      (process (.still 0) true tree mutations).value.isOk := by
  decide

end InMemory

/-! ### What a batch tracks -/

namespace Workspace

variable {workspace : Workspace}

theorem tracks_applyEach (workspace : Workspace) (mutations : List Mutation)
    (tracks : ∃ added, workspace.tracker.Tracks added) :
    ∃ added, (workspace.applyEach mutations).value.1.tracker.Tracks added := by
  induction mutations generalizing workspace with
  | nil => exact tracks
  | cons mutation rest inductionHypothesis =>
      apply inductionHypothesis (workspace.applyOne mutation).value.1
      rcases workspace.applyOne_cases mutation with
        ⟨error, failed⟩ | ⟨directory, updated, _, applied⟩
      · rw [failed]
        exact tracks
      · obtain ⟨added, tracks⟩ := tracks
        rw [applied]
        exact ⟨directory :: added, tracks.add directory⟩

theorem tracks_of_applyBatch {tree : Tree} {mutations : List Mutation} {count : Nat}
    (applied : (applyBatch ⟨tree, Tracker.empty⟩ mutations).value = (workspace, .ok count)) :
    ∃ added, workspace.tracker.Tracks added := by
  have tracks := tracks_applyEach ⟨tree, Tracker.empty⟩ mutations ⟨[], Tracker.Tracks.empty⟩
  rw [(of_applyBatch applied).2.1]
  exact tracks

/-- What lies above any tracked directory lies above a child. -/
theorem exists_above_tracked_iff {added : List Path} (tracks : workspace.tracker.Tracks added)
    {property : Path → Prop} :
    (∃ start, (start ∈ workspace.tracker.children ∨ start ∈ workspace.tracker.parents) ∧
        ∃ path ∈ start.chain, property path) ↔
      ∃ start ∈ workspace.tracker.children, ∃ path ∈ start.chain, property path := by
  simp only [tracks.tracked_iff_exists_child]
  constructor
  · intro ⟨start, ⟨child, isChild, inChain⟩, path, above, holds⟩
    exact ⟨child, isChild, path, Path.mem_chain_trans above inChain, holds⟩
  · intro ⟨child, isChild, path, above, holds⟩
    exact ⟨child, ⟨child, isChild, child.self_mem_chain⟩, path, above, holds⟩

/-! ### Waiting for what was dispatched -/

/-- A detached refresh hears of every child once, whatever became of its bubble, and
goes on as soon as it has heard that often: not before all bubbles have ended, and
at some time, in whatever order they run and report. -/
structure AwaitsEachChild (workspace : Workspace) (clock : Clock) : Prop where
  heard : (workspace.tracker.refreshDetached (Tree.bubbleDetached clock .listening)
    workspace.tree).value.2 = workspace.tracker.children.members
  finished : Notice.detachedFinished workspace.tracker.childCount ∈
    (refresh true clock workspace).notices
  bounded : ∀ points state, points.Perm workspace.tracker.children.members →
    Waiting.Runs (.start workspace.tree points) state →
      state.reported.length ≤ workspace.tracker.childCount
  reached : ∀ points state, points.Perm workspace.tracker.children.members →
    Waiting.Runs (.start workspace.tree points) state →
      ∃ last, Waiting.Runs state last ∧ last.reported.length = workspace.tracker.childCount
  complete : ∀ points state, points.Perm workspace.tracker.children.members →
    Waiting.Runs (.start workspace.tree points) state →
      state.reported.length = workspace.tracker.childCount →
        (state.heard points).Perm workspace.tracker.children.members ∧
        ∃ refreshed, (refresh true clock workspace).value = .ok refreshed ∧
          state.bubbling.tree.Alike refreshed

theorem heard_bubbleEachDetached (clock : Clock) (starts : List Path) (tree : Tree) :
    (Tracker.bubbleEachDetached (Tree.bubbleDetached clock .listening) starts tree).value.2 =
      starts := by
  induction starts generalizing tree with
  | nil => rfl
  | cons path rest inductionHypothesis =>
      rw [Tracker.bubbleEachDetached, Logged.value_bind, Logged.value_bind]
      have first := tree.heard_bubbleDetached clock .listening path
      rw [if_pos rfl] at first
      exact congrArg₂ (· ++ ·) first (inductionHypothesis _)

theorem awaitsEachChild (workspace : Workspace) (clock : Clock) :
    workspace.AwaitsEachChild clock := by
  have heard : (workspace.tracker.refreshDetached (Tree.bubbleDetached clock .listening)
      workspace.tree).value.2 = workspace.tracker.children.members :=
    heard_bubbleEachDetached clock _ _
  have counted {points : List Path}
      (order : points.Perm workspace.tracker.children.members) :
      points.length = workspace.tracker.childCount :=
    order.length_eq.trans (OrderedSet.length_members workspace.tracker.children)
  constructor
  · exact heard
  · rw [refresh, if_pos rfl]
    apply List.mem_append_left
    apply List.mem_append_right
    rw [← counted (List.Perm.of_eq heard)]
    exact List.mem_cons_self
  · intro points state order runs
    rw [← counted order]
    exact (Waiting.Consistent.of_runs runs).length_reported_le
  · intro points state order runs
    rw [← counted order]
    exact Waiting.exists_all_heard runs
  · intro points state order runs all
    rw [← counted order] at all
    have consistent := Waiting.Consistent.of_runs runs
    refine ⟨(consistent.heard_perm all).trans order, _, value_refresh_detached clock workspace, ?_⟩
    exact Tree.alike_of_endsIn order (consistent.endsIn all) clock

end Workspace

/-! ### Runs on files -/

/-- Whether and why a file cannot be written does not depend on its bytes. -/
theorem FileStore.writeFile_eq_error_congr {store : FileStore} {name : String}
    {bytes others : Bytes} {fault : StoreFault}
    (failed : store.writeFile name bytes = .error fault) :
    store.writeFile name others = .error fault := by
  unfold writeFile at failed ⊢
  cases located : store.locate name with
  | error other =>
      rw [located] at failed
      exact failed
  | ok path =>
      rw [located] at failed
      dsimp only at failed ⊢
      split at failed
      · exact failed
      · cases failed

namespace SnapshotFile

variable {directory : String} {store : FileStore}

/-- Whether a tree can be saved does not depend on the tree. -/
theorem save_agrees (directory : String) (left right : Tree) (store : FileStore) :
    (∃ leftAfter rightAfter,
        LoggedT.exec (save directory left) store = (.ok (), leftAfter) ∧
        Saved directory left leftAfter ∧
        LoggedT.exec (save directory right) store = (.ok (), rightAfter) ∧
        Saved directory right rightAfter) ∨
      ∃ error after, LoggedT.exec (save directory left) store = (.error error, after) ∧
        LoggedT.exec (save directory right) store = (.error error, after) := by
  rw [exec_save, exec_save]
  cases store.createFolders directory with
  | error fault => exact Or.inr ⟨_, _, rfl, rfl⟩
  | ok prepared =>
      dsimp only
      cases leftWritten : prepared.writeFile (fileIn directory) (bytesOf left) with
      | error fault =>
          rw [FileStore.writeFile_eq_error_congr leftWritten]
          exact Or.inr ⟨_, _, rfl, rfl⟩
      | ok leftAfter =>
          cases rightWritten : prepared.writeFile (fileIn directory) (bytesOf right) with
          | error fault =>
              rw [FileStore.writeFile_eq_error_congr rightWritten] at leftWritten
              cases leftWritten
          | ok rightAfter =>
              exact Or.inl ⟨leftAfter, rightAfter,
                rfl, saved_of_readFile (FileStore.readFile_of_writeFile leftWritten),
                rfl, saved_of_readFile (FileStore.readFile_of_writeFile rightWritten)⟩

end SnapshotFile

namespace Invocation

/-- The same run in one of the two ways to refresh, at some time. -/
def inMode (invocation : Invocation) (detached : Bool) (clock : Clock) : Invocation :=
  { invocation with
    options := { invocation.options with detached := detached }
    clock := clock }

theorem outcome_inMode (invocation : Invocation) (detached : Bool) (clock : Clock)
    (store : FileStore) :
    (invocation.inMode detached clock).outcome store =
      match (DataDirectory.choose invocation.options.dataDirectory
          invocation.environment).value with
      | .error cause => (.error (.dataDirectory cause), store)
      | .ok directory =>
          match invocation.batch store with
          | .error error => (.error (.manifest error), store)
          | .ok mutations =>
              match (process clock detached (SnapshotFile.treeIn directory store)
                  mutations).value with
              | .error error => (.error error, store)
              | .ok final =>
                  match LoggedT.exec (SnapshotFile.save directory final.tree) store with
                  | (.error error, after) => (.error (.snapshot error), after)
                  | (.ok (), after) => (.ok final, after) :=
  (invocation.inMode detached clock).outcomeWith_eq (process clock) store

variable {invocation : Invocation} {store : FileStore} {clock later : Clock}

/-- How a blocking run, on the left, compares with a detached one: both save the
same tree but for its times, or both fail alike, or the blocking run fails in its
refresh. -/
inductive Compares (invocation : Invocation) :
    Except RunError Processed × FileStore → Except RunError Processed × FileStore → Prop
  | saved {final other : Processed} {after otherAfter : FileStore}
      (applied : final.applied = other.applied) (alike : final.tree.Alike other.tree)
      (stored : ∀ directory, invocation.Uses directory →
        SnapshotFile.Saved directory final.tree after ∧
        SnapshotFile.Saved directory other.tree otherAfter) :
      Compares invocation (.ok final, after) (.ok other, otherAfter)
  | failed {error : RunError} {after : FileStore} :
      Compares invocation (.error error, after) (.error error, after)
  | refreshFailed {cause : RefreshError} {after : FileStore}
      {detached : Except RunError Processed × FileStore} :
      Compares invocation (.error (.refresh cause), after) detached

namespace Compares

variable {blocking detached : Except RunError Processed × FileStore}

theorem exists_of_ok (compared : invocation.Compares blocking detached) {final : Processed}
    {after : FileStore} (succeeded : blocking = (.ok final, after)) :
    ∃ other otherAfter, detached = (.ok other, otherAfter) ∧
      final.applied = other.applied ∧ final.tree.Alike other.tree ∧
      ∀ directory, invocation.Uses directory →
        SnapshotFile.Saved directory final.tree after ∧
        SnapshotFile.Saved directory other.tree otherAfter := by
  cases compared with
  | saved applied alike stored =>
      cases succeeded
      exact ⟨_, _, rfl, applied, alike, stored⟩
  | failed => cases succeeded
  | refreshFailed => cases succeeded

theorem eq_of_error (compared : invocation.Compares blocking detached) {error : RunError}
    (failed : blocking.1 = .error error) (notRefresh : ∀ cause, error ≠ .refresh cause) :
    detached.1 = .error error := by
  cases compared with
  | saved _ _ _ => cases failed
  | failed => exact failed
  | @refreshFailed cause after detached =>
      cases failed
      exact absurd rfl (notRefresh cause)

end Compares

theorem compares (invocation : Invocation) (store : FileStore) (clock later : Clock) :
    invocation.Compares ((invocation.inMode false clock).outcome store)
      ((invocation.inMode true later).outcome store) := by
  rw [outcome_inMode, outcome_inMode]
  -- until the refresh both runs do the same, so what fails there fails alike
  cases chosen : (DataDirectory.choose invocation.options.dataDirectory
      invocation.environment).value with
  | error cause => exact .failed
  | ok directory =>
      dsimp only
      cases invocation.batch store with
      | error error => exact .failed
      | ok mutations =>
          dsimp only
          cases blocking : (process clock false (SnapshotFile.treeIn directory store)
              mutations).value with
          | error error =>
              rcases process_eq_error blocking later with ⟨cause, rfl⟩ | same
              · exact .refreshFailed
              · rw [same]
                exact .failed
          | ok final =>
              obtain ⟨other, detached, applied, alike⟩ := alike_of_process blocking later
              rw [detached]
              dsimp only
              rcases SnapshotFile.save_agrees directory final.tree other.tree store with
                ⟨after, otherAfter, ended, saved, otherEnded, otherSaved⟩ |
                  ⟨error, after, failed, otherFailed⟩
              · rw [ended, otherEnded]
                refine .saved applied alike fun used uses => ?_
                have same := chosen.symm.trans (uses_iff.mp uses)
                cases same
                exact ⟨saved, otherSaved⟩
              · rw [failed, otherFailed]
                exact .failed

/-- The run gets as far as its refresh, in this workspace: its batch was read and
every mutation of it succeeded. -/
def Ingests (invocation : Invocation) (store : FileStore) (workspace : Workspace) : Prop :=
  ∃ directory mutations count, invocation.Uses directory ∧
    invocation.batch store = .ok mutations ∧
    (Workspace.applyBatch ⟨SnapshotFile.treeIn directory store, Tracker.empty⟩
      mutations).value = (workspace, .ok count)

/-- A run fails in its refresh only where the work in memory does. -/
theorem outcome_eq_refresh_iff {detached : Bool} {cause : RefreshError} :
    ((invocation.inMode detached clock).outcome store).1 = .error (.refresh cause) ↔
      ∃ directory mutations, invocation.Uses directory ∧
        invocation.batch store = .ok mutations ∧
        (process clock detached (SnapshotFile.treeIn directory store) mutations).value =
          .error (.refresh cause) := by
  simp only [uses_iff]
  rw [outcome_inMode]
  cases (DataDirectory.choose invocation.options.dataDirectory invocation.environment).value with
  | error fault => simp
  | ok directory =>
      cases invocation.batch store with
      | error error => simp
      | ok mutations =>
          simp only [Except.ok.injEq, exists_and_left, exists_eq_left']
          cases (process clock detached (SnapshotFile.treeIn directory store) mutations).value with
          | error error => rfl
          | ok final =>
              dsimp only
              split <;> simp

theorem exists_outcome_eq_refresh_iff :
    (∃ cause, ((invocation.inMode false clock).outcome store).1 = .error (.refresh cause)) ↔
      ∃ workspace, invocation.Ingests store workspace ∧
        ∃ start ∈ workspace.tracker.children, ∃ path ∈ start.chain,
          workspace.tree.directories.Obstructed path := by
  simp only [outcome_eq_refresh_iff]
  constructor
  · intro ⟨cause, directory, mutations, uses, batch, failed⟩
    obtain ⟨workspace, count, applied, obstructed⟩ :=
      exists_process_eq_refresh_iff.mp ⟨cause, failed⟩
    exact ⟨workspace, ⟨directory, mutations, count, uses, batch, applied⟩, obstructed⟩
  · intro ⟨workspace, ⟨directory, mutations, count, uses, batch, applied⟩, obstructed⟩
    obtain ⟨cause, failed⟩ := exists_process_eq_refresh_iff.mpr
      ⟨workspace, count, applied, obstructed⟩
    exact ⟨cause, directory, mutations, uses, batch, failed⟩

/-- Where a blocking run succeeds, the detached run saves the same tree but for its
times, and each file decodes to the tree it holds; the summaries show the same.
Where it fails, the detached run fails with the same error, unless it was the refresh
that failed.  The refresh fails exactly when the batch succeeds and then leads from
some tracked directory up to the root past an obstacle.  The detached run waits for
one completion of each child. -/
theorem modes_agree (invocation : Invocation) (store : FileStore) (clock later : Clock) :
    let blocking := invocation.inMode false clock
    let detached := invocation.inMode true later
    (∀ final after, blocking.outcome store = (.ok final, after) →
        ∃ other otherAfter, detached.outcome store = (.ok other, otherAfter) ∧
          final.applied = other.applied ∧ final.tree.Alike other.tree ∧
          ∀ directory, invocation.Uses directory →
            SnapshotFile.Saved directory final.tree after ∧
            SnapshotFile.Saved directory other.tree otherAfter) ∧
      (∀ summary, (blocking.perform store).1 = .ok summary →
        ∃ other, (detached.perform store).1 = .ok other ∧
          other.applied = summary.applied ∧ other.root.untimed = summary.root.untimed ∧
          ∀ colored, other.text colored = summary.text colored) ∧
      (∀ error, (blocking.perform store).1 = .error error →
        (∀ cause, error ≠ .refresh cause) → (detached.perform store).1 = .error error) ∧
      ((∃ cause, (blocking.perform store).1 = .error (.refresh cause)) ↔
        ∃ workspace, invocation.Ingests store workspace ∧
          ∃ start, (start ∈ workspace.tracker.children ∨ start ∈ workspace.tracker.parents) ∧
            ∃ path ∈ start.chain, workspace.tree.directories.Obstructed path) ∧
      ∀ workspace, invocation.Ingests store workspace → workspace.AwaitsEachChild later := by
  intro blocking detached
  have compared : invocation.Compares (blocking.outcome store) (detached.outcome store) :=
    invocation.compares store clock later
  refine ⟨?_, ?_, ?_, ?_, fun workspace _ => workspace.awaitsEachChild later⟩
  · exact fun final after succeeded => compared.exists_of_ok succeeded
  · intro summary succeeded
    obtain ⟨final, ended, printed⟩ := perform_eq_ok_iff.mp succeeded
    obtain ⟨other, otherAfter, otherEnded, applied, alike, _⟩ :=
      compared.exists_of_ok (Prod.ext ended rfl)
    refine ⟨_, perform_eq_ok_iff.mpr ⟨other, congrArg Prod.fst otherEnded, rfl⟩, ?_⟩
    rw [← printed, ← applied]
    exact ⟨rfl, (Summary.untimed_root_congr alike final.applied).symm,
      fun colored => (Summary.text_congr alike final.applied colored).symm⟩
  · simp only [perform_eq_error_iff]
    exact fun error failed notRefresh => compared.eq_of_error failed notRefresh
  -- every tracked directory lies above a child, so the children's chains are all chains
  · simp only [perform_eq_error_iff]
    refine exists_outcome_eq_refresh_iff.trans (exists_congr fun workspace => ?_)
    refine and_congr_right fun ⟨_, _, _, _, _, applied⟩ => ?_
    obtain ⟨added, tracks⟩ := Workspace.tracks_of_applyBatch applied
    exact (Workspace.exists_above_tracked_iff tracks).symm

end Invocation

end Rollup

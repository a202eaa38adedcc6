/-
Batches of mutations in memory.

A batch that is applied to an exact tree and succeeds is, to the files by their
paths, a series of set and delete operations; refreshing what it touched, in
either way, makes all totals exact again.
-/

import Rollup.Run
import Rollup.Proofs.Catalogue

namespace Rollup

namespace Mutation

/-- The mutation as an operation on the files by their paths. -/
def applyTo (files : OrderedMap Path FileRecord) (mutation : Mutation) : OrderedMap Path FileRecord :=
  match Path.ofFile mutation.file with
  | .error _ => files
  | .ok path =>
      match mutation with
      | .upsert _ record => files.insert path record
      | .remove _ => files.erase path

/-- The files after these mutations, from none. -/
def filesAfter (mutations : List Mutation) : OrderedMap Path FileRecord :=
  mutations.foldl applyTo ∅

end Mutation

theorem Catalogue.files_of_mutate {catalogue next : Catalogue} {mutation : Mutation}
    {directory : Path} (succeeded : catalogue.mutate mutation = .ok (directory, next)) :
    next.files = mutation.applyTo catalogue.files := by
  obtain ⟨path, read, ⟨file, record, rfl, rfl⟩ | ⟨file, rfl, rfl⟩⟩ := mutate_cases succeeded
  · rw [Mutation.applyTo, read]
    rfl
  · rw [Mutation.applyTo, read]
    rfl

namespace Workspace

theorem failuresOf_eq_nil_iff {results : List (Except IngestError Unit)} :
    failuresOf results = [] ↔ ∀ error, .error error ∉ results := by
  induction results with
  | nil => simp [failuresOf]
  | cons result rest inductionHypothesis =>
      cases result with
      | ok _ => simp [failuresOf, inductionHypothesis]
      | error cause =>
          constructor
          · intro impossible
            cases impossible
          · intro none
            exact absurd List.mem_cons_self (none cause)

theorem successCount_eq_length {results : List (Except IngestError Unit)}
    (noFailure : failuresOf results = []) : successCount results = results.length := by
  induction results with
  | nil => rfl
  | cons result rest inductionHypothesis =>
      cases result with
      | ok _ => exact congrArg (· + 1) (inductionHypothesis noFailure)
      | error cause => cases noFailure

/-- What is counted as applied is everything, as soon as nothing failed. -/
theorem value_conclude (results : List (Except IngestError Unit)) :
    (conclude results).value =
      match (failuresOf results).head? with
      | none => .ok results.length
      | some first => .error first := by
  unfold conclude
  cases failures : failuresOf results with
  | nil => exact congrArg Except.ok (successCount_eq_length failures)
  | cons first rest => rfl

theorem conclude_eq_ok_iff {results : List (Except IngestError Unit)} {count : Nat} :
    (conclude results).value = .ok count ↔ failuresOf results = [] ∧ count = results.length := by
  rw [value_conclude]
  cases failuresOf results <;> simp [eq_comm]

/-! ### Applying -/

section Apply

variable {workspace : Workspace} {catalogue : Catalogue}

theorem Covered.applyEach (covered : workspace.Covered) (mutations : List Mutation) :
    (workspace.applyEach mutations).value.1.Covered := by
  induction mutations generalizing workspace with
  | nil => exact covered
  | cons mutation rest inductionHypothesis => exact inductionHypothesis (covered.mutate mutation)

theorem describes_applyOne (describes : catalogue.Describes workspace.tree.directories)
    {mutation : Mutation} (succeeded : (workspace.applyOne mutation).value.2 = .ok ()) :
    ∃ next : Catalogue, next.files = mutation.applyTo catalogue.files ∧
      next.Describes (workspace.applyOne mutation).value.1.tree.directories := by
  unfold applyOne at succeeded ⊢
  rw [Logged.value_bind] at succeeded ⊢
  rcases refused_or_performed workspace.tree mutation with
    ⟨cause, refused⟩ | ⟨directory, updated, performed⟩
  · rw [refused.value] at succeeded
    cases succeeded
  · obtain ⟨next, result, describesNext⟩ := describes.performed performed
    rw [performed.value]
    exact ⟨next, Catalogue.files_of_mutate result, describesNext⟩

theorem describes_applyEach {mutations : List Mutation}
    (succeeded : failuresOf (workspace.applyEach mutations).value.2 = [])
    (describes : catalogue.Describes workspace.tree.directories) :
    ∃ next : Catalogue, next.files = mutations.foldl Mutation.applyTo catalogue.files ∧
      next.Describes (workspace.applyEach mutations).value.1.tree.directories := by
  induction mutations generalizing workspace catalogue with
  | nil => exact ⟨catalogue, rfl, describes⟩
  | cons mutation rest inductionHypothesis =>
      have results : (workspace.applyEach (mutation :: rest)).value.2 =
          (workspace.applyOne mutation).value.2 ::
            ((workspace.applyOne mutation).value.1.applyEach rest).value.2 := rfl
      rw [results] at succeeded
      cases first : (workspace.applyOne mutation).value.2 with
      | error cause =>
          rw [first] at succeeded
          cases succeeded
      | ok _ =>
          rw [first] at succeeded
          obtain ⟨middle, middleFiles, middleDescribes⟩ := describes_applyOne describes first
          obtain ⟨next, nextFiles, nextDescribes⟩ := inductionHypothesis succeeded middleDescribes
          refine ⟨next, ?_, nextDescribes⟩
          rw [nextFiles, middleFiles, List.foldl_cons]

theorem value_applyBatch (workspace : Workspace) (mutations : List Mutation) :
    (workspace.applyBatch mutations).value =
      ((workspace.applyEach mutations).value.1,
        (conclude (workspace.applyEach mutations).value.2).value) := rfl

theorem of_applyBatch {final : Workspace} {mutations : List Mutation} {count : Nat}
    (applied : (workspace.applyBatch mutations).value = (final, .ok count)) :
    failuresOf (workspace.applyEach mutations).value.2 = [] ∧
      final = (workspace.applyEach mutations).value.1 ∧ count = mutations.length := by
  rw [value_applyBatch, Prod.mk.injEq, conclude_eq_ok_iff, length_applyEach] at applied
  obtain ⟨same, noFailure, length⟩ := applied
  exact ⟨noFailure, same.symm, length⟩

end Apply

end Workspace

/-! ### Applying and refreshing -/

/-- The tree holds exactly these files, each at its path, and exact totals. -/
structure Tree.Keeps (tree : Tree) (files : OrderedMap Path FileRecord) : Prop where
  described : ∃ catalogue : Catalogue, catalogue.files = files ∧
    catalogue.Describes tree.directories
  exact : tree.directories.AllExact

theorem Tree.keeps_fresh : Tree.fresh.Keeps ∅ where
  described := ⟨Catalogue.initial, rfl, .initial⟩
  exact := Tree.allExact_fresh

theorem value_refresh_detached (clock : Clock) (workspace : Workspace) :
    (refresh true clock workspace).value =
      .ok (Tracker.bubbleEach (Tree.bubbleFrom clock) workspace.tracker.children.members
        workspace.tree).value.1 := by
  rw [refresh, if_pos rfl, Logged.value_bind]
  exact congrArg Except.ok
    (Tracker.value_refreshDetached (Tree.value_bubbleDetached clock .listening) _ _)

theorem value_refresh_blocking (clock : Clock) (workspace : Workspace) :
    (refresh false clock workspace).value =
      match (Tracker.bubbleEach (Tree.bubbleFrom clock) workspace.tracker.children.members
          workspace.tree).value.2 with
      | [] => .ok (Tracker.bubbleEach (Tree.bubbleFrom clock) workspace.tracker.children.members
          workspace.tree).value.1
      | failures =>
          .error { attempted := workspace.tracker.children.members.length
                   failures := failures } := by
  rw [refresh, if_neg Bool.false_ne_true, refreshBlocking, Logged.value_bind,
    Tracker.value_refreshBlocking]
  cases (Tracker.bubbleEach (Tree.bubbleFrom clock) workspace.tracker.children.members
    workspace.tree).value.2 <;> rfl

/-- Both ways to refresh bubble from every child of the tracker. -/
theorem value_refresh {detached : Bool} {clock : Clock} {workspace : Workspace} {refreshed : Tree}
    (succeeded : (refresh detached clock workspace).value = .ok refreshed) :
    refreshed = (Tracker.bubbleEach (Tree.bubbleFrom clock) workspace.tracker.children.members
      workspace.tree).value.1 := by
  cases detached with
  | true =>
      rw [value_refresh_detached] at succeeded
      cases succeeded
      rfl
  | false =>
      rw [value_refresh_blocking] at succeeded
      split at succeeded
      · cases succeeded
        rfl
      · cases succeeded

theorem value_process (detached : Bool) (clock : Clock) (tree : Tree) (mutations : List Mutation) :
    (process clock detached tree mutations).value =
      match (Workspace.applyBatch ⟨tree, Tracker.empty⟩ mutations).value with
      | (_, .error error) => .error (.ingest error)
      | (workspace, .ok count) =>
          match (refresh detached clock workspace).value with
          | .error error => .error (.refresh error)
          | .ok final => .ok { tree := final, applied := count } := by
  rw [process, Logged.value_bind]
  cases (Workspace.applyBatch ⟨tree, Tracker.empty⟩ mutations).value with
  | mk workspace applied =>
      cases applied with
      | error error => rfl
      | ok count =>
          simp only [Logged.value_bind]
          cases (refresh detached clock workspace).value <;> rfl

section Process

variable {detached : Bool} {clock : Clock} {tree : Tree} {mutations : List Mutation}

theorem process_eq_ok_iff {final : Processed} :
    (process clock detached tree mutations).value = .ok final ↔
      ∃ workspace,
        (Workspace.applyBatch ⟨tree, Tracker.empty⟩ mutations).value =
          (workspace, .ok final.applied) ∧
        (refresh detached clock workspace).value = .ok final.tree := by
  rw [value_process]
  cases (Workspace.applyBatch ⟨tree, Tracker.empty⟩ mutations).value with
  | mk workspace applied =>
      cases applied with
      | error cause => simp
      | ok count =>
          cases final
          cases refreshed : (refresh detached clock workspace).value with
          | error cause => simp [refreshed]
          | ok refreshedTree => simp [refreshed, and_comm]

theorem process_eq_error_iff {error : RunError} :
    (process clock detached tree mutations).value = .error error ↔
      (∃ workspace cause,
        (Workspace.applyBatch ⟨tree, Tracker.empty⟩ mutations).value = (workspace, .error cause) ∧
          error = .ingest cause) ∨
      ∃ workspace count cause,
        (Workspace.applyBatch ⟨tree, Tracker.empty⟩ mutations).value = (workspace, .ok count) ∧
          (refresh detached clock workspace).value = .error cause ∧ error = .refresh cause := by
  rw [value_process]
  cases (Workspace.applyBatch ⟨tree, Tracker.empty⟩ mutations).value with
  | mk workspace applied =>
      cases applied with
      | error cause => simp [eq_comm]
      | ok count =>
          cases refreshed : (refresh detached clock workspace).value with
          | error cause => simp [refreshed, eq_comm]
          | ok refreshedTree => simp [refreshed]

theorem process_of_ok {processed : Processed}
    (succeeded : (process clock detached tree mutations).value = .ok processed) :
    let outcome := (Workspace.applyEach ⟨tree, Tracker.empty⟩ mutations).value
    Workspace.failuresOf outcome.2 = [] ∧ processed.applied = mutations.length ∧
      processed.tree = (Tracker.bubbleEach (Tree.bubbleFrom clock)
        outcome.1.tracker.children.members outcome.1.tree).value.1 := by
  intro outcome
  obtain ⟨workspace, applied, refreshed⟩ := process_eq_ok_iff.mp succeeded
  obtain ⟨noFailure, same, count⟩ := Workspace.of_applyBatch applied
  rw [same] at refreshed
  exact ⟨noFailure, count, value_refresh refreshed⟩

end Process

theorem Tree.Keeps.process {detached : Bool} {clock : Clock} {tree : Tree}
    {files : OrderedMap Path FileRecord} {mutations : List Mutation} {processed : Processed}
    (keeps : tree.Keeps files)
    (succeeded : (process clock detached tree mutations).value = .ok processed) :
    processed.tree.Keeps (mutations.foldl Mutation.applyTo files) := by
  obtain ⟨catalogue, sameFiles, describes⟩ := keeps.described
  obtain ⟨noFailure, _, refreshed⟩ := process_of_ok succeeded
  have covered : Workspace.Covered ⟨tree, Tracker.empty⟩ :=
    .of_empty rfl describes.wellFormed keeps.exact
  have coveredAfter := covered.applyEach mutations
  obtain ⟨next, nextFiles, nextDescribes⟩ := Workspace.describes_applyEach noFailure describes
  have settled := (Tree.value_bubbleEach clock
    (Workspace.applyEach ⟨tree, Tracker.empty⟩ mutations).value.1.tree
    (Workspace.applyEach ⟨tree, Tracker.empty⟩ mutations).value.1.tracker.children.members).1
  rw [← refreshed] at settled
  constructor
  · refine ⟨next, ?_, nextDescribes.of_agreeOn settled.contents⟩
    rw [nextFiles, sameFiles]
  · exact coveredAfter.allExact (fun child isChild => OrderedSet.mem_members_iff.mpr isChild) settled

end Rollup

/-
Applying a batch of mutations.

A mutation changes the tree and then tracks the directory of its file.  All
mutations of a batch are attempted; the first failure is the batch's result.
-/

import Rollup.Tree
import Rollup.Tracker

namespace Rollup

inductive Mutation where
  | upsert (file : String) (record : FileRecord)
  | remove (file : String)
  deriving DecidableEq

def Mutation.file : Mutation → String
  | .upsert file _ => file
  | .remove file => file

/-- The tree of a run and the tracker of what was touched in it. -/
structure Workspace where
  tree : Tree
  tracker : Tracker

namespace Workspace

instance : Inhabited Workspace := ⟨{ tree := default, tracker := default }⟩

/-- The change that a mutation makes to the tree. -/
def mutateTree (tree : Tree) : Mutation → Logged (Except TreeError (Path × Tree))
  | .upsert file record => tree.upsertFile file record
  | .remove file => tree.removeFile file

/-- Applies a mutation: first to the tree, then to the tracker. -/
def applyOne (workspace : Workspace) (mutation : Mutation) :
    Logged (Workspace × Except IngestError Unit) := do
  let mutated ← mutateTree workspace.tree mutation
  match mutated with
  | .error cause => pure (workspace, .error (.mutation mutation.file cause))
  | .ok (directory, tree) =>
      let (tracker, tracked) ← workspace.tracker.add Refusals.none directory
      let result : Except IngestError Unit :=
        match tracked with
        | .ok () => .ok ()
        | .error cause => .error (.tracking mutation.file cause)
      pure ({ tree := tree, tracker := tracker }, result)

/-- Applies mutations one after the other and collects the results. -/
def applyEach (workspace : Workspace) :
    List Mutation → Logged (Workspace × List (Except IngestError Unit))
  | [] => pure (workspace, [])
  | mutation :: rest => do
      let (applied, result) ← workspace.applyOne mutation
      let (final, results) ← applied.applyEach rest
      pure (final, result :: results)

def failuresOf : List (Except IngestError Unit) → List IngestError
  | [] => []
  | .ok () :: rest => failuresOf rest
  | .error error :: rest => error :: failuresOf rest

def successCount : List (Except IngestError Unit) → Nat
  | [] => 0
  | .ok () :: rest => successCount rest + 1
  | .error _ :: rest => successCount rest

/-- Reports the failures among the results of a batch.  The answer is the first of
them or, if there is none, how many mutations were applied. -/
def conclude (results : List (Except IngestError Unit)) : Logged (Except IngestError Nat) := do
  let failures := failuresOf results
  Logged.noteAll (failures.map Notice.mutationFailed)
  match failures with
  | [] => do
      Logged.note (.mutationsApplied (successCount results))
      return .ok (successCount results)
  | first :: _ => return .error first

/-- Applies a whole batch, whatever becomes of its mutations. -/
def applyBatch (workspace : Workspace) (mutations : List Mutation) :
    Logged (Workspace × Except IngestError Nat) := do
  Logged.note (.dispatchingMutations mutations.length)
  let (final, results) ← workspace.applyEach mutations
  let answer ← conclude results
  pure (final, answer)

end Workspace

end Rollup

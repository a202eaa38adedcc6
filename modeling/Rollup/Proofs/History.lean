/-
Runs over one data directory.

A run loads the tree of its data directory, applies one batch and saves the tree,
or it fails and leaves the snapshot as it was.  So whatever happens to the other
files in between, the snapshot holds the files that the successful batches one
after the other come to, and the exact totals of these.
-/

import Rollup.Proofs.Batches
import Rollup.Proofs.SnapshotFormat
import Rollup.Proofs.StoredFiles

namespace Rollup

/-! ### Effects on the store -/

namespace LoggedT

/-- The answer of a step on a store, and the store afterwards. -/
def exec {α : Type} (step : LoggedT (StateM FileStore) α) (store : FileStore) : α × FileStore :=
  let outcome := StateT.run (m := Id) step.run store
  (outcome.1.value, outcome.2)

theorem exec_bind {α β : Type} (step : LoggedT (StateM FileStore) α)
    (next : α → LoggedT (StateM FileStore) β) (store : FileStore) :
    exec (step >>= next) store = exec (next (exec step store).1) (exec step store).2 := rfl

theorem exec_pure {α : Type} (value : α) (store : FileStore) :
    exec (pure value) store = (value, store) := rfl

theorem exec_ofLogged {α : Type} (step : Logged α) (store : FileStore) :
    exec (ofLogged step) store = (step.value, store) := rfl

theorem exec_note (notice : Notice) (store : FileStore) : exec (note notice) store = ((), store) := rfl

theorem exec_readFile (name : String) (store : FileStore) :
    exec (lift (FileSystem.readFile name)) store = (store.readFile name, store) := rfl

private theorem exec_changeStore (change : FileStore → Except StoreFault FileStore)
    (store : FileStore) :
    exec (lift (changeStore change)) store =
      match change store with
      | .error fault => (.error fault, store)
      | .ok changed => (.ok (), changed) := by
  have outcome : exec (lift (changeStore change)) store = changeStore change store := rfl
  rw [outcome, changeStore]
  cases change store <;> rfl

theorem exec_createFolders (name : String) (store : FileStore) :
    exec (lift (FileSystem.createFolders name)) store =
      match store.createFolders name with
      | .error fault => (.error fault, store)
      | .ok created => (.ok (), created) :=
  exec_changeStore _ store

theorem exec_writeFile (name : String) (bytes : Bytes) (store : FileStore) :
    exec (lift (FileSystem.writeFile name bytes)) store =
      match store.writeFile name bytes with
      | .error fault => (.error fault, store)
      | .ok written => (.ok (), written) :=
  exec_changeStore _ store

end LoggedT

/-! ### The snapshot in the store -/

namespace SnapshotFile

variable {directory : String} {store : FileStore}

/-- The tree that a run starts from. -/
def treeIn (directory : String) (store : FileStore) : Tree :=
  (startFrom (interpret (fileIn directory) (store.readFile (fileIn directory)))).value

theorem exec_load (directory : String) (store : FileStore) :
    LoggedT.exec (load directory) store = (treeIn directory store, store) := by
  rw [load, tryLoad, LoggedT.exec_bind, LoggedT.exec_bind, LoggedT.exec_note, LoggedT.exec_bind,
    LoggedT.exec_readFile, LoggedT.exec_pure, LoggedT.exec_ofLogged, treeIn]

theorem treeIn_of_missing
    (missing : ∀ bytes, store.readFile (fileIn directory) ≠ .ok bytes) :
    treeIn directory store = Tree.fresh := by
  unfold treeIn
  cases found : store.readFile (fileIn directory) with
  | error fault => cases fault <;> rfl
  | ok bytes => exact absurd found (missing bytes)

theorem treeIn_of_readFile {bytes : Bytes} {tree : Tree}
    (found : store.readFile (fileIn directory) = .ok bytes) (decoded : treeOf bytes = .ok tree) :
    treeIn directory store = tree := by
  rw [treeIn, found, interpret, decoded]
  rfl

theorem exec_save (directory : String) (tree : Tree) (store : FileStore) :
    LoggedT.exec (save directory tree) store =
      match store.createFolders directory with
      | .error fault => (.error (.createDirectory directory fault), store)
      | .ok prepared =>
          match prepared.writeFile (fileIn directory) (bytesOf tree) with
          | .error fault => (.error (.write (fileIn directory) fault), prepared)
          | .ok after => (.ok (), after) := by
  rw [save, LoggedT.exec_bind, LoggedT.exec_createFolders]
  cases store.createFolders directory with
  | error fault => rfl
  | ok prepared =>
      dsimp only
      rw [LoggedT.exec_bind, LoggedT.exec_writeFile]
      cases prepared.writeFile (fileIn directory) (bytesOf tree) <;> rfl

/-- Saving writes the snapshot, or it fails and a file that is there stays as it
was. -/
theorem save_cases (directory : String) (tree : Tree) (store : FileStore) :
    let outcome := LoggedT.exec (save directory tree) store
    outcome.1 = .ok () ∧ outcome.2.readFile (fileIn directory) = .ok (bytesOf tree) ∨
      (∃ error, outcome.1 = .error error) ∧
        ∀ bytes, outcome.2.readFile (fileIn directory) = .ok bytes ↔
          store.readFile (fileIn directory) = .ok bytes := by
  intro outcome
  have value : outcome = LoggedT.exec (save directory tree) store := rfl
  rw [exec_save] at value
  cases created : store.createFolders directory with
  | error fault =>
      rw [created] at value
      rw [value]
      exact Or.inr ⟨⟨_, rfl⟩, fun _ => Iff.rfl⟩
  | ok prepared =>
      -- the folders may be new even if the write fails; no file is
      rw [created] at value
      dsimp only at value
      cases written : prepared.writeFile (fileIn directory) (bytesOf tree) with
      | error fault =>
          rw [written] at value
          rw [value]
          refine Or.inr ⟨⟨_, rfl⟩, fun bytes => ⟨fun read => ?_, fun read => ?_⟩⟩
          · exact absurd read (FileStore.readFile_ne_ok_of_writeFile written bytes)
          · exact FileStore.readFile_of_createFolders created read
      | ok after =>
          rw [written] at value
          rw [value]
          exact Or.inl ⟨rfl, FileStore.readFile_of_writeFile written⟩

theorem readFile_of_save {tree : Tree} {after : FileStore}
    (saved : LoggedT.exec (save directory tree) store = (.ok (), after)) :
    after.readFile (fileIn directory) = .ok (bytesOf tree) := by
  have cases := save_cases directory tree store
  rw [saved] at cases
  rcases cases with ⟨_, written⟩ | ⟨⟨_, impossible⟩, _⟩
  · exact written
  · cases impossible

theorem treeOf_bytesOf_of_length {tree : Tree}
    (fits : (bytesOf tree).length < 2 ^ 64) :
    treeOf (bytesOf tree) = .ok { tree with recomputations := 0 } :=
  treeOf_bytesOf (Nat.lt_of_le_of_lt (Zstd.length_le_length_store _) fits)

/-- The snapshot of the data directory holds this tree and decodes to it, but for the
count of recomputations, which is not stored.  A file has less than 2 ^ 64 bytes. -/
structure Saved (directory : String) (tree : Tree) (store : FileStore) : Prop where
  written : store.readFile (fileIn directory) = .ok (bytesOf tree)
  decoded : (bytesOf tree).length < 2 ^ 64 →
    treeOf (bytesOf tree) = .ok { tree with recomputations := 0 }

theorem saved_of_readFile {tree : Tree}
    (written : store.readFile (fileIn directory) = .ok (bytesOf tree)) :
    Saved directory tree store :=
  ⟨written, treeOf_bytesOf_of_length⟩

end SnapshotFile

/-! ### One run -/

theorem Settings.value_choose (options : Options) (environment : Environment) :
    (choose options environment).value =
      (DataDirectory.choose options.dataDirectory environment).value.map fun directory =>
        { manifest := options.manifest
          dataDirectory := directory
          detached := options.detached } := by
  rw [choose, Logged.value_bind]
  cases (DataDirectory.choose options.dataDirectory environment).value <;> rfl

/-- A run over files, with all that it is told. -/
structure Invocation where
  options : Options
  environment : Environment
  clock : Clock

namespace Invocation

/-- The answer of the run when this is its work in memory, and the store afterwards. -/
def performWith (invocation : Invocation) (work : Work) (store : FileStore) :
    Except RunError Summary × FileStore :=
  LoggedT.exec (runWith work invocation.options invocation.environment) store

/-- The answer of the run, and the store afterwards. -/
def perform (invocation : Invocation) (store : FileStore) : Except RunError Summary × FileStore :=
  LoggedT.exec (run invocation.options invocation.environment invocation.clock) store

/-- The batch that the run is to apply. -/
def batch (invocation : Invocation) (store : FileStore) : Except ManifestError (List Mutation) :=
  (LoggedT.exec (readManifest invocation.options.manifest) store).1

def Uses (invocation : Invocation) (directory : String) : Prop :=
  ∃ settings, (Settings.choose invocation.options invocation.environment).value = .ok settings ∧
    settings.dataDirectory = directory

/-- Some mutation of the batch fails on the tree of the data directory. -/
def HasFailure (invocation : Invocation) (directory : String) (store : FileStore) : Prop :=
  ∃ mutations error, invocation.batch store = .ok mutations ∧
    .error error ∈ (Workspace.applyEach ⟨SnapshotFile.treeIn directory store, Tracker.empty⟩
      mutations).value.2

variable {invocation : Invocation} {directory : String}

theorem uses_iff {invocation : Invocation} {directory : String} :
    invocation.Uses directory ↔
      (DataDirectory.choose invocation.options.dataDirectory invocation.environment).value =
        .ok directory := by
  unfold Uses
  rw [Settings.value_choose]
  cases (DataDirectory.choose invocation.options.dataDirectory invocation.environment).value <;>
    simp [Except.map]

theorem exec_readManifest (invocation : Invocation) (store : FileStore) :
    LoggedT.exec (readManifest invocation.options.manifest) store =
      (invocation.batch store, store) := by
  refine Prod.ext rfl ?_
  unfold readManifest
  rw [LoggedT.exec_bind, LoggedT.exec_bind, LoggedT.exec_note, LoggedT.exec_readFile]
  cases store.readFile invocation.options.manifest <;> rfl

/-- What the run comes to, with its final tree, and the store afterwards. -/
def outcomeWith (invocation : Invocation) (work : Work) (store : FileStore) :
    Except RunError Processed × FileStore :=
  match (Settings.choose invocation.options invocation.environment).value with
  | .error cause => (.error (.dataDirectory cause), store)
  | .ok settings => LoggedT.exec (runSettings work settings) store

def outcome (invocation : Invocation) (store : FileStore) :
    Except RunError Processed × FileStore :=
  invocation.outcomeWith (process invocation.clock) store

section Work

variable {work : Work} {store : FileStore}

theorem performWith_eq (invocation : Invocation) (work : Work) (store : FileStore) :
    invocation.performWith work store =
      ((invocation.outcomeWith work store).1.map fun final =>
          Summary.ofTree final.tree final.applied,
        (invocation.outcomeWith work store).2) := by
  rw [performWith, runWith, LoggedT.exec_bind, LoggedT.exec_ofLogged, outcomeWith]
  cases (Settings.choose invocation.options invocation.environment).value with
  | error cause => rfl
  | ok settings =>
      dsimp only
      rw [LoggedT.exec_bind, LoggedT.exec_note, LoggedT.exec_bind, LoggedT.exec_pure]

theorem performWith_eq_ok_iff {summary : Summary} :
    (invocation.performWith work store).1 = .ok summary ↔
      ∃ final, (invocation.outcomeWith work store).1 = .ok final ∧
        Summary.ofTree final.tree final.applied = summary := by
  rw [performWith_eq]
  cases (invocation.outcomeWith work store).1 <;> simp [Except.map]

theorem performWith_eq_error_iff {error : RunError} :
    (invocation.performWith work store).1 = .error error ↔
      (invocation.outcomeWith work store).1 = .error error := by
  rw [performWith_eq]
  cases (invocation.outcomeWith work store).1 <;> simp [Except.map]

theorem perform_eq_ok_iff {summary : Summary} :
    (invocation.perform store).1 = .ok summary ↔
      ∃ final, (invocation.outcome store).1 = .ok final ∧
        Summary.ofTree final.tree final.applied = summary :=
  performWith_eq_ok_iff

theorem perform_eq_error_iff {error : RunError} :
    (invocation.perform store).1 = .error error ↔
      (invocation.outcome store).1 = .error error :=
  performWith_eq_error_iff

theorem outcomeWith_eq (invocation : Invocation) (work : Work) (store : FileStore) :
    invocation.outcomeWith work store =
      match (DataDirectory.choose invocation.options.dataDirectory
          invocation.environment).value with
      | .error cause => (.error (.dataDirectory cause), store)
      | .ok directory =>
          match invocation.batch store with
          | .error error => (.error (.manifest error), store)
          | .ok mutations =>
              match (work invocation.options.detached (SnapshotFile.treeIn directory store)
                  mutations).value with
              | .error error => (.error error, store)
              | .ok final =>
                  match LoggedT.exec (SnapshotFile.save directory final.tree) store with
                  | (.error error, after) => (.error (.snapshot error), after)
                  | (.ok (), after) => (.ok final, after) := by
  rw [outcomeWith, Settings.value_choose]
  cases (DataDirectory.choose invocation.options.dataDirectory invocation.environment).value with
  | error cause => rfl
  | ok directory =>
      simp only [Except.map]
      rw [runSettings, LoggedT.exec_bind, SnapshotFile.exec_load, LoggedT.exec_bind,
        invocation.exec_readManifest]
      cases invocation.batch store with
      | error error => rfl
      | ok mutations =>
          dsimp only
          rw [LoggedT.exec_bind, LoggedT.exec_ofLogged]
          cases (work invocation.options.detached (SnapshotFile.treeIn directory store)
              mutations).value with
          | error error => rfl
          | ok final =>
              dsimp only
              rw [LoggedT.exec_bind]
              cases LoggedT.exec (SnapshotFile.save directory final.tree) store with
              | mk saved after => cases saved <;> rfl

/-- The ways in which a run can end, with the store that each of them leaves. -/
inductive Ends (invocation : Invocation) (work : Work) (store : FileStore) :
    Except RunError Processed → FileStore → Prop
  | undetermined {cause : DataDirectoryError}
      (failed : (DataDirectory.choose invocation.options.dataDirectory
        invocation.environment).value = .error cause) :
      Ends invocation work store (.error (.dataDirectory cause)) store
  | unread {directory : String} {cause : ManifestError} (uses : invocation.Uses directory)
      (failed : invocation.batch store = .error cause) :
      Ends invocation work store (.error (.manifest cause)) store
  | unprocessed {directory : String} {mutations : List Mutation} {error : RunError}
      (uses : invocation.Uses directory) (batch : invocation.batch store = .ok mutations)
      (failed : (work invocation.options.detached (SnapshotFile.treeIn directory store)
        mutations).value = .error error) :
      Ends invocation work store (.error error) store
  | unsaved {directory : String} {mutations : List Mutation} {final : Processed}
      {cause : SnapshotError} {after : FileStore}
      (uses : invocation.Uses directory) (batch : invocation.batch store = .ok mutations)
      (processed : (work invocation.options.detached (SnapshotFile.treeIn directory store)
        mutations).value = .ok final)
      (failed : LoggedT.exec (SnapshotFile.save directory final.tree) store =
        (.error cause, after)) :
      Ends invocation work store (.error (.snapshot cause)) after
  | saved {directory : String} {mutations : List Mutation} {final : Processed}
      {after : FileStore}
      (uses : invocation.Uses directory) (batch : invocation.batch store = .ok mutations)
      (processed : (work invocation.options.detached (SnapshotFile.treeIn directory store)
        mutations).value = .ok final)
      (succeeded : LoggedT.exec (SnapshotFile.save directory final.tree) store =
        (.ok (), after)) :
      Ends invocation work store (.ok final) after

theorem ends (invocation : Invocation) (work : Work) (store : FileStore) :
    invocation.Ends work store (invocation.outcomeWith work store).1
      (invocation.outcomeWith work store).2 := by
  rw [outcomeWith_eq]
  cases chosen : (DataDirectory.choose invocation.options.dataDirectory
      invocation.environment).value with
  | error cause => exact .undetermined chosen
  | ok directory =>
      have uses := uses_iff.mpr chosen
      dsimp only
      cases batch : invocation.batch store with
      | error cause => exact .unread uses batch
      | ok mutations =>
          dsimp only
          cases processed : (work invocation.options.detached
              (SnapshotFile.treeIn directory store) mutations).value with
          | error error => exact .unprocessed uses batch processed
          | ok final =>
              dsimp only
              cases saving : LoggedT.exec (SnapshotFile.save directory final.tree) store with
              | mk saved after =>
                  cases saved with
                  | error cause => exact .unsaved uses batch processed saving
                  | ok done => exact .saved uses batch processed saving

end Work

theorem Uses.unique {other : String} (uses : invocation.Uses directory)
    (otherUses : invocation.Uses other) : other = directory := by
  have same := (uses_iff.mp otherUses).symm.trans (uses_iff.mp uses)
  cases same
  rfl

namespace Ends

variable {work : Work} {store after : FileStore}

/-- Whatever failed, the file of the snapshot is as it was. -/
theorem readFile_iff {error : RunError} (ends : invocation.Ends work store (.error error) after)
    (uses : invocation.Uses directory) (bytes : Bytes) :
    after.readFile (SnapshotFile.fileIn directory) = .ok bytes ↔
      store.readFile (SnapshotFile.fileIn directory) = .ok bytes := by
  cases ends with
  | undetermined _ => rfl
  | unread _ _ => rfl
  | unprocessed _ _ _ => rfl
  | @unsaved used _ final _ _ otherUses _ _ failed =>
      obtain rfl := uses.unique otherUses
      have cases := SnapshotFile.save_cases used final.tree store
      rw [failed] at cases
      rcases cases with ⟨impossible, _⟩ | ⟨_, kept⟩
      · cases impossible
      · exact kept bytes

theorem exists_saved {final : Processed} (ends : invocation.Ends work store (.ok final) after) :
    ∃ directory mutations, invocation.Uses directory ∧ invocation.batch store = .ok mutations ∧
      (work invocation.options.detached (SnapshotFile.treeIn directory store) mutations).value =
        .ok final ∧
      after.readFile (SnapshotFile.fileIn directory) = .ok (SnapshotFile.bytesOf final.tree) := by
  cases ends with
  | saved uses batch processed succeeded =>
      exact ⟨_, _, uses, batch, processed, SnapshotFile.readFile_of_save succeeded⟩

end Ends

theorem Uses.perform_cases (uses : invocation.Uses directory) (store : FileStore) :
    let outcome := invocation.perform store
    let file := SnapshotFile.fileIn directory
    (∃ error, outcome.1 = .error error) ∧
        (∀ bytes, outcome.2.readFile file = .ok bytes ↔ store.readFile file = .ok bytes) ∨
      (∃ summary, outcome.1 = .ok summary) ∧
        ∃ mutations processed, invocation.batch store = .ok mutations ∧
          (process invocation.clock invocation.options.detached
            (SnapshotFile.treeIn directory store) mutations).value = .ok processed ∧
          outcome.2.readFile file = .ok (SnapshotFile.bytesOf processed.tree) := by
  intro outcome file
  have value : outcome = _ := invocation.performWith_eq (process invocation.clock) store
  have ends := invocation.ends (process invocation.clock) store
  rw [value]
  cases result : (invocation.outcomeWith (process invocation.clock) store).1 with
  | error error =>
      rw [result] at ends
      exact Or.inl ⟨⟨error, rfl⟩, ends.readFile_iff uses⟩
  | ok final =>
      rw [result] at ends
      obtain ⟨used, mutations, otherUses, batch, processed, written⟩ := ends.exists_saved
      obtain rfl := uses.unique otherUses
      exact Or.inr ⟨⟨_, rfl⟩, mutations, final, batch, processed, written⟩

end Invocation

/-! ### Many runs -/

/-- What can happen to the files around a data directory that begins without a
snapshot, with the batches that count: those of the runs that succeed.  A run
that fails, or in which some mutation fails, adds none; other files may change in
any way in between.  A file has less than 2 ^ 64 bytes. -/
inductive History (directory : String) : FileStore → List (List Mutation) → Prop
  | start {store : FileStore}
      (missing : ∀ bytes, store.readFile (SnapshotFile.fileIn directory) ≠ .ok bytes) :
      History directory store []
  | edited {store other : FileStore} {batches : List (List Mutation)}
      (before : History directory store batches)
      (kept : other.readFile (SnapshotFile.fileIn directory) =
        store.readFile (SnapshotFile.fileIn directory)) :
      History directory other batches
  | failed {store : FileStore} {batches : List (List Mutation)} {invocation : Invocation}
      (before : History directory store batches) (uses : invocation.Uses directory)
      (fails : (∃ error, (invocation.perform store).1 = .error error) ∨
        invocation.HasFailure directory store) :
      History directory (invocation.perform store).2 batches
  | succeeded {store : FileStore} {batches : List (List Mutation)} {invocation : Invocation}
      {mutations : List Mutation} {summary : Summary}
      (before : History directory store batches) (uses : invocation.Uses directory)
      (succeeds : (invocation.perform store).1 = .ok summary)
      (batch : invocation.batch store = .ok mutations)
      (fits : ∀ bytes, (invocation.perform store).2.readFile (SnapshotFile.fileIn directory) =
        .ok bytes → bytes.length < 2 ^ 64) :
      History directory (invocation.perform store).2 (batches ++ [mutations])

/-- What is in the store after the runs whose batches count. -/
structure SnapshotFile.Holds (directory : String) (store : FileStore)
    (batches : List (List Mutation)) : Prop where
  keeps : (treeIn directory store).Keeps (Mutation.filesAfter batches.flatten)
  missing : batches = [] → ∀ bytes, store.readFile (fileIn directory) ≠ .ok bytes
  stored : batches ≠ [] → ∃ bytes, store.readFile (fileIn directory) = .ok bytes ∧
    treeOf bytes = .ok (treeIn directory store)

namespace SnapshotFile.Holds

variable {directory : String} {store other : FileStore} {batches : List (List Mutation)}

protected theorem start (missing : ∀ bytes, store.readFile (fileIn directory) ≠ .ok bytes) :
    Holds directory store [] where
  keeps := by
    rw [treeIn_of_missing missing]
    exact Tree.keeps_fresh
  missing := fun _ => missing
  stored := fun nonempty => absurd rfl nonempty

theorem of_kept (holds : Holds directory store batches)
    (kept : ∀ bytes, other.readFile (fileIn directory) = .ok bytes ↔
      store.readFile (fileIn directory) = .ok bytes) : Holds directory other batches := by
  have sameTree : treeIn directory other = treeIn directory store := by
    by_cases empty : batches = []
    · have missing := holds.missing empty
      rw [treeIn_of_missing missing,
        treeIn_of_missing fun bytes read => missing bytes ((kept bytes).mp read)]
    · obtain ⟨bytes, read, decoded⟩ := holds.stored empty
      exact treeIn_of_readFile ((kept bytes).mpr read) decoded
  constructor
  · rw [sameTree]
    exact holds.keeps
  · exact fun empty bytes read => holds.missing empty bytes ((kept bytes).mp read)
  · intro nonempty
    obtain ⟨bytes, read, decoded⟩ := holds.stored nonempty
    rw [sameTree]
    exact ⟨bytes, (kept bytes).mpr read, decoded⟩

theorem saved {mutations : List Mutation} {detached : Bool} {clock : Clock} {processed : Processed}
    (holds : Holds directory store batches)
    (result : (process clock detached (treeIn directory store) mutations).value = .ok processed)
    (written : other.readFile (fileIn directory) = .ok (bytesOf processed.tree))
    (fits : (bytesOf processed.tree).length < 2 ^ 64) :
    Holds directory other (batches ++ [mutations]) := by
  have decoded := treeOf_bytesOf_of_length fits
  have loaded := treeIn_of_readFile written decoded
  obtain ⟨described, exact⟩ := holds.keeps.process result
  constructor
  · rw [loaded, Mutation.filesAfter, List.flatten_append, List.flatten_singleton, List.foldl_append]
    exact ⟨described, exact⟩
  · intro empty
    cases List.append_ne_nil_of_right_ne_nil batches (List.cons_ne_nil _ _) empty
  · intro _
    rw [loaded]
    exact ⟨_, written, decoded⟩

end SnapshotFile.Holds

theorem History.holds {directory : String} {store : FileStore} {batches : List (List Mutation)}
    (history : History directory store batches) : SnapshotFile.Holds directory store batches := by
  induction history with
  | start missing => exact .start missing
  | edited _ kept inductionHypothesis =>
      refine inductionHypothesis.of_kept fun bytes => ?_
      rw [kept]
  | @failed store batches invocation _ uses fails inductionHypothesis =>
      rcases uses.perform_cases store with ⟨_, kept⟩ | ⟨⟨summary, succeeds⟩, mutations, processed,
        batch, result, _⟩
      · exact inductionHypothesis.of_kept kept
      · -- A run that succeeds has no failure in its batch, so it is not one of these.
        exfalso
        rcases fails with ⟨error, failed⟩ | ⟨others, error, otherBatch, fails⟩
        · rw [succeeds] at failed
          cases failed
        · rw [batch] at otherBatch
          cases otherBatch
          exact Workspace.failuresOf_eq_nil_iff.mp (process_of_ok result).1 error fails
  | @succeeded store batches invocation mutations summary _ uses succeeds batch fits
      inductionHypothesis =>
      rcases uses.perform_cases store with ⟨⟨error, failed⟩, _⟩ | ⟨_, others, processed, otherBatch,
        result, written⟩
      · rw [succeeds] at failed
        cases failed
      · rw [batch] at otherBatch
        cases otherBatch
        exact inductionHypothesis.saved result written (fits _ written)

/-- After any history of runs over a data directory, in either mode, there is a
snapshot as soon as one run has succeeded.  It decodes to a tree with exactly the
files that the mutations of the successful runs come to in their order, as set
and delete operations on files by their paths, and with exact totals in every
directory. -/
theorem History.snapshot_keeps_successful_batches {directory : String} {store : FileStore}
    {batches : List (List Mutation)} (history : History directory store batches) :
    (batches = [] → ∀ bytes, store.readFile (SnapshotFile.fileIn directory) ≠ .ok bytes) ∧
      (batches ≠ [] → ∃ bytes tree, store.readFile (SnapshotFile.fileIn directory) = .ok bytes ∧
        SnapshotFile.treeOf bytes = .ok tree ∧
        (∀ path node, tree.directories.get? path = some node → ∀ name record,
          node.files.get? name = some record ↔
            ∃ file, (Mutation.filesAfter batches.flatten).get? file = some record ∧
              file.parent = .ok path ∧ file.name? = some name) ∧
        (∀ file ∈ Mutation.filesAfter batches.flatten, file.Valid ∧
          ∃ above ∈ tree.directories, file.parent = .ok above) ∧
        tree.directories.AllExact) := by
  have holds := history.holds
  refine ⟨holds.missing, fun nonempty => ?_⟩
  obtain ⟨bytes, read, decoded⟩ := holds.stored nonempty
  obtain ⟨catalogue, sameFiles, describes⟩ := holds.keeps.described
  refine ⟨bytes, _, read, decoded, ?_, ?_, holds.keeps.exact⟩
  · intro path node found
    rw [← sameFiles]
    exact (describes.node found).1
  · intro file member
    rw [← sameFiles] at member
    obtain ⟨above, present, step⟩ := describes.parent_present member
    exact ⟨(describes.valid file member).1, above, (describes.present above).mpr present, step⟩

private theorem exists_of_isOk {ε α : Type} {result : Except ε α} (succeeded : result.isOk = true) :
    ∃ value, result = .ok value := by
  cases result with
  | error error => cases succeeded
  | ok value => exact ⟨value, rfl⟩

private theorem exists_of_not_isOk {ε α : Type} {result : Except ε α}
    (failed : result.isOk = false) : ∃ error, result = .error error := by
  cases result with
  | error error => exact ⟨error, rfl⟩
  | ok value => cases failed

private theorem length_lt_of_all {ε : Type} {result : Except ε Bytes}
    (small : ∀ bytes ∈ result.toOption, bytes.length < 2 ^ 64) :
    ∀ bytes, result = .ok bytes → bytes.length < 2 ^ 64 := by
  intro bytes read
  exact small bytes (by rw [read]; rfl)

/-- A run that stores two files, one that stores another but fails on a removal,
and a detached one that removes a file. -/
theorem History.snapshot_keeps_successful_batches_removal :
    let invocation (detached : Bool) : Invocation :=
      ⟨⟨"m", .silent, some "d", detached⟩, ⟨none, none, none, none⟩, .still 7⟩
    let write (store : FileStore) (manifest : String) :=
      store.put ⟨"m"⟩ (.file manifest.toUTF8.data.toList)
    let first := write FileStore.empty "files: {a/f: {size: 3}, b: {}}"
    let second := write ((invocation false).perform first).2 "files: {c: {}}\nremoved: [z]"
    let third := write ((invocation false).perform second).2 "removed: [/b/]"
    let final := ((invocation true).perform third).2
    let batches : List (List Mutation) :=
      [[.upsert "a/f" ⟨3, Binary64.zero, Binary64.one⟩, .upsert "b" ⟨0, Binary64.zero, Binary64.one⟩],
        [.remove "/b/"]]
    History "d" final batches ∧
      ∃ bytes tree, final.readFile (SnapshotFile.fileIn "d") = .ok bytes ∧
        SnapshotFile.treeOf bytes = .ok tree ∧
        (∀ path node, tree.directories.get? path = some node → ∀ name record,
          node.files.get? name = some record ↔
            ∃ file, (Mutation.filesAfter batches.flatten).get? file = some record ∧
              file.parent = .ok path ∧ file.name? = some name) ∧
        tree.directories.AllExact := by
  intro invocation write first second third final batches
  let file := SnapshotFile.fileIn "d"
  have uses (detached : Bool) : (invocation detached).Uses "d" := ⟨_, rfl, rfl⟩
  have missing : first.readFile file = .error .notFound := by decide +kernel
  have start : History "d" first [] := by
    refine .start fun bytes read => ?_
    rw [missing] at read
    cases read
  have firstRun : ((invocation false).perform first).1.isOk = true ∧
      (invocation false).batch first = .ok [.upsert "a/f" ⟨3, Binary64.zero, Binary64.one⟩,
        .upsert "b" ⟨0, Binary64.zero, Binary64.one⟩] ∧
      ∀ bytes ∈ (((invocation false).perform first).2.readFile file).toOption,
        bytes.length < 2 ^ 64 := by decide +kernel
  have secondRun : second.readFile file = ((invocation false).perform first).2.readFile file ∧
      ((invocation false).perform second).1.isOk = false := by decide +kernel
  have thirdRun : third.readFile file = ((invocation false).perform second).2.readFile file ∧
      ((invocation true).perform third).1.isOk = true ∧
      (invocation true).batch third = .ok [.remove "/b/"] ∧
      ∀ bytes ∈ (final.readFile file).toOption, bytes.length < 2 ^ 64 := by decide +kernel
  obtain ⟨_, firstSummary⟩ := exists_of_isOk firstRun.1
  have afterFirst := start.succeeded (uses false) firstSummary firstRun.2.1
    (length_lt_of_all firstRun.2.2)
  have afterSecond := (afterFirst.edited secondRun.1).failed (uses false)
    (Or.inl (exists_of_not_isOk secondRun.2))
  obtain ⟨_, thirdSummary⟩ := exists_of_isOk thirdRun.2.1
  have history : History "d" final batches :=
    (afterSecond.edited thirdRun.1).succeeded (uses true) thirdSummary thirdRun.2.2.1
      (length_lt_of_all thirdRun.2.2.2)
  obtain ⟨_, stored⟩ := history.snapshot_keeps_successful_batches
  obtain ⟨bytes, tree, read, decoded, files, _, exact⟩ := stored (List.cons_ne_nil _ _)
  exact ⟨history, bytes, tree, read, decoded, files, exact⟩

end Rollup

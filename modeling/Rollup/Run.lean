/-
A whole run: from the options to the saved tree.

The run loads the tree, reads the manifest, applies its mutations, refreshes
what they touched and saves the tree.  Whatever fails before the end leaves the
files as they were.
-/

import Rollup.CommandLine
import Rollup.DataDirectory
import Rollup.Manifest
import Rollup.SnapshotFile
import Rollup.Summary

namespace Rollup

/-- What a run works on. -/
structure Settings where
  manifest : String
  dataDirectory : String
  detached : Bool
  deriving DecidableEq

namespace Settings

def choose (options : Options) (environment : Environment) :
    Logged (Except DataDirectoryError Settings) := do
  let chosen ← DataDirectory.choose options.dataDirectory environment
  match chosen with
  | .error error => return .error error
  | .ok directory =>
      return .ok
        { manifest := options.manifest
          dataDirectory := directory
          detached := options.detached }

def describe (settings : Settings) : String :=
  "RuntimeConfig \x7b manifest: " ++ quotedName settings.manifest ++
    ", data_dir: " ++ quotedName settings.dataDirectory ++
    ", detached: " ++ toString settings.detached ++ " \x7d"

end Settings

/-! ### In memory -/

/-- What a batch leaves behind when it succeeds. -/
structure Processed where
  tree : Tree
  applied : Nat

/-- Refreshes what a tracker asks for without collecting failures, and waits
for all of it. -/
def refreshDetached (clock : Clock) (workspace : Workspace) : Logged Tree := do
  let (refreshed, finished) ←
    workspace.tracker.refreshDetached (Tree.bubbleDetached clock .listening) workspace.tree
  Logged.note (.detachedFinished finished.length)
  return refreshed

/-- Refreshes what a tracker asks for; any failure is reported. -/
def refreshBlocking (clock : Clock) (workspace : Workspace) :
    Logged (Except RefreshError Tree) := do
  let (refreshed, result) ←
    workspace.tracker.refreshBlocking (Tree.bubbleFrom clock) workspace.tree
  match result with
  | .ok () => return .ok refreshed
  | .error error => do
      Logged.note (.refreshesFailed error.failures.length error.attempted)
      Logged.noteAll (error.failures.map Notice.refreshFailed)
      return .error error

def refresh (detached : Bool) (clock : Clock) (workspace : Workspace) :
    Logged (Except RefreshError Tree) :=
  if detached then do
    let refreshed ← refreshDetached clock workspace
    return .ok refreshed
  else refreshBlocking clock workspace

/-- What a run does in memory, in one of the two ways to refresh: it makes of a tree
and a batch what is to be saved, or it fails. -/
abbrev Work := Bool → Tree → List Mutation → Logged (Except RunError Processed)

/-- Applies a batch to a tree and refreshes what it touched, in the order of the
batch. -/
def process (clock : Clock) : Work := fun detached tree mutations => do
  let (workspace, applied) ←
    Workspace.applyBatch { tree := tree, tracker := Tracker.empty } mutations
  match applied with
  | .error error => return .error (.ingest error)
  | .ok count => do
      let tracker := workspace.tracker
      Logged.note (.refreshPlanned tracker.childCount tracker.parentCount)
      Logged.note (.refreshPoints tracker.children.members)
      Logged.note (.coveredAncestors tracker.parents.members)
      let refreshed ← refresh detached clock workspace
      match refreshed with
      | .error error => return .error (.refresh error)
      | .ok final => do
          Logged.note (.recomputed final.recomputations)
          return .ok { tree := final, applied := count }

/-! ### On files -/

variable {m : Type → Type} [Monad m] [FileSystem m]

/-- Reads the mutations of a manifest file. -/
def readManifest (file : String) : LoggedT m (Except ManifestError (List Mutation)) := do
  LoggedT.note (.readingManifest file)
  let found ← LoggedT.lift (FileSystem.readFile file)
  match found with
  | .error fault => return .error (.unreadable file fault)
  | .ok bytes => do
      LoggedT.note (.manifestRead bytes.length)
      LoggedT.ofLogged (Manifest.ofBytes file bytes)

/-- Works on a manifest and saves what comes of it. -/
def runSettings (work : Work) (settings : Settings) :
    LoggedT m (Except RunError Processed) := do
  let tree ← SnapshotFile.load settings.dataDirectory
  let manifest ← readManifest settings.manifest
  match manifest with
  | .error error => return .error (.manifest error)
  | .ok mutations => do
      let processed ← LoggedT.ofLogged (work settings.detached tree mutations)
      match processed with
      | .error error => return .error error
      | .ok final => do
          let saved ← SnapshotFile.save settings.dataDirectory final.tree
          match saved with
          | .error error => return .error (.snapshot error)
          | .ok () => return .ok final

/-- Runs what the options ask for, and answers the summary to be printed. -/
def runWith (work : Work) (options : Options) (environment : Environment) :
    LoggedT m (Except RunError Summary) := do
  let chosen ← LoggedT.ofLogged (Settings.choose options environment)
  match chosen with
  | .error error => return .error (.dataDirectory error)
  | .ok settings => do
      LoggedT.note (.configured settings.describe)
      let result ← runSettings work settings
      return result.map fun final => Summary.ofTree final.tree final.applied

def run (options : Options) (environment : Environment) (clock : Clock) :
    LoggedT m (Except RunError Summary) :=
  runWith (process clock) options environment

end Rollup

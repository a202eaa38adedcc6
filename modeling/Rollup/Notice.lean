/-
Log notices.

Everything a run reports while it works is a `Notice`; its level, its topic
and its text are functions of the notice.  A step that reports returns its
value together with its notices, in the order in which they arose.
-/

import Rollup.Failure

namespace Rollup

/-- How important a notice is, from the least to the most. -/
inductive Level where
  | trace
  | debug
  | info
  | warn
  | error
  deriving DecidableEq

namespace Level

def name : Level → String
  | .trace => "TRACE"
  | .debug => "DEBUG"
  | .info => "INFO"
  | .warn => "WARN"
  | .error => "ERROR"

def severity : Level → Nat
  | .trace => 0
  | .debug => 1
  | .info => 2
  | .warn => 3
  | .error => 4

end Level

inductive Notice where
  | argumentsParsed (description : String)
  | configured (description : String)
  | dataDirectoryFromOption
  | dataDirectoryFromEnvironment
  | readingSnapshot (file : String)
  | snapshotLoaded (directories : Nat)
  | snapshotMissing
  | snapshotIgnored (error : SnapshotError)
  | snapshotWritten (file : String)
  | readingManifest (file : String)
  | manifestRead (bytes : Nat)
  | fileEntrySkipped (entry : String)
  | removedEntrySkipped (entry : String)
  | manifestParsed (mutations : Nat)
  | directoryCreated (directory : Path)
  | fileStored (file : String)
  | fileRemoved (file : String)
  | subdirectoryMissing (directory child : Path)
  | bubbled (directory : Path)
  | bubbleFailed (directory : Path) (error : BubbleError)
  | completionLost
  | tracking (directory : Path)
  | superseded (directory : Path)
  | dispatchingRefreshes (count : Nat)
  | refreshing (count : Nat)
  | dispatchingMutations (count : Nat)
  | mutationFailed (error : IngestError)
  | mutationsApplied (count : Nat)
  | refreshPlanned (children parents : Nat)
  | refreshPoints (directories : List Path)
  | coveredAncestors (directories : List Path)
  | refreshesFailed (failed attempted : Nat)
  | refreshFailed (failure : RefreshFailure)
  | detachedFinished (count : Nat)
  | recomputed (count : Nat)
  deriving DecidableEq

namespace Notice

def level : Notice → Level
  | .snapshotMissing | .mutationsApplied _ | .refreshPlanned _ _ | .recomputed _ => .info
  | .snapshotIgnored _ | .subdirectoryMissing _ _ | .bubbleFailed _ _ | .mutationFailed _
  | .refreshesFailed _ _ | .refreshFailed _ => .warn
  | _ => .debug

/-- The part of the program that speaks. -/
def topic : Notice → String
  | .argumentsParsed _ => "dirbubble"
  | .dataDirectoryFromOption | .dataDirectoryFromEnvironment =>
      "dirbubble::config::data_dir"
  | .readingSnapshot _ | .snapshotLoaded _ | .snapshotMissing | .snapshotIgnored _
  | .snapshotWritten _ => "dirbubble::metadata::snapshot"
  | .readingManifest _ | .manifestRead _ | .fileEntrySkipped _ | .removedEntrySkipped _
  | .manifestParsed _ => "dirbubble::config::manifest"
  | .directoryCreated _ | .fileStored _ | .fileRemoved _ | .subdirectoryMissing _ _
  | .bubbled _ | .bubbleFailed _ _ | .completionLost => "dirbubble::metadata::tree"
  | .tracking _ | .superseded _ | .dispatchingRefreshes _ | .refreshing _ =>
      "dirbubble::refresh::refresh_paths"
  | .dispatchingMutations _ | .mutationFailed _ | .mutationsApplied _ =>
      "dirbubble::executor::ingest_executor"
  | .configured _ | .refreshPlanned _ _ | .refreshPoints _ | .coveredAncestors _
  | .refreshesFailed _ _ | .refreshFailed _ | .detachedFinished _ | .recomputed _ =>
      "dirbubble::application::application"

/-- Directories as a list for the reader, sorted by their text. -/
def describe (directories : List Path) : String :=
  let sorted := directories.mergeSort fun left right => left.text ≤ right.text
  String.intercalate ", " (sorted.map Path.display)

def text : Notice → String
  | .argumentsParsed description => s!"Parsed CLI arguments: {description}"
  | .configured description => s!"Runtime config: {description}"
  | .dataDirectoryFromOption => "Using data directory from the command line"
  | .dataDirectoryFromEnvironment => "Using data directory from DIRBUBBLE_DATA_DIR"
  | .readingSnapshot file => s!"Reading metadata snapshot from {file}"
  | .snapshotLoaded directories =>
      s!"Loaded {directories} directories from metadata snapshot"
  | .snapshotMissing => "No existing metadata snapshot found, starting fresh"
  | .snapshotIgnored error =>
      s!"Ignoring unreadable metadata snapshot, starting fresh: {error.message}"
  | .snapshotWritten file => s!"Wrote metadata snapshot to {file}"
  | .readingManifest file => s!"Reading manifest file: {file}"
  | .manifestRead bytes => s!"Successfully read manifest file: {bytes} bytes"
  | .fileEntrySkipped entry => s!"Skipping invalid file entry: {entry}"
  | .removedEntrySkipped entry => s!"Skipping invalid removed entry: {entry}"
  | .manifestParsed mutations => s!"Parsed {mutations} mutations from manifest"
  | .directoryCreated directory => s!"Created directory '{directory.display}'"
  | .fileStored file => s!"Stored file '{file}'"
  | .fileRemoved file => s!"Removed file '{file}'"
  | .subdirectoryMissing directory child =>
      s!"Directory '{directory.display}' lists missing subdirectory '{child.display}'"
  | .bubbled directory => s!"Bubbled metadata from '{directory.display}'"
  | .bubbleFailed directory error =>
      s!"Failed to bubble metadata from '{directory.display}': {error.message}"
  | .completionLost =>
      "Failed to report bubble completion: send failed because receiver is gone"
  | .tracking directory => s!"Tracking '{directory.display}' for refresh"
  | .superseded directory => s!"'{directory.display}' superseded by a deeper directory"
  | .dispatchingRefreshes count => s!"Dispatching {count} detached refreshes"
  | .refreshing count => s!"Refreshing {count} directories"
  | .dispatchingMutations count => s!"Dispatching {count} mutations"
  | .mutationFailed error => error.message
  | .mutationsApplied count => s!"Applied {count} mutations"
  | .refreshPlanned children parents =>
      s!"Refreshing {children} directories, {parents} more covered as ancestors"
  | .refreshPoints directories => s!"Refresh points: {describe directories}"
  | .coveredAncestors directories => s!"Covered ancestors: {describe directories}"
  | .refreshesFailed failed attempted => s!"{failed} of {attempted} refreshes failed"
  | .refreshFailed failure =>
      s!"Refresh of '{failure.directory.display}' failed: {failure.cause.message}"
  | .detachedFinished count => s!"{count} detached refreshes finished"
  | .recomputed count => s!"Performed {count} directory recomputations"

end Notice

/-- A value with the notices that arose on the way to it. -/
structure Logged (α : Type) where
  value : α
  notices : List Notice

namespace Logged

def bind {α β : Type} (step : Logged α) (next : α → Logged β) : Logged β :=
  let following := next step.value
  { value := following.value
    notices := step.notices ++ following.notices }

instance : Monad Logged where
  pure := fun value => { value := value, notices := [] }
  bind := bind

/-- Reports one notice. -/
def note (notice : Notice) : Logged Unit :=
  { value := (), notices := [notice] }

def noteAll (notices : List Notice) : Logged Unit :=
  { value := (), notices := notices }

end Logged

/-- A step with effects of another kind, whose notices are collected too. -/
def LoggedT (m : Type → Type) (α : Type) : Type := m (Logged α)

namespace LoggedT

variable {m : Type → Type} [Monad m]

def bind {α β : Type} (step : LoggedT m α) (next : α → LoggedT m β) : LoggedT m β :=
  Bind.bind (m := m) step fun first =>
    Bind.bind (m := m) (next first.value) fun following =>
      Pure.pure (f := m)
        { value := following.value, notices := first.notices ++ following.notices }

instance : Monad (LoggedT m) where
  pure := fun value => Pure.pure (f := m) { value := value, notices := [] }
  bind := bind

/-- A step without effects of the other kind. -/
def ofLogged {α : Type} (step : Logged α) : LoggedT m α := Pure.pure (f := m) step

/-- An effect that reports nothing. -/
def lift {α : Type} (effect : m α) : LoggedT m α :=
  Bind.bind (m := m) effect fun value =>
    Pure.pure (f := m) { value := value, notices := [] }

def note (notice : Notice) : LoggedT m Unit := ofLogged (Logged.note notice)

/-- Runs the step and answers what it reported. -/
def run {α : Type} (step : LoggedT m α) : m (Logged α) := step

end LoggedT

end Rollup

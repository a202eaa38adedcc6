/-
The ways in which a step can fail, and their wording.

Each failure is a cause with the values it speaks of; `message` is the only
place where it becomes text.
-/

import Rollup.Path

namespace Rollup

/-- What the file store answers instead of doing what it was asked. -/
inductive StoreFault where
  | notFound
  | notADirectory
  | isADirectory
  | exists
  | other (description : String)
  deriving DecidableEq

def StoreFault.message : StoreFault → String
  | .notFound => "No such file or directory (os error 2)"
  | .notADirectory => "Not a directory (os error 20)"
  | .isADirectory => "Is a directory (os error 21)"
  | .exists => "File exists (os error 17)"
  | .other description => description

/-! ### The tree -/

inductive TreeError where
  | invalidPath (file : String) (cause : PathError)
  | unknownDirectory (directory : Path)
  | unknownFile (file : String)
  deriving DecidableEq

def TreeError.message : TreeError → String
  | .invalidPath file _ => s!"Invalid file path '{file}'"
  | .unknownDirectory directory => s!"Directory '{directory.display}' does not exist"
  | .unknownFile file => s!"File '{file}' does not exist"

inductive BubbleError where
  | unknownDirectory (directory : Path)
  | malformedPath (directory : Path) (cause : PathError)
  deriving DecidableEq

def BubbleError.message : BubbleError → String
  | .unknownDirectory directory =>
      s!"Directory '{directory.display}' is not part of the metadata tree"
  | .malformedPath directory _ =>
      s!"Failed to resolve a directory while bubbling from '{directory.display}'"

/-! ### Tracking and refreshing -/

inductive TrackError where
  | malformedPath (directory : Path) (cause : PathError)
  deriving DecidableEq

def TrackError.message : TrackError → String
  | .malformedPath directory _ =>
      s!"Unable to get parent directory of '{directory.display}'"

structure RefreshFailure where
  directory : Path
  cause : BubbleError
  deriving DecidableEq

def RefreshFailure.message (failure : RefreshFailure) : String :=
  s!"Failed to refresh '{failure.directory.display}'"

/-- The refreshes that failed among those attempted. -/
structure RefreshError where
  attempted : Nat
  failures : List RefreshFailure
  deriving DecidableEq

def RefreshError.message (error : RefreshError) : String :=
  let described := error.failures.map fun failure =>
    failure.directory.display ++ " (" ++ failure.cause.message ++ ")"
  s!"Failed to refresh {error.failures.length} of {error.attempted} directories: " ++
    String.intercalate "; " described

/-! ### Batches of mutations -/

inductive IngestError where
  | mutation (file : String) (cause : TreeError)
  | tracking (file : String) (cause : TrackError)
  deriving DecidableEq

def IngestError.message : IngestError → String
  | .mutation file _ => s!"Failed to apply mutation of '{file}'"
  | .tracking file _ => s!"Failed to track the directory of '{file}'"

inductive ManifestError where
  | unreadable (file : String) (fault : StoreFault)
  | notUtf8 (file : String)
  | invalidYaml
  | noDocument
  | topLevelNotMapping
  | filesNotMapping
  | removedNotSequence
  deriving DecidableEq

def ManifestError.message : ManifestError → String
  | .unreadable file _ => s!"Failed to read the manifest file: {file}"
  | .notUtf8 file => s!"Manifest file {file} is not valid UTF-8"
  | .invalidYaml => "Failed to parse the manifest file"
  | .noDocument => "Improperly formatted manifest file"
  | .topLevelNotMapping => "Top level of manifest should be a map"
  | .filesNotMapping => "Files section should be a map"
  | .removedNotSequence => "Removed section should be a list"

/-! ### Snapshots -/

inductive SnapshotError where
  | createDirectory (directory : String) (fault : StoreFault)
  | read (file : String) (fault : StoreFault)
  | write (file : String) (fault : StoreFault)
  | decompress
  | decode
  | version (found : UInt32)
  deriving DecidableEq

def SnapshotError.message : SnapshotError → String
  | .createDirectory directory _ => s!"Failed to create data directory {directory}"
  | .read file _ => s!"Failed to read metadata snapshot {file}"
  | .write file _ => s!"Failed to write metadata snapshot {file}"
  | .decompress => "Failed to decompress metadata snapshot"
  | .decode => "Failed to decode metadata snapshot"
  | .version found => s!"Unsupported metadata snapshot version {found} (expected 1)"

/-! ### Whole runs -/

inductive DataDirectoryError where
  | undetermined
  deriving DecidableEq

def DataDirectoryError.message : DataDirectoryError → String
  | .undetermined =>
      "Unable to determine a data directory, pass --data-dir or set DIRBUBBLE_DATA_DIR"

inductive RunError where
  | dataDirectory (cause : DataDirectoryError)
  | manifest (cause : ManifestError)
  | ingest (cause : IngestError)
  | refresh (cause : RefreshError)
  | snapshot (cause : SnapshotError)
  deriving DecidableEq

def RunError.message : RunError → String
  | .dataDirectory _ => "Critical failure encountered while resolving the data directory"
  | .manifest _ => "Critical failure encountered while reading the manifest"
  | .ingest _ => "Critical failure encountered while applying mutations"
  | .refresh _ => "Critical failure encountered while refreshing directories"
  | .snapshot _ => "Critical failure encountered while saving the metadata snapshot"

end Rollup

/-
Which data directory a run uses.

The command line wins over the environment, and that over a directory in the
home directory.  An empty variable for the data directory counts as missing.
-/

import Rollup.Notice
import Rollup.FileStore

namespace Rollup

/-- The environment variables that matter; a missing one is none. -/
structure Environment where
  dataDirectory : Option String
  home : Option String
  noColor : Option String
  forceColor : Option String
  deriving DecidableEq

namespace DataDirectory

def inHome (home : String) : String := joinPaths home ".dirbubble"

def choose (fromOption : Option String) (environment : Environment) :
    Logged (Except DataDirectoryError String) :=
  match fromOption with
  | some directory => do
      Logged.note .dataDirectoryFromOption
      pure (.ok directory)
  | none =>
      match environment.dataDirectory.filter (· ≠ "") with
      | some directory => do
          Logged.note .dataDirectoryFromEnvironment
          pure (.ok directory)
      | none =>
          match environment.home with
          | some home => pure (.ok (inHome home))
          | none => pure (.error .undetermined)

end DataDirectory

end Rollup

/-
The file that holds the snapshot of a data directory.

Loading never fails: without a usable snapshot it starts from an empty tree and
says why.  Saving creates the data directory when it is missing.
-/

import Rollup.FileStore
import Rollup.Snapshot
import Rollup.Zstd.Frame

namespace Rollup

namespace SnapshotFile

def fileIn (dataDirectory : String) : String := joinPaths dataDirectory "metadata.bin"

/-- The bytes of the file for a tree. -/
def bytesOf (tree : Tree) : Bytes := Zstd.store (Snapshot.payload tree)

/-- The tree in the bytes of the file. -/
def treeOf (bytes : Bytes) : Except SnapshotError Tree :=
  match Zstd.decompress bytes with
  | none => .error .decompress
  | some payload => Snapshot.decode payload

/-- The tree in what reading the file gave; no file is no tree. -/
def interpret (file : String) : Except StoreFault Bytes → Except SnapshotError (Option Tree)
  | .error .notFound => .ok none
  | .error fault => .error (.read file fault)
  | .ok bytes =>
      match treeOf bytes with
      | .error error => .error error
      | .ok tree => .ok (some tree)

/-- The tree to start from, with the notice that says where it comes from. -/
def startFrom : Except SnapshotError (Option Tree) → Logged Tree
  | .ok (some tree) => do
      Logged.note (.snapshotLoaded tree.directoryCount)
      pure tree
  | .ok none => do
      Logged.note .snapshotMissing
      pure Tree.fresh
  | .error error => do
      Logged.note (.snapshotIgnored error)
      pure Tree.fresh

variable {m : Type → Type} [Monad m] [FileSystem m]

/-- Reads the snapshot, if there is one. -/
def tryLoad (dataDirectory : String) : LoggedT m (Except SnapshotError (Option Tree)) := do
  let file := fileIn dataDirectory
  LoggedT.note (.readingSnapshot file)
  let bytes ← LoggedT.lift (FileSystem.readFile file)
  return interpret file bytes

def load (dataDirectory : String) : LoggedT m Tree := do
  let found ← tryLoad dataDirectory
  LoggedT.ofLogged (startFrom found)

def save (dataDirectory : String) (tree : Tree) : LoggedT m (Except SnapshotError Unit) := do
  let created ← LoggedT.lift (FileSystem.createFolders dataDirectory)
  match created with
  | .error fault => return .error (.createDirectory dataDirectory fault)
  | .ok () => do
      let file := fileIn dataDirectory
      let written ← LoggedT.lift (FileSystem.writeFile file (bytesOf tree))
      match written with
      | .error fault => return .error (.write file fault)
      | .ok () => do
          LoggedT.note (.snapshotWritten file)
          return .ok ()

end SnapshotFile

end Rollup

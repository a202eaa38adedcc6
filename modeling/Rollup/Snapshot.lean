/-
Snapshots: the stored form of a metadata tree.

A snapshot is a version and a list of directories.  Writing lists every
directory of a tree; reading keeps the last directory of a text that is listed
twice, adds the root when it is missing, and ignores what follows the snapshot.
-/

import Rollup.Wire
import Rollup.Tree

namespace Rollup

structure Snapshot where
  version : UInt32
  directories : List (Path × Directory)

namespace Snapshot

def currentVersion : UInt32 := 1

/-! ### Layout -/

def encodeFile (entry : String × FileRecord) : Bytes :=
  Wire.text entry.1 ++ Wire.word entry.2.size ++ Wire.binary64 entry.2.health ++
    Wire.binary64 entry.2.redundancy

def readFile : Wire.Reader (String × FileRecord) := do
  let name ← Wire.readText
  let size ← Wire.readWord
  let health ← Wire.readBinary64
  let redundancy ← Wire.readBinary64
  return (name, { size := size, health := health, redundancy := redundancy })

def encodeTotals (totals : Totals) : Bytes :=
  Wire.word totals.size ++ Wire.word totals.files ++ Wire.word totals.subdirs ++
    Wire.binary64 totals.health ++ Wire.optional Wire.binary64 totals.redundancy ++
    Wire.word totals.refreshed

def readTotals : Wire.Reader Totals := do
  let size ← Wire.readWord
  let files ← Wire.readWord
  let subdirs ← Wire.readWord
  let health ← Wire.readBinary64
  let redundancy ← Wire.readOptional Wire.readBinary64
  let refreshed ← Wire.readWord
  return {
    size := size
    files := files
    subdirs := subdirs
    health := health
    redundancy := redundancy
    refreshed := refreshed }

def encodeDirectory (directory : Directory) : Bytes :=
  Wire.list encodeFile directory.files.toList ++
    Wire.list Wire.text directory.subdirs.members ++ encodeTotals directory.totals

def readDirectory : Wire.Reader Directory := do
  let files ← Wire.readList readFile
  let subdirs ← Wire.readList Wire.readText
  let totals ← readTotals
  return {
    files := OrderedMap.ofList files
    subdirs := OrderedSet.ofMembers subdirs
    totals := totals }

def encodeEntry (entry : Path × Directory) : Bytes :=
  Wire.text entry.1.text ++ encodeDirectory entry.2

def readEntry : Wire.Reader (Path × Directory) := do
  let text ← Wire.readText
  let directory ← readDirectory
  return (⟨text⟩, directory)

def encode (snapshot : Snapshot) : Bytes :=
  Wire.halfWord snapshot.version ++ Wire.list encodeEntry snapshot.directories

def read : Wire.Reader Snapshot := do
  let version ← Wire.readHalfWord
  let directories ← Wire.readList readEntry
  return { version := version, directories := directories }

/-! ### Trees -/

def ofTree (tree : Tree) : Snapshot :=
  { version := currentVersion, directories := tree.directories.toList }

def toTree (snapshot : Snapshot) : Tree :=
  Tree.ofDirectories (OrderedMap.ofList snapshot.directories)

/-- The tree in a payload.  The version is looked at last. -/
def decode (payload : Bytes) : Except SnapshotError Tree :=
  match read payload with
  | none => .error .decode
  | some (snapshot, _) =>
      if snapshot.version = currentVersion then .ok snapshot.toTree
      else .error (.version snapshot.version)

/-- The payload of a tree. -/
def payload (tree : Tree) : Bytes := (ofTree tree).encode

end Snapshot

end Rollup

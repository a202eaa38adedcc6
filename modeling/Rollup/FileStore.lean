/-
Files and folders.

A file system reads and writes whole files.  The store in memory is one: it
knows which paths hold a file or a folder, and its root is always a folder.
Writing changes the entry of one path; creating a folder creates the missing
ones on the way.
-/

import Rollup.Failure
import Rollup.Wire

namespace Rollup

/-- The operations on files that a run needs, on texts that name paths. -/
class FileSystem (m : Type → Type) where
  readFile : String → m (Except StoreFault Bytes)
  createFolders : String → m (Except StoreFault Unit)
  writeFile : String → Bytes → m (Except StoreFault Unit)

/-- The text of a path below another one. -/
def joinPaths (base name : String) : String :=
  if base = "" then name
  else if base.endsWith "/" then base ++ name
  else base ++ "/" ++ name

inductive StoreEntry where
  | file (bytes : Bytes)
  | folder
  deriving DecidableEq

structure FileStore where
  entries : OrderedMap Path StoreEntry

namespace FileStore

def empty : FileStore := { entries := ∅ }

instance : Inhabited FileStore := ⟨empty⟩

def entry? (store : FileStore) (path : Path) : Option StoreEntry :=
  if path.isRoot then some .folder else store.entries.get? path

def put (store : FileStore) (path : Path) (entry : StoreEntry) : FileStore :=
  { entries := store.entries.insert path entry }

def drop (store : FileStore) (path : Path) : FileStore :=
  { entries := store.entries.erase path }

/-! ### Names -/

/-- The segments of a name; empty ones and single dots do not count. -/
def segmentsOf (name : String) : List String :=
  ((name.toList.splitOn Path.separator).map String.ofList).filter fun segment =>
    segment != "" && segment != "."

/-- One step down, or up for two dots. -/
def below (folder : Path) (segment : String) : Path :=
  if segment = ".." then folder.parentOfNonRoot
  else if folder.isRoot then ⟨segment⟩
  else ⟨folder.text ++ "/" ++ segment⟩

/-- Walks along segments; all but the last have to lead to folders. -/
def walk (store : FileStore) (current : Path) : List String → Except StoreFault Path
  | [] => .ok current
  | segment :: rest =>
      match store.entry? current with
      | none => .error .notFound
      | some (.file _) => .error .notADirectory
      | some .folder => walk store (below current segment) rest

def locate (store : FileStore) (name : String) : Except StoreFault Path :=
  store.walk Path.root (segmentsOf name)

/-! ### Operations -/

def readFile (store : FileStore) (name : String) : Except StoreFault Bytes :=
  match store.locate name with
  | .error fault => .error fault
  | .ok path =>
      match store.entry? path with
      | none => .error .notFound
      | some .folder => .error .isADirectory
      | some (.file bytes) => .ok bytes

/-- Writes a file; its folder has to be there. -/
def writeFile (store : FileStore) (name : String) (bytes : Bytes) :
    Except StoreFault FileStore :=
  match store.locate name with
  | .error fault => .error fault
  | .ok path =>
      match store.entry? path with
      | some .folder => .error .isADirectory
      | _ => .ok (store.put path (.file bytes))

/-- Walks along segments and creates the missing folders. -/
def createAlong (store : FileStore) (current : Path) :
    List String → Except StoreFault FileStore
  | [] =>
      match store.entry? current with
      | some .folder => .ok store
      | some (.file _) => .error .exists
      | none => .ok (store.put current .folder)
  | segment :: rest =>
      match store.entry? current with
      | some .folder => createAlong store (below current segment) rest
      | some (.file _) => .error .notADirectory
      | none => createAlong (store.put current .folder) (below current segment) rest

def createFolders (store : FileStore) (name : String) : Except StoreFault FileStore :=
  store.createAlong Path.root (segmentsOf name)

/-- Whether a path holds a file. -/
def isFile (store : FileStore) (name : String) : Bool :=
  match store.readFile name with
  | .ok _ => true
  | .error _ => false

/-- The paths of all files. -/
def files (store : FileStore) : List Path :=
  (store.entries.toList.filter fun entry => entry.2 != .folder).map Prod.fst

end FileStore

/-- Answers a change of the store, which stays as it is when it is refused. -/
def changeStore (change : FileStore → Except StoreFault FileStore) :
    StateM FileStore (Except StoreFault Unit) := fun store =>
  match change store with
  | .error fault => (.error fault, store)
  | .ok changed => (.ok (), changed)

instance : FileSystem (StateM FileStore) where
  readFile := fun name store => (store.readFile name, store)
  createFolders := fun name => changeStore fun store => store.createFolders name
  writeFile := fun name bytes => changeStore fun store => store.writeFile name bytes

end Rollup

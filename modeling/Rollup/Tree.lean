/-
The metadata tree: directories with their files, the names of their
subdirectories and their stored totals.

The root is always present.  Storing a file creates the missing directories on
its way and registers each of them with its parent; recomputing a directory
replaces its totals by what its files and its listed subdirectories give.
-/

import Rollup.Totals
import Rollup.Notice

namespace Rollup

/-- One directory as the tree stores it. -/
structure Directory where
  files : OrderedMap String FileRecord
  subdirs : OrderedSet String
  totals : Totals

namespace Directory

/-- A directory that holds nothing and was never computed. -/
def empty : Directory :=
  { files := ∅, subdirs := ∅, totals := Totals.initial }

instance : Inhabited Directory := ⟨empty⟩

def putFile (directory : Directory) (name : String) (file : FileRecord) : Directory :=
  { directory with files := directory.files.insert name file }

def dropFile (directory : Directory) (name : String) : Directory :=
  { directory with files := directory.files.erase name }

def listSubdirectory (directory : Directory) (name : String) : Directory :=
  { directory with subdirs := directory.subdirs.add name }

def setTotals (directory : Directory) (totals : Totals) : Directory :=
  { directory with totals := totals }

end Directory

abbrev Directories := OrderedMap Path Directory

namespace Directories

/-- The part of a chain, from its start, that the tree does not have yet. -/
def missing (directories : Directories) (chain : List Path) : List Path :=
  chain.takeWhile fun path => !directories.contains path

/-- Adds an empty directory and lists it with its parent. -/
def create (directories : Directories) (path : Path) : Directories :=
  let registered :=
    match path.name? with
    | none => directories
    | some name =>
        directories.modify path.parentOfNonRoot fun parent => parent.listSubdirectory name
  registered.insert path Directory.empty

/-- Creates what is missing on the way to a directory, the topmost first. -/
def ensure (directories : Directories) (path : Path) : Directories :=
  (directories.missing path.chain).reverse.foldl create directories

theorem contains_create (directories : Directories) (path other : Path) :
    (directories.create path).contains other =
      (decide (other = path) || directories.contains other) := by
  unfold create
  cases path.name? with
  | none => simp [OrderedMap.contains_insert]
  | some name => simp [OrderedMap.contains_insert, OrderedMap.contains_modify]

theorem contains_foldl_create (paths : List Path) (directories : Directories) (other : Path)
    (present : directories.contains other = true) :
    (paths.foldl create directories).contains other = true := by
  induction paths generalizing directories with
  | nil => exact present
  | cons path rest inductionHypothesis =>
      exact inductionHypothesis _ (by simp [contains_create, present])

theorem contains_ensure (directories : Directories) (path other : Path)
    (present : directories.contains other = true) :
    (directories.ensure path).contains other = true :=
  contains_foldl_create _ directories other present

end Directories

/-- What a clock shows.  It is read once for each recomputation; a reading is told by
the number of recomputations made before it. -/
structure Clock where
  reading : Nat → UInt64

namespace Clock

/-- A clock that stands still. -/
def still (now : UInt64) : Clock := { reading := fun _ => now }

instance : Coe UInt64 Clock := ⟨still⟩

end Clock

/-- The directories and the number of recomputations made so far. -/
structure Tree where
  directories : Directories
  recomputations : Nat
  hasRoot : directories.contains Path.root = true

namespace Tree

/-- A tree with these directories, and the root in any case. -/
def ofDirectories (directories : Directories) : Tree :=
  if present : directories.contains Path.root = true then
    { directories := directories, recomputations := 0, hasRoot := present }
  else
    { directories := directories.insert Path.root Directory.empty
      recomputations := 0
      hasRoot := by simp [OrderedMap.contains_insert] }

/-- The tree that holds only an empty root. -/
def fresh : Tree := ofDirectories OrderedMap.empty

instance : Inhabited Tree := ⟨fresh⟩

/-- Changes one directory; an absent one stays absent. -/
def modify (tree : Tree) (path : Path) (change : Directory → Directory) : Tree :=
  { tree with
    directories := tree.directories.modify path change
    hasRoot := by simp [OrderedMap.contains_modify, tree.hasRoot] }

def ensure (tree : Tree) (path : Path) : Tree :=
  { tree with
    directories := tree.directories.ensure path
    hasRoot := Directories.contains_ensure _ _ _ tree.hasRoot }

def totals? (tree : Tree) (path : Path) : Option Totals :=
  (tree.directories.get? path).map Directory.totals

def directoryCount (tree : Tree) : Nat := tree.directories.size

/-! ### Files -/

/-- Stores a file and answers the directory that holds it. -/
def upsertFile (tree : Tree) (file : String) (record : FileRecord) :
    Logged (Except TreeError (Path × Tree)) :=
  match Path.splitFile file with
  | .error cause => pure (.error (.invalidPath file cause))
  | .ok (directory, name) =>
      let created := (tree.directories.missing directory.chain).reverse
      { value :=
          .ok (directory,
            (tree.ensure directory).modify directory fun node => node.putFile name record)
        notices := created.map Notice.directoryCreated ++ [.fileStored file] }

/-- Removes a file and answers the directory that held it. -/
def removeFile (tree : Tree) (file : String) : Logged (Except TreeError (Path × Tree)) :=
  match Path.splitFile file with
  | .error cause => pure (.error (.invalidPath file cause))
  | .ok (directory, name) =>
      match tree.directories.get? directory with
      | none => pure (.error (.unknownDirectory directory))
      | some node =>
          if node.files.contains name then
            { value := .ok (directory, tree.modify directory fun node => node.dropFile name)
              notices := [.fileRemoved file] }
          else pure (.error (.unknownFile file))

/-! ### Totals -/

/-- The stored totals of the listed subdirectories that exist.  A listed name
that is no segment stops the collection. -/
def childTotals (directories : Directories) (parent : Path) :
    List String → Logged (Except PathError (List Totals))
  | [] => pure (.ok [])
  | name :: rest =>
      match parent.join name with
      | .error error => pure (.error error)
      | .ok child =>
          match directories.get? child with
          | none => do
              Logged.note (.subdirectoryMissing parent child)
              childTotals directories parent rest
          | some node => do
              let others ← childTotals directories parent rest
              pure (others.map (node.totals :: ·))

/-- Recomputes the totals of a single directory. -/
def recompute (now : UInt64) (tree : Tree) (path : Path) :
    Logged (Except BubbleError Tree) :=
  match tree.directories.get? path with
  | none => pure (.error (.unknownDirectory path))
  | some node => do
      let collected ← childTotals tree.directories path node.subdirs.members
      match collected with
      | .error cause => pure (.error (.malformedPath path cause))
      | .ok below =>
          let totals := Totals.compute node.files.values below now
          let updated := tree.modify path fun node => node.setTotals totals
          pure (.ok { updated with recomputations := tree.recomputations + 1 })

/-- Recomputes directories in the given order up to the first that fails; what
was recomputed before it stays. -/
def recomputeAll (clock : Clock) :
    List Path → Tree → Logged (Tree × Except BubbleError Unit)
  | [], tree => pure (tree, .ok ())
  | path :: rest, tree => do
      let step ← tree.recompute (clock.reading tree.recomputations) path
      match step with
      | .error error => pure (tree, .error error)
      | .ok updated => recomputeAll clock rest updated

/-- Recomputes a directory and then its ancestors, nearest first. -/
def bubbleFrom (clock : Clock) (tree : Tree) (path : Path) :
    Logged (Tree × Except BubbleError Unit) :=
  recomputeAll clock path.chain tree

end Tree

/-- Whether anybody waits to hear of finished detached bubbles. -/
inductive Listener where
  | absent
  | listening
  | gone
  deriving DecidableEq

namespace Tree

/-- Reports the end of a detached bubble; the answer lists what was heard. -/
def reportCompletion (listener : Listener) (path : Path) : Logged (List Path) :=
  match listener with
  | .absent => pure []
  | .listening => pure [path]
  | .gone => do
      Logged.note .completionLost
      pure []

/-- A bubble whose failure is only logged, with the completions heard of. -/
def bubbleDetached (clock : Clock) (listener : Listener) (tree : Tree) (path : Path) :
    Logged (Tree × List Path) := do
  let (updated, result) ← tree.bubbleFrom clock path
  match result with
  | .ok () => Logged.note (.bubbled path)
  | .error error => Logged.note (.bubbleFailed path error)
  let heard ← reportCompletion listener path
  pure (updated, heard)

end Tree

end Rollup

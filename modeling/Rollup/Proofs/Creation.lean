/-
Storing a file in any tree.

The directories that a file lacks are found by asking for one parent after the
other, and are then created from the topmost downwards, each listed with its
parent.  Whatever else the tree holds, the walk ends at a directory that is there,
since the root is; every directory it passed has a name and a parent to be listed
with; and the directory of the file is there in the end.  The walk sees nothing
above the directory where it ended, and nothing changes there.
-/

import Rollup.Proofs.Placement

namespace Rollup

/-- In a chain every directory is followed by its parent. -/
theorem Path.parent_eq_ok_iff_head? {directory child above : Path} {lower rest : List Path}
    (split : directory.chain = lower ++ child :: rest) :
    child.parent = .ok above ↔ rest.head? = some above := by
  have ownChain := Path.chain_of_append split.symm
  by_cases atRoot : child = Path.root
  · rw [atRoot, Path.chain_root, List.cons.injEq] at ownChain
    rw [← ownChain.2, atRoot]
    constructor <;> intro impossible <;> cases impossible
  · rw [Path.chain_of_ne_root atRoot, List.cons.injEq] at ownChain
    rw [← ownChain.2, Path.parent_eq_ok_iff, and_iff_right atRoot, Path.chain, List.head?_cons,
      Option.some.injEq]

namespace Directories

variable {directories : Directories} {path : Path}

/-! ### Step by step -/

/-- Walks up to the nearest directory that is there and answers what it passed, the
topmost first.  It fails where it finds no parent. -/
def walkUp (directories : Directories) (passed : List Path) (current : Path) :
    Except PathError (List Path) :=
  if current ∈ directories then .ok passed
  else
    match _found : current.parent with
    | .error cause => .error cause
    | .ok above => directories.walkUp (current :: passed) above
termination_by current.chars.length
decreasing_by
  obtain ⟨notRoot, same⟩ := Path.parent_eq_ok_iff.mp _found
  rw [← same]
  exact Path.parentOfNonRoot_length_lt notRoot

/-- Creates a directory.  It fails without a name, without a parent, and where the
parent is not there to list the name. -/
def create? (directories : Directories) (path : Path) : Option Directories :=
  match path.parent, path.name? with
  | .ok above, some name =>
      if above ∈ directories then
        let listed := directories.modify above fun node => node.listSubdirectory name
        some (listed.insert path Directory.empty)
      else none
  | _, _ => none

/-- Stores a file.  It fails where one of its steps would have nothing to act on. -/
def store? (directories : Directories) (directory : Path) (name : String) (record : FileRecord) :
    Option Directories := do
  let passed ← (directories.walkUp [] directory).toOption
  let created ← passed.foldlM create? directories
  if directory ∈ created then
    some (created.modify directory fun node => node.putFile name record)
  else none

theorem walkUp_eq_missing (rootPresent : Path.root ∈ directories) (passed : List Path)
    (path : Path) :
    directories.walkUp passed path = .ok ((directories.missing path.chain).reverse ++ passed) := by
  induction path using Path.parentInduction generalizing passed with
  | atRoot =>
      rw [walkUp, if_pos rootPresent, missing_of_mem rootPresent]
      rfl
  | below path notRoot inductionHypothesis =>
      rw [walkUp]
      by_cases present : path ∈ directories
      · rw [if_pos present, missing_of_mem present]
        rfl
      · have step : path.parent = .ok path.parentOfNonRoot :=
          Path.parent_eq_ok_iff.mpr ⟨notRoot, rfl⟩
        rw [if_neg present, missing_of_not_mem present notRoot, List.reverse_cons,
          List.append_assoc]
        split
        · rename_i failed
          rw [step] at failed
          cases failed
        · rename_i found
          rw [step] at found
          cases found
          exact inductionHypothesis (path :: passed)

theorem create?_eq_create (notRoot : path ≠ Path.root)
    (parentPresent : path.parentOfNonRoot ∈ directories) :
    directories.create? path = some (directories.create path) := by
  obtain ⟨name, named⟩ := Path.exists_name? notRoot
  have step : path.parent = .ok path.parentOfNonRoot := Path.parent_eq_ok_iff.mpr ⟨notRoot, rfl⟩
  rw [create?, step, named]
  dsimp only
  rw [if_pos parentPresent, create, named]

/-- Created from the topmost downwards, every directory finds its parent. -/
theorem foldlM_create?_eq_ensure (rootPresent : Path.root ∈ directories) (path : Path) :
    (directories.missing path.chain).reverse.foldlM create? directories =
      some (directories.ensure path) := by
  induction path using Path.parentInduction with
  | atRoot =>
      rw [missing_of_mem rootPresent, ensure_of_mem rootPresent]
      rfl
  | below path notRoot inductionHypothesis =>
      by_cases present : path ∈ directories
      · rw [missing_of_mem present, ensure_of_mem present]
        rfl
      · rw [missing_of_not_mem present notRoot, ensure_of_not_mem present notRoot,
          List.reverse_cons, List.foldlM_append, inductionHypothesis]
        show (create? _ path >>= pure) = _
        rw [bind_pure]
        exact create?_eq_create notRoot (mem_ensure_self rootPresent)

theorem store?_eq (rootPresent : Path.root ∈ directories) (path : Path) (name : String)
    (record : FileRecord) :
    directories.store? path name record =
      some ((directories.ensure path).modify path fun node => node.putFile name record) := by
  rw [store?, walkUp_eq_missing rootPresent, List.append_nil]
  show ((directories.missing path.chain).reverse.foldlM create? directories >>= _) = _
  rw [foldlM_create?_eq_ensure rootPresent]
  exact if_pos (mem_ensure_self rootPresent)

/-! ### What is created, and what is not -/

/-- The way to the root leaves what is missing at a directory that is there. -/
theorem exists_nearest (rootPresent : Path.root ∈ directories) (path : Path) :
    ∃ nearest above, path.chain = directories.missing path.chain ++ nearest :: above ∧
      nearest ∈ directories := by
  induction path using Path.parentInduction with
  | atRoot =>
      rw [missing_of_mem rootPresent]
      exact ⟨Path.root, [], rfl, rootPresent⟩
  | below path notRoot inductionHypothesis =>
      by_cases present : path ∈ directories
      · rw [missing_of_mem present]
        exact ⟨path, path.ancestors, rfl, present⟩
      · obtain ⟨nearest, above, split, member⟩ := inductionHypothesis
        refine ⟨nearest, above, ?_, member⟩
        rw [missing_of_not_mem present notRoot, Path.chain_of_ne_root notRoot, List.cons_append,
          ← split]

/-- A file was stored.  From its directory upwards these directories were created,
up to the nearest one that was there. -/
structure Stored (before : Directories) (directory : Path) (name : String) (record : FileRecord)
    (created : List Path) (nearest : Path) (after : Directories) : Prop where
  way : ∃ above, directory.chain = created ++ nearest :: above
  absent : ∀ path ∈ created, path ∉ before
  present : nearest ∈ before
  /-- A created directory holds at most the file and lists the next one below it. -/
  fresh : ∀ path ∈ created, ∃ node, after.get? path = some node ∧
    node.totals = Totals.initial ∧
    node.files = (if path = directory then OrderedMap.insert ∅ name record else ∅) ∧
    ∀ segment, segment ∈ node.subdirs ↔
      ∃ lower child upper, created = lower ++ child :: path :: upper ∧ child.name? = some segment
  /-- The nearest directory lists the topmost created one besides. -/
  extended : ∃ old node, before.get? nearest = some old ∧ after.get? nearest = some node ∧
    node.totals = old.totals ∧
    node.files = (if nearest = directory then old.files.insert name record else old.files) ∧
    ∀ segment, segment ∈ node.subdirs ↔ segment ∈ old.subdirs ∨
      ∃ lower topmost, created = lower ++ [topmost] ∧ topmost.name? = some segment
  elsewhere : ∀ path, path ∉ created → path ≠ nearest → after.get? path = before.get? path

theorem not_mem_of_mem_missing {other : Path} (member : other ∈ directories.missing path.chain) :
    other ∉ directories := by
  obtain ⟨inChain, absent⟩ := mem_missing_iff.mp member
  exact absent other inChain other.self_mem_chain

section Way

variable {directory nearest child : Path} {created above : List Path}
variable (split : directory.chain = created ++ nearest :: above)

include split

theorem mem_created_or_eq_nearest : directory ∈ created ∨ directory = nearest := by
  rw [Path.chain] at split
  cases created with
  | nil =>
      rw [List.nil_append, List.cons.injEq] at split
      exact Or.inr split.1
  | cons first rest =>
      rw [List.cons_append, List.cons.injEq] at split
      rw [split.1]
      exact Or.inl List.mem_cons_self

theorem parent_of_next {lower upper : List Path}
    (next : created = lower ++ child :: path :: upper) : child.parent = .ok path := by
  rw [next, List.append_assoc, List.cons_append] at split
  exact (Path.parent_eq_ok_iff_head? split).mpr rfl

theorem parent_of_topmost {lower : List Path} (topmost : created = lower ++ [child]) :
    child.parent = .ok nearest := by
  rw [topmost, List.append_assoc] at split
  exact (Path.parent_eq_ok_iff_head? split).mpr rfl

/-- The parent of a created directory is the next one, or the nearest of those that
were there. -/
theorem next_of_parent (member : child ∈ created) (step : child.parent = .ok path) :
    (∃ lower upper, created = lower ++ child :: path :: upper) ∨
      path = nearest ∧ ∃ lower, created = lower ++ [child] := by
  obtain ⟨lower, rest, here⟩ := List.append_of_mem member
  rw [here, List.append_assoc, List.cons_append] at split
  have head := (Path.parent_eq_ok_iff_head? split).mp step
  cases rest with
  | nil =>
      cases head
      exact Or.inr ⟨rfl, lower, here⟩
  | cons next upper =>
      cases head
      exact Or.inl ⟨lower, upper, here⟩

end Way

section Upsert

variable {before after : Directories} {file name : String} {record : FileRecord}
variable {directory nearest : Path} {above : List Path}
variable (placed : Path.splitFile file = .ok (directory, name))

include placed

private theorem lacking_upsert (record : FileRecord) :
    Mutation.lacking before (.upsert file record) = before.missing directory.chain := by
  rw [Mutation.lacking, placed]

variable (mutated : before.Mutated (.upsert file record) after)

include mutated

private theorem present_of_upsert (path : Path) :
    path ∈ after ↔ path ∈ before ∨ path ∈ before.missing directory.chain := by
  rw [mutated.present, lacking_upsert placed]

private theorem files_of_upsert (path : Path) :
    (after.nodeAt path).files =
      if path = directory then (before.nodeAt path).files.insert name record
      else (before.nodeAt path).files := by
  refine OrderedMap.ext_get? fun segment => ?_
  rw [mutated.files]
  simp only [Mutation.file, Path.splitFile_eq_ok_iff_of_placed placed]
  by_cases here : path = directory
  · rw [if_pos here, OrderedMap.get?_insert]
    simp only [here, true_and]
    rfl
  · rw [if_neg here, if_neg fun same => here same.1]

private theorem listed_of_upsert (path : Path) (segment : String) :
    segment ∈ (after.nodeAt path).subdirs ↔ segment ∈ (before.nodeAt path).subdirs ∨
      ∃ child ∈ before.missing directory.chain,
        child.parent = .ok path ∧ child.name? = some segment := by
  rw [mutated.listed, lacking_upsert placed]

variable (split : directory.chain = before.missing directory.chain ++ nearest :: above)
variable (nearestPresent : nearest ∈ before)

include split nearestPresent

private theorem fresh_of_upsert {path : Path} (member : path ∈ before.missing directory.chain) :
    ∃ node, after.get? path = some node ∧ node.totals = Totals.initial ∧
      node.files = (if path = directory then OrderedMap.insert ∅ name record else ∅) ∧
      ∀ segment, segment ∈ node.subdirs ↔ ∃ lower child upper,
        before.missing directory.chain = lower ++ child :: path :: upper ∧
          child.name? = some segment := by
  have empty := nodeAt_of_not_mem (not_mem_of_mem_missing member)
  have present := (present_of_upsert placed mutated path).mpr (Or.inr member)
  refine ⟨after.nodeAt path, get?_of_mem present, ?_, ?_, fun segment => ?_⟩
  · rw [mutated.totals, empty]
    rfl
  · rw [files_of_upsert placed mutated, empty]
    rfl
  · rw [listed_of_upsert placed mutated, empty]
    constructor
    · intro origin
      rcases origin with impossible | ⟨child, isCreated, step, named⟩
      · exact absurd impossible (OrderedMap.not_mem_empty segment)
      · rcases next_of_parent split isCreated step with ⟨lower, upper, next⟩ | ⟨same, _⟩
        · exact ⟨lower, child, upper, next, named⟩
        · rw [same] at member
          exact absurd nearestPresent (not_mem_of_mem_missing member)
    · intro ⟨lower, child, upper, next, named⟩
      refine Or.inr ⟨child, ?_, parent_of_next split next, named⟩
      rw [next]
      exact List.mem_append_right lower List.mem_cons_self

private theorem extended_of_upsert :
    ∃ old node, before.get? nearest = some old ∧ after.get? nearest = some node ∧
      node.totals = old.totals ∧
      node.files = (if nearest = directory then old.files.insert name record else old.files) ∧
      ∀ segment, segment ∈ node.subdirs ↔ segment ∈ old.subdirs ∨ ∃ lower topmost,
        before.missing directory.chain = lower ++ [topmost] ∧ topmost.name? = some segment := by
  have present := (present_of_upsert placed mutated nearest).mpr (Or.inl nearestPresent)
  refine ⟨before.nodeAt nearest, after.nodeAt nearest, get?_of_mem nearestPresent,
    get?_of_mem present, mutated.totals nearest, files_of_upsert placed mutated nearest,
    fun segment => ?_⟩
  rw [listed_of_upsert placed mutated]
  apply or_congr_right
  constructor
  · intro ⟨child, isCreated, step, named⟩
    rcases next_of_parent split isCreated step with ⟨lower, upper, next⟩ | ⟨_, lower, topmost⟩
    · have member : nearest ∈ before.missing directory.chain := by
        rw [next]
        exact List.mem_append_right lower (List.mem_cons_of_mem child List.mem_cons_self)
      exact absurd nearestPresent (not_mem_of_mem_missing member)
    · exact ⟨lower, child, topmost, named⟩
  · intro ⟨lower, topmost, last, named⟩
    refine ⟨topmost, ?_, parent_of_topmost split last, named⟩
    rw [last]
    exact List.mem_append_right lower List.mem_cons_self

omit nearestPresent

private theorem elsewhere_of_upsert {path : Path}
    (notCreated : path ∉ before.missing directory.chain) (notNearest : path ≠ nearest) :
    after.get? path = before.get? path := by
  have notHolder : path ≠ directory := by
    intro same
    rw [same] at notCreated notNearest
    rcases mem_created_or_eq_nearest split with isCreated | isNearest
    · exact notCreated isCreated
    · exact notNearest isNearest
  have listsNone : ¬∃ child ∈ before.missing directory.chain, child.parent = .ok path := by
    intro ⟨child, isCreated, step⟩
    rcases next_of_parent split isCreated step with ⟨lower, upper, next⟩ | ⟨same, _⟩
    · rw [next] at notCreated
      exact notCreated (List.mem_append_right lower (List.mem_cons_of_mem child List.mem_cons_self))
    · exact notNearest same
  have content : after.nodeAt path = before.nodeAt path := by
    apply Directory.ext
    · rw [files_of_upsert placed mutated, if_neg notHolder]
    · refine OrderedSet.ext_mem fun segment => ?_
      rw [listed_of_upsert placed mutated]
      constructor
      · intro origin
        exact origin.resolve_right fun ⟨child, member, step, _⟩ => listsNone ⟨child, member, step⟩
      · exact Or.inl
    · exact mutated.totals path
  have present : path ∈ after ↔ path ∈ before := by
    rw [present_of_upsert placed mutated, or_iff_left notCreated]
  exact get?_eq_of_nodeAt present content

end Upsert

theorem exists_stored {before after : Directories} {file name : String} {record : FileRecord}
    {directory : Path} (rootPresent : Path.root ∈ before)
    (placed : Path.splitFile file = .ok (directory, name))
    (mutated : before.Mutated (.upsert file record) after) :
    ∃ nearest, before.Stored directory name record (before.missing directory.chain) nearest after := by
  obtain ⟨nearest, above, split, present⟩ := exists_nearest rootPresent directory
  refine ⟨nearest, ⟨above, split⟩, fun _ => not_mem_of_mem_missing, present, ?_, ?_, ?_⟩
  · exact fun path => fresh_of_upsert placed mutated split present
  · exact extended_of_upsert placed mutated split present
  · exact fun path => elsewhere_of_upsert placed mutated split

end Directories

namespace Tree

open Directories

/-- Storing a file is refused exactly when its text does not lead to a directory and
a name, and then nothing changes.  In any other case the answer is the directory; in
it the file is stored, the directories missing up to the nearest one that is there
are created, and nothing else changes.  Step by step, the walk up arrives at that
nearest directory and no step of the way back has nothing to act on. -/
theorem upsertFile_creates_below_nearest (tree : Tree) (file : String) (record : FileRecord) :
    (∀ error, (tree.upsertFile file record).value = .error error ↔
      ∃ cause, Path.splitFile file = .error cause ∧ error = .invalidPath file cause) ∧
    (∀ tracker cause, Path.splitFile file = .error cause →
      (Workspace.applyOne ⟨tree, tracker⟩ (.upsert file record)).value =
        (⟨tree, tracker⟩, .error (.mutation file (.invalidPath file cause)))) ∧
    ∀ directory name, Path.splitFile file = .ok (directory, name) →
      ∃ updated created nearest,
        (tree.upsertFile file record).value = .ok (directory, updated) ∧
        tree.directories.Stored directory name record created nearest updated.directories ∧
        updated.recomputations = tree.recomputations ∧
        tree.directories.walkUp [] directory = .ok created.reverse ∧
        tree.directories.store? directory name record = some updated.directories := by
  refine ⟨?_, ?_, ?_⟩
  · intro error
    rw [upsertFile]
    cases placed : Path.splitFile file with
    | error cause =>
        constructor
        · intro same
          cases same
          exact ⟨cause, rfl, rfl⟩
        · rintro ⟨_, same, refused⟩
          cases same
          rw [refused]
          rfl
    | ok place =>
        constructor
        · intro impossible
          cases impossible
        · rintro ⟨_, impossible, _⟩
          cases impossible
  · intro tracker cause placed
    have refused : Workspace.Refused tree (.upsert file record) (.invalidPath file cause) :=
      Workspace.refused_of_no_place placed
    rw [Workspace.applyOne, Logged.value_bind, refused.value]
    rfl
  · intro directory name placed
    have performed : Workspace.Performed tree (.upsert file record) directory _ :=
      Workspace.performed_upsert placed record
    obtain ⟨nearest, stored⟩ := exists_stored tree.root_mem placed performed.mutated
    refine ⟨_, _, nearest, performed.value, stored, performed.recomputations, ?_, ?_⟩
    · rw [walkUp_eq_missing tree.root_mem, List.append_nil]
    · exact store?_eq tree.root_mem directory name record

end Tree
end Rollup

/-
What a stored or a removed file does to the tree.

A mutation that succeeds answers the directory of its file.  Only that
directory and its ancestors may change, all directories stay, and a well-formed
tree stays well formed.
-/

import Rollup.Ingest
import Rollup.Proofs.RefreshPoints
import Rollup.Proofs.WellFormed

namespace Rollup

namespace Directories

theorem agreeOn_modify {β : Type} {view : Directory → β} {change : Directory → Directory}
    (directories : Directories) (path : Path) (same : ∀ node, view (change node) = view node) :
    directories.AgreeOn view (directories.modify path change) := by
  intro other
  rw [OrderedMap.get?_modify]
  split
  · rw [Option.map_map]
    exact congrArg (fun look => (directories.get? other).map look) (funext fun node => (same node).symm)
  · rfl

theorem get?_modify_of_ne {directories : Directories} {path other : Path}
    {change : Directory → Directory} (different : other ≠ path) :
    (directories.modify path change).get? other = directories.get? other :=
  (OrderedMap.get?_modify _ _ _ _).trans (if_neg different)

end Directories

namespace Tree

theorem root_mem (tree : Tree) : Path.root ∈ tree.directories := tree.hasRoot

theorem get?_fresh (path : Path) :
    fresh.directories.get? path = if path = Path.root then some Directory.empty else none :=
  OrderedMap.get?_insert _ _ _ _

theorem eq_root_of_mem_fresh {path : Path} (member : path ∈ fresh.directories) :
    path = Path.root := by
  obtain ⟨node, found⟩ := OrderedMap.mem_iff_get?.mp member
  rw [get?_fresh] at found
  split at found
  · assumption
  · cases found

theorem wellFormed_fresh : fresh.directories.WellFormed := by
  constructor
  · intro path member
    rw [eq_root_of_mem_fresh member]
    exact Path.Valid.atRoot
  · intro path member above step
    rw [eq_root_of_mem_fresh member] at step
    cases step
  · intro path node found name
    have isRoot := eq_root_of_mem_fresh (OrderedMap.mem_of_get? found)
    rw [get?_fresh, if_pos isRoot] at found
    cases found
    constructor
    · intro listed
      exact absurd listed (OrderedMap.not_mem_empty name)
    · intro ⟨child, member, joined⟩
      exact absurd (eq_root_of_mem_fresh member) (Path.ne_root_of_join joined)

/-- A mutation changed the tree, if anything, in a directory and its ancestors. -/
structure Touched (tree : Tree) (directory : Path) (updated : Tree) : Prop where
  wellFormed : tree.directories.WellFormed → updated.directories.WellFormed
  present : directory ∈ updated.directories
  kept : ∀ path ∈ tree.directories, path ∈ updated.directories
  elsewhere : ∀ path, path ∉ directory.chain →
    updated.directories.get? path = tree.directories.get? path

theorem touched_of_upsertFile {tree updated : Tree} {file : String} {record : FileRecord}
    {directory : Path}
    (stored : (tree.upsertFile file record).value = .ok (directory, updated)) :
    Touched tree directory updated := by
  unfold upsertFile at stored
  split at stored
  · cases stored
  · rename_i name read
    cases stored
    have valid := Path.valid_of_splitFile read
    constructor
    · intro wellFormed
      have ensured := (wellFormed.ensure tree.root_mem valid).1
      exact ensured.of_agreeOn (Directories.agreeOn_modify _ _ fun _ => rfl)
    · exact OrderedMap.mem_modify.mpr (Directories.mem_ensure_self tree.root_mem)
    · intro path member
      exact OrderedMap.mem_modify.mpr (Directories.contains_ensure _ _ _ member)
    · intro path outside
      have different : path ≠ directory := by
        intro same
        rw [same] at outside
        exact outside (Path.self_mem_chain directory)
      exact (Directories.get?_modify_of_ne different).trans
        (Directories.get?_ensure_of_not_mem_chain tree.root_mem outside)

theorem touched_of_removeFile {tree updated : Tree} {file : String} {directory : Path}
    (removed : (tree.removeFile file).value = .ok (directory, updated)) :
    Touched tree directory updated := by
  unfold removeFile at removed
  split at removed
  · cases removed
  · split at removed
    · cases removed
    · rename_i node found
      split at removed
      · cases removed
        constructor
        · intro wellFormed
          exact wellFormed.of_agreeOn (Directories.agreeOn_modify _ _ fun _ => rfl)
        · exact OrderedMap.mem_modify.mpr (OrderedMap.mem_of_get? found)
        · exact fun path member => OrderedMap.mem_modify.mpr member
        · intro path outside
          have different : path ≠ directory := by
            intro same
            rw [same] at outside
            exact outside (Path.self_mem_chain directory)
          exact Directories.get?_modify_of_ne different
      · cases removed

end Tree

namespace Workspace

theorem touched_of_mutateTree {tree updated : Tree} {mutation : Mutation} {directory : Path}
    (mutated : (mutateTree tree mutation).value = .ok (directory, updated)) :
    Tree.Touched tree directory updated := by
  cases mutation with
  | upsert file record => exact Tree.touched_of_upsertFile mutated
  | remove file => exact Tree.touched_of_removeFile mutated

/-- A mutation fails and changes nothing, or it changes the tree around one
directory and tracks that directory. -/
theorem applyOne_cases (workspace : Workspace) (mutation : Mutation) :
    (∃ error, (workspace.applyOne mutation).value = (workspace, .error error)) ∨
      ∃ directory updated, Tree.Touched workspace.tree directory updated ∧
        (workspace.applyOne mutation).value =
          (⟨updated, (workspace.tracker.add Refusals.none directory).value.1⟩, .ok ()) := by
  unfold applyOne
  rw [Logged.value_bind]
  cases mutated : (mutateTree workspace.tree mutation).value with
  | error cause => exact Or.inl ⟨_, rfl⟩
  | ok outcome =>
      obtain ⟨directory, updated⟩ := outcome
      have succeeded := workspace.tracker.add_succeeds directory
      refine Or.inr ⟨directory, updated, touched_of_mutateTree mutated, ?_⟩
      dsimp only
      rw [Logged.value_bind]
      cases added : (workspace.tracker.add Refusals.none directory).value with
      | mk tracker result =>
          rw [added] at succeeded
          dsimp only at succeeded
          rw [succeeded]
          rfl

theorem length_applyEach (workspace : Workspace) (mutations : List Mutation) :
    (workspace.applyEach mutations).value.2.length = mutations.length := by
  induction mutations generalizing workspace with
  | nil => rfl
  | cons mutation rest inductionHypothesis =>
      exact congrArg (· + 1) (inductionHypothesis (workspace.applyOne mutation).value.1)

end Workspace

end Rollup

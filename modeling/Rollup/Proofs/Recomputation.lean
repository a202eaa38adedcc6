/-
What one recomputation does to the tree.

Whether a directory can be recomputed depends on files and listed names only,
never on totals.  A recomputation changes the totals of its directory and
nothing else, and the new totals are those of its files and of the stored
totals of its listed subdirectories.
-/

import Mathlib.Algebra.GroupWithZero.Nat
import Mathlib.Data.List.Basic
import Rollup.Tree
import Rollup.Proofs.Ancestry
import Rollup.Proofs.Membership

namespace Rollup

namespace Logged

@[simp] theorem value_pure {α : Type} (value : α) : (pure value : Logged α).value = value := rfl

@[simp] theorem value_bind {α β : Type} (step : Logged α) (next : α → Logged β) :
    (step >>= next).value = (next step.value).value := rfl

end Logged

/-! ### Totals without their time -/

namespace Totals

/-- Totals without the time of their computation. -/
def untimed (totals : Totals) : Totals := { totals with refreshed := 0 }

@[simp] theorem untimed_addFile (totals : Totals) (file : FileRecord) :
    (totals.addFile file).untimed = totals.untimed.addFile file := rfl

@[simp] theorem untimed_addSubdirectory (totals subdirectory : Totals) :
    (totals.addSubdirectory subdirectory).untimed =
      totals.untimed.addSubdirectory subdirectory.untimed := rfl

@[simp] theorem untimed_start (now : UInt64) : (start now).untimed = start 0 := rfl

theorem untimed_compute (files : List FileRecord) (subdirectories : List Totals) (now : UInt64) :
    (compute files subdirectories now).untimed =
      compute files (subdirectories.map untimed) 0 := by
  have overFiles (totals : Totals) :
      (files.foldl addFile totals).untimed = files.foldl addFile totals.untimed := by
    induction files generalizing totals with
    | nil => rfl
    | cons file rest inductionHypothesis =>
        rw [List.foldl_cons, inductionHypothesis, untimed_addFile, List.foldl_cons]
  have overSubdirectories (totals : Totals) :
      (subdirectories.foldl addSubdirectory totals).untimed =
        (subdirectories.map untimed).foldl addSubdirectory totals.untimed := by
    induction subdirectories generalizing totals with
    | nil => rfl
    | cons subdirectory rest inductionHypothesis =>
        rw [List.foldl_cons, inductionHypothesis, untimed_addSubdirectory, List.map_cons,
          List.foldl_cons]
  rw [compute, overSubdirectories, overFiles, untimed_start, compute]

end Totals

namespace Directory

def untimed (directory : Directory) : Directory := directory.setTotals directory.totals.untimed

/-- What recomputations leave alone. -/
def contents (directory : Directory) : OrderedMap String FileRecord × OrderedSet String :=
  (directory.files, directory.subdirs)

@[simp] theorem files_setTotals (directory : Directory) (totals : Totals) :
    (directory.setTotals totals).files = directory.files := rfl

@[simp] theorem subdirs_setTotals (directory : Directory) (totals : Totals) :
    (directory.setTotals totals).subdirs = directory.subdirs := rfl

@[simp] theorem totals_setTotals (directory : Directory) (totals : Totals) :
    (directory.setTotals totals).totals = totals := rfl

@[simp] theorem contents_setTotals (directory : Directory) (totals : Totals) :
    (directory.setTotals totals).contents = directory.contents := rfl

theorem untimed_eq_of_contents {left right : Directory} (contents : left.contents = right.contents)
    (totals : left.totals.untimed = right.totals.untimed) : left.untimed = right.untimed := by
  cases left
  cases right
  cases contents
  exact congrArg (Directory.mk _ _) totals

end Directory

namespace Path

/-- The directories with these names directly below, unless one of the names is
no segment. -/
def joinAll (parent : Path) : List String → Except PathError (List Path)
  | [] => .ok []
  | name :: rest =>
      match parent.join name with
      | .error cause => .error cause
      | .ok child => (joinAll parent rest).map (child :: ·)

/-- The names are tried from left to right, up to the first that is no segment. -/
theorem joinAll_cases (parent : Path) (names : List String) :
    ((∀ name ∈ names, IsSegment name) ∧ ∃ children, parent.joinAll names = .ok children) ∨
      ∃ earlier name later cause, names = earlier ++ name :: later ∧
        (∀ other ∈ earlier, IsSegment other) ∧ parent.join name = .error cause ∧
          parent.joinAll names = .error cause := by
  induction names with
  | nil => exact Or.inl ⟨by simp, [], rfl⟩
  | cons name rest inductionHypothesis =>
      unfold joinAll
      cases joined : parent.join name with
      | error cause => exact Or.inr ⟨[], name, rest, cause, rfl, by simp, joined, rfl⟩
      | ok child =>
          have here := (join_eq_ok_iff.mp joined).1
          rcases inductionHypothesis with
            ⟨segments, others, restJoined⟩ |
              ⟨earlier, bad, later, cause, split, segments, badJoined, restFailed⟩
          · refine Or.inl ⟨List.forall_mem_cons.mpr ⟨here, segments⟩, child :: others, ?_⟩
            rw [restJoined]
            rfl
          · refine Or.inr ⟨name :: earlier, bad, later, cause, congrArg (name :: ·) split,
              List.forall_mem_cons.mpr ⟨here, segments⟩, badJoined, ?_⟩
            rw [restFailed]
            rfl

theorem exists_joinAll {names : List String} (segments : ∀ name ∈ names, IsSegment name)
    (parent : Path) : ∃ children, parent.joinAll names = .ok children := by
  rcases parent.joinAll_cases names with
    ⟨_, joined⟩ | ⟨earlier, name, later, cause, split, _, failed, _⟩
  · exact joined
  · exact absurd (segments name (by simp [split])) (not_isSegment_of_join failed)

theorem joinAll_cons {parent : Path} {name : String} {rest : List String} {children : List Path}
    (joined : parent.joinAll (name :: rest) = .ok children) :
    ∃ first others, parent.join name = .ok first ∧ parent.joinAll rest = .ok others ∧
      children = first :: others := by
  unfold joinAll at joined
  split at joined
  · cases joined
  · rename_i first firstJoined
    cases restJoined : parent.joinAll rest with
    | error cause =>
        rw [restJoined] at joined
        cases joined
    | ok others =>
        rw [restJoined] at joined
        cases joined
        exact ⟨first, others, firstJoined, rfl, rfl⟩

theorem mem_joinAll {parent : Path} {names : List String} {children : List Path}
    (joined : parent.joinAll names = .ok children) (child : Path) :
    child ∈ children ↔ ∃ name ∈ names, parent.join name = .ok child := by
  induction names generalizing children with
  | nil =>
      cases joined
      simp
  | cons name rest inductionHypothesis =>
      obtain ⟨first, others, firstJoined, restJoined, rfl⟩ := joinAll_cons joined
      simp only [List.mem_cons, inductionHypothesis restJoined, exists_eq_or_imp, firstJoined,
        Except.ok.injEq]
      rw [eq_comm]

theorem parent_of_mem_joinAll {parent child : Path} {names : List String} {children : List Path}
    (joined : parent.joinAll names = .ok children) (member : child ∈ children) :
    child.parent = .ok parent := by
  obtain ⟨name, _, childJoined⟩ := (mem_joinAll joined child).mp member
  exact parent_of_join childJoined

theorem nodup_joinAll {parent : Path} {names : List String} {children : List Path}
    (joined : parent.joinAll names = .ok children) (distinct : names.Nodup) : children.Nodup := by
  induction names generalizing children with
  | nil =>
      cases joined
      exact List.nodup_nil
  | cons name rest inductionHypothesis =>
      obtain ⟨fresh, restDistinct⟩ := List.nodup_cons.mp distinct
      obtain ⟨first, others, firstJoined, restJoined, rfl⟩ := joinAll_cons joined
      apply List.nodup_cons.mpr
      refine ⟨?_, inductionHypothesis restJoined restDistinct⟩
      intro member
      obtain ⟨other, otherMember, otherJoined⟩ := (mem_joinAll restJoined first).mp member
      rw [join_injective firstJoined otherJoined] at fresh
      exact fresh otherMember

end Path

namespace Directories

/-- Both have the same directories, and these look alike through the view. -/
def AgreeOn {β : Type} (view : Directory → β) (left right : Directories) : Prop :=
  ∀ path, (left.get? path).map view = (right.get? path).map view

namespace AgreeOn

variable {β : Type} {view : Directory → β} {left middle right : Directories}

protected theorem refl (directories : Directories) : AgreeOn view directories directories :=
  fun _ => rfl

protected theorem symm (agree : AgreeOn view left right) : AgreeOn view right left :=
  fun path => (agree path).symm

protected theorem trans (first : AgreeOn view left middle) (second : AgreeOn view middle right) :
    AgreeOn view left right :=
  fun path => (first path).trans (second path)

protected theorem comp {γ : Type} (agree : AgreeOn view left right) (look : β → γ) :
    AgreeOn (look ∘ view) left right := by
  intro path
  rw [← Option.map_map, agree path, Option.map_map]

theorem exists_get? (agree : AgreeOn view left right) {path : Path} {node : Directory}
    (found : left.get? path = some node) :
    ∃ other, right.get? path = some other ∧ view other = view node := by
  have same := agree path
  rw [found, Option.map_some] at same
  exact Option.map_eq_some_iff.mp same.symm

theorem mem_iff (agree : AgreeOn view left right) (path : Path) : path ∈ left ↔ path ∈ right := by
  have same := congrArg Option.isSome (agree path)
  rw [Option.isSome_map, Option.isSome_map] at same
  exact Bool.eq_iff_iff.mp same

end AgreeOn

/-- What stops a bubble at a directory: it is not in the tree, or it lists a
name that is no segment. -/
def obstacle? (directories : Directories) (path : Path) : Option BubbleError :=
  match directories.get? path with
  | none => some (.unknownDirectory path)
  | some node =>
      match path.joinAll node.subdirs.members with
      | .error cause => some (.malformedPath path cause)
      | .ok _ => none

/-- The stored totals of the listed subdirectories that exist. -/
def listedTotals (directories : Directories) (path : Path) (node : Directory) : List Totals :=
  match path.joinAll node.subdirs.members with
  | .error _ => []
  | .ok children =>
      children.filterMap fun child => (directories.get? child).map Directory.totals

/-- The stored totals of a directory are what recomputing it would give now. -/
def UpToDate (directories : Directories) (path : Path) : Prop :=
  ∀ node, directories.get? path = some node →
    ∃ now, node.totals =
      Totals.compute node.files.values (directories.listedTotals path node) now

theorem obstacle?_congr {left right : Directories}
    (agree : AgreeOn Directory.contents left right) (path : Path) :
    left.obstacle? path = right.obstacle? path := by
  have same := agree path
  unfold obstacle?
  cases leftFound : left.get? path <;> cases rightFound : right.get? path <;>
    rw [leftFound, rightFound] at same
  · cases same
  · cases same
  · have contents := Option.some.inj same
    have subdirs := congrArg Prod.snd contents
    simp only [Directory.contents] at subdirs
    simp only [subdirs]

theorem obstacle?_of_not_mem {directories : Directories} {path : Path}
    (absent : path ∉ directories) :
    directories.obstacle? path = some (.unknownDirectory path) := by
  rw [obstacle?, OrderedMap.not_mem_iff_get?.mp absent]

theorem mem_of_obstacle?_eq_none {directories : Directories} {path : Path}
    (clear : directories.obstacle? path = none) : path ∈ directories := by
  unfold obstacle? at clear
  split at clear
  · cases clear
  · rename_i found
    exact OrderedMap.mem_of_get? found

theorem listedTotals_congr {left right : Directories} {path : Path}
    {leftNode rightNode : Directory} {view : Totals → Totals}
    (subdirs : leftNode.subdirs = rightNode.subdirs)
    (agree : ∀ child, child.parent = .ok path →
      (left.get? child).map (view ∘ Directory.totals) =
        (right.get? child).map (view ∘ Directory.totals)) :
    (left.listedTotals path leftNode).map view = (right.listedTotals path rightNode).map view := by
  unfold listedTotals
  rw [subdirs]
  split
  · rfl
  · rename_i children joined
    rw [List.map_filterMap, List.map_filterMap]
    refine List.filterMap_congr fun child member => ?_
    simpa only [Option.map_map] using agree child (Path.parent_of_mem_joinAll joined member)

end Directories

namespace Tree

/-- The answers of the listed subdirectories, by what they are: a name that is
no segment, or the totals of those that exist. -/
theorem value_childTotals (directories : Directories) (parent : Path) (names : List String) :
    (childTotals directories parent names).value =
      (parent.joinAll names).map fun children =>
        children.filterMap fun child => (directories.get? child).map Directory.totals := by
  induction names with
  | nil => rfl
  | cons name rest inductionHypothesis =>
      unfold childTotals Path.joinAll
      cases joined : parent.join name with
      | error cause => rfl
      | ok child =>
          cases found : directories.get? child <;> cases restJoined : parent.joinAll rest <;>
            simp [inductionHypothesis, restJoined, Except.map, found]

theorem recompute_of_obstacle {tree : Tree} {path : Path} {error : BubbleError}
    (found : tree.directories.obstacle? path = some error) (now : UInt64) :
    (tree.recompute now path).value = .error error := by
  unfold Directories.obstacle? at found
  unfold recompute
  cases present : tree.directories.get? path with
  | none =>
      simp only [present] at found
      cases found
      rfl
  | some node =>
      simp only [present] at found
      cases joined : path.joinAll node.subdirs.members with
      | error cause =>
          simp only [joined] at found
          cases found
          simp [value_childTotals, joined, Except.map]
      | ok children =>
          simp only [joined] at found
          cases found

/-- A recomputation that succeeded, with everything that it did. -/
structure Recomputed (now : UInt64) (tree : Tree) (path : Path) (updated : Tree) : Prop where
  clear : tree.directories.obstacle? path = none
  counted : updated.recomputations = tree.recomputations + 1
  others : ∀ other, other ≠ path →
    updated.directories.get? other = tree.directories.get? other
  here : ∀ node, tree.directories.get? path = some node →
    updated.directories.get? path =
      some (node.setTotals (Totals.compute node.files.values
        (tree.directories.listedTotals path node) now))

theorem recompute_of_clear {tree : Tree} {path : Path}
    (clear : tree.directories.obstacle? path = none) (now : UInt64) :
    ∃ updated, (tree.recompute now path).value = .ok updated ∧
      Recomputed now tree path updated := by
  have unobstructed := clear
  unfold Directories.obstacle? at unobstructed
  unfold recompute
  cases present : tree.directories.get? path with
  | none =>
      simp only [present] at unobstructed
      cases unobstructed
  | some node =>
      simp only [present] at unobstructed
      cases joined : path.joinAll node.subdirs.members with
      | error cause =>
          simp only [joined] at unobstructed
          cases unobstructed
      | ok children =>
          simp only [Logged.value_bind, value_childTotals, joined, Except.map]
          refine ⟨_, rfl, clear, rfl, fun other different => ?_, fun found foundAt => ?_⟩
          · exact (OrderedMap.get?_modify _ _ _ _).trans (if_neg different)
          · rw [present] at foundAt
            cases foundAt
            apply (OrderedMap.get?_modify _ _ _ _).trans
            rw [if_pos rfl, present, Option.map_some, Directories.listedTotals, joined]

/-- A recomputation meets the obstacle that is there, or succeeds. -/
theorem recomputed_of_ok {now : UInt64} {tree updated : Tree} {path : Path}
    (succeeded : (tree.recompute now path).value = .ok updated) :
    Recomputed now tree path updated := by
  cases found : tree.directories.obstacle? path with
  | some error =>
      rw [recompute_of_obstacle found now] at succeeded
      cases succeeded
  | none =>
      obtain ⟨other, computed, recomputed⟩ := recompute_of_clear found now
      rw [computed] at succeeded
      cases succeeded
      exact recomputed

theorem obstacle_of_error {now : UInt64} {tree : Tree} {path : Path} {error : BubbleError}
    (failed : (tree.recompute now path).value = .error error) :
    tree.directories.obstacle? path = some error := by
  cases found : tree.directories.obstacle? path with
  | some other =>
      rw [recompute_of_obstacle found now] at failed
      cases failed
      rfl
  | none =>
      obtain ⟨updated, computed, _⟩ := recompute_of_clear found now
      rw [computed] at failed
      cases failed

namespace Recomputed

variable {now : UInt64} {tree updated : Tree} {path : Path}

theorem contents (recomputed : Recomputed now tree path updated) :
    tree.directories.AgreeOn Directory.contents updated.directories := by
  intro other
  by_cases same : other = path
  · rw [same]
    obtain ⟨node, found⟩ :=
      OrderedMap.mem_iff_get?.mp (Directories.mem_of_obstacle?_eq_none recomputed.clear)
    rw [found, recomputed.here node found, Option.map_some, Option.map_some,
      Directory.contents_setTotals]
  · rw [recomputed.others other same]

theorem listedTotals (recomputed : Recomputed now tree path updated) {node other : Directory}
    (subdirs : node.subdirs = other.subdirs) {above : Path} (elsewhere : path.parent ≠ .ok above) :
    tree.directories.listedTotals above node = updated.directories.listedTotals above other := by
  have same : (tree.directories.listedTotals above node).map id =
      (updated.directories.listedTotals above other).map id := by
    refine Directories.listedTotals_congr subdirs fun child childParent => ?_
    have different : child ≠ path := by
      intro same
      subst same
      exact elsewhere childParent
    rw [recomputed.others child different]
  simpa only [List.map_id] using same

/-- The totals just computed are up to date. -/
theorem upToDate (recomputed : Recomputed now tree path updated) :
    updated.directories.UpToDate path := by
  intro node found
  obtain ⟨before, foundBefore⟩ :=
    OrderedMap.mem_iff_get?.mp (Directories.mem_of_obstacle?_eq_none recomputed.clear)
  rw [recomputed.here before foundBefore] at found
  cases found
  have notOwnParent : path.parent ≠ .ok path := fun loop =>
    path.not_isAncestorOf_self (Path.IsAncestorOf.of_parent loop)
  exact ⟨now, congrArg (fun below => Totals.compute before.files.values below now)
    (recomputed.listedTotals rfl notOwnParent)⟩

/-- Only the directory itself and its parent can stop being up to date. -/
theorem upToDate_of_ne (recomputed : Recomputed now tree path updated) {other : Path}
    (different : other ≠ path) (notAbove : path.parent ≠ .ok other)
    (before : tree.directories.UpToDate other) : updated.directories.UpToDate other := by
  intro node found
  rw [recomputed.others other different] at found
  obtain ⟨time, same⟩ := before node found
  exact ⟨time, by rw [same, recomputed.listedTotals rfl notAbove]⟩

end Recomputed

end Tree

end Rollup

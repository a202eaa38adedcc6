/-
What one mutation does to the directories, whatever they are.

A text that names a file leads to a path other than the root, and so to a
directory and a name in it.  Storing a file creates the directories that are
missing from there up to the nearest one present and lists each with its parent;
apart from that a mutation changes the entry of one name in one directory.  None
of this asks the tree to be well formed.
-/

import Rollup.Proofs.Mutations

namespace Rollup

namespace Path

/-! ### The path of a file -/

/-- The path under which a text names a file; the root is none. -/
def ofFile (source : String) : Except PathError Path :=
  match parse source with
  | .error cause => .error cause
  | .ok path => if path = root then .error (.fileAtRoot source) else .ok path

theorem exists_name? {path : Path} (notRoot : path ≠ root) : ∃ name, path.name? = some name := by
  unfold name?
  rw [if_neg (by rw [isRoot_iff]; exact notRoot)]
  exact ⟨_, rfl⟩

theorem valid_of_ofFile {source : String} {path : Path} (read : ofFile source = .ok path) :
    path.Valid ∧ path ≠ root := by
  unfold ofFile at read
  split at read
  · cases read
  · rename_i parsed
    split at read
    · cases read
    · rename_i notRoot
      cases read
      exact ⟨valid_of_parse parsed, notRoot⟩

theorem splitFile_of_error {source : String} {cause : PathError}
    (failed : ofFile source = .error cause) : splitFile source = .error cause := by
  cases parsed : parse source with
  | error other =>
      rw [ofFile, parsed] at failed
      cases failed
      rw [splitFile, parsed]
  | ok path =>
      rw [ofFile, parsed] at failed
      by_cases atRoot : path = root
      · rw [atRoot] at failed parsed
        cases failed
        rw [splitFile, parsed]
        rfl
      · dsimp only at failed
        rw [if_neg atRoot] at failed
        cases failed

theorem splitFile_of_ok {source : String} {path : Path} (read : ofFile source = .ok path) :
    ∃ name, path.name? = some name ∧ splitFile source = .ok (path.parentOfNonRoot, name) := by
  obtain ⟨name, named⟩ := exists_name? (valid_of_ofFile read).2
  refine ⟨name, named, ?_⟩
  cases parsed : parse source with
  | error other =>
      rw [ofFile, parsed] at read
      cases read
  | ok other =>
      rw [ofFile, parsed] at read
      dsimp only at read
      split at read
      · cases read
      · cases read
        rw [splitFile, parsed]
        dsimp only
        rw [named]

theorem splitFile_eq_ok_iff_of_placed {source name segment : String} {directory path : Path}
    (placed : splitFile source = .ok (directory, name)) :
    splitFile source = .ok (path, segment) ↔ path = directory ∧ segment = name := by
  rw [placed, Except.ok.injEq, Prod.mk.injEq, eq_comm, eq_comm (a := name)]

theorem splitFile_eq_ok_iff {source name : String} {directory : Path} :
    splitFile source = .ok (directory, name) ↔
      ∃ path, ofFile source = .ok path ∧ path.parent = .ok directory ∧ path.name? = some name := by
  cases read : ofFile source with
  | error cause =>
      rw [splitFile_of_error read]
      constructor
      · intro impossible
        cases impossible
      · intro ⟨_, impossible, _⟩
        cases impossible
  | ok path =>
      obtain ⟨lastName, named, split⟩ := splitFile_of_ok read
      have step := parent_eq_ok_iff.mpr ⟨(valid_of_ofFile read).2, rfl⟩
      rw [split]
      constructor
      · intro same
        cases same
        exact ⟨path, rfl, step, named⟩
      · intro ⟨other, same, otherStep, otherNamed⟩
        cases same
        rw [step] at otherStep
        rw [named] at otherNamed
        cases otherStep
        cases otherNamed
        rfl

/-- A well-formed path is determined by its parent and its name. -/
theorem Valid.eq_of_parent_of_name {left right above : Path} {name : String} (leftValid : left.Valid)
    (rightValid : right.Valid) (leftParent : left.parent = .ok above)
    (rightParent : right.parent = .ok above) (leftName : left.name? = some name)
    (rightName : right.name? = some name) : left = right := by
  have joined {path : Path} (valid : path.Valid) (step : path.parent = .ok above)
      (named : path.name? = some name) : above.join name = .ok path := by
    obtain ⟨notRoot, same⟩ := parent_eq_ok_iff.mp step
    obtain ⟨other, otherNamed, otherJoined⟩ := valid.join_name notRoot
    rw [named] at otherNamed
    cases otherNamed
    rw [same] at otherJoined
    exact otherJoined
  have leftJoined := joined leftValid leftParent leftName
  rw [joined rightValid rightParent rightName] at leftJoined
  cases leftJoined
  rfl

theorem eq_of_mem_chain_of_mem_chain {upper lower : Path} (inLower : upper ∈ lower.chain)
    (inUpper : lower ∈ upper.chain) : upper = lower := by
  rcases mem_chain_iff.mp inLower with same | above
  · exact same
  · rcases mem_chain_iff.mp inUpper with same | below
    · exact same.symm
    · exact absurd below above.asymm

end Path

namespace Directories

/-! ### Missing directories -/

theorem missing_of_mem {directories : Directories} {path : Path} (member : path ∈ directories) :
    directories.missing path.chain = [] := by
  rw [missing, Path.chain, List.takeWhile_cons, OrderedMap.contains_eq_true_iff.mpr member]
  rfl

theorem missing_of_not_mem {directories : Directories} {path : Path} (absent : path ∉ directories)
    (notRoot : path ≠ Path.root) :
    directories.missing path.chain = path :: directories.missing path.parentOfNonRoot.chain := by
  rw [missing, Path.chain_of_ne_root notRoot, List.takeWhile_cons, if_pos]
  · rfl
  · rw [OrderedMap.contains_eq_false_iff.mpr absent]
    rfl

private theorem mem_missing_iff_of_mem {directories : Directories} {path other : Path}
    (present : path ∈ directories) :
    other ∈ directories.missing path.chain ↔
      other ∈ path.chain ∧ ∀ lower ∈ path.chain, other ∈ lower.chain → lower ∉ directories := by
  rw [missing_of_mem present]
  constructor
  · intro impossible
    cases impossible
  · rintro ⟨inChain, absent⟩
    exact absurd present (absent path path.self_mem_chain inChain)

/-- A directory is missing on a way to the root when nothing on that way, up to
the directory itself, is present. -/
theorem mem_missing_iff {directories : Directories} {path other : Path} :
    other ∈ directories.missing path.chain ↔
      other ∈ path.chain ∧ ∀ lower ∈ path.chain, other ∈ lower.chain → lower ∉ directories := by
  induction path using Path.parentInduction with
  | atRoot =>
      by_cases present : Path.root ∈ directories
      · exact mem_missing_iff_of_mem present
      · rw [missing, Path.chain_root, List.takeWhile_cons,
          OrderedMap.contains_eq_false_iff.mpr present]
        simp only [Bool.not_false, if_true, List.takeWhile_nil, List.mem_singleton, forall_eq]
        exact ⟨fun same => ⟨same, fun _ => present⟩, And.left⟩
  | below path notRoot inductionHypothesis =>
      by_cases present : path ∈ directories
      · exact mem_missing_iff_of_mem present
      · rw [missing_of_not_mem present notRoot, List.mem_cons, inductionHypothesis,
          Path.chain_of_ne_root notRoot, List.mem_cons, List.forall_mem_cons]
        constructor
        · intro position
          rcases position with same | ⟨inChain, absent⟩
          · -- A directory above the path with the path on its own way would be the path itself.
            refine ⟨Or.inl same, fun _ => present, fun lower above inLower => ?_⟩
            rw [same] at inLower
            have inPath : lower ∈ path.chain := by
              rw [Path.chain_of_ne_root notRoot]
              exact List.mem_cons_of_mem path above
            rw [Path.eq_of_mem_chain_of_mem_chain inPath inLower] at above
            exact absurd above (Path.not_mem_chain_parent notRoot)
          · exact ⟨Or.inr inChain, fun _ => present, absent⟩
        · rintro ⟨position, _, absent⟩
          rcases position with same | inChain
          · exact Or.inl same
          · exact Or.inr ⟨inChain, absent⟩

/-! ### The content of a directory -/

attribute [ext] Directory

/-- The directory at a path; an absent one is empty. -/
def nodeAt (directories : Directories) (path : Path) : Directory :=
  (directories.get? path).getD Directory.empty

theorem nodeAt_of_get? {directories : Directories} {path : Path} {node : Directory}
    (found : directories.get? path = some node) : directories.nodeAt path = node := by
  rw [nodeAt, found, Option.getD_some]

theorem nodeAt_of_not_mem {directories : Directories} {path : Path} (absent : path ∉ directories) :
    directories.nodeAt path = Directory.empty := by
  rw [nodeAt, OrderedMap.not_mem_iff_get?.mp absent, Option.getD_none]

theorem get?_of_mem {directories : Directories} {path : Path} (member : path ∈ directories) :
    directories.get? path = some (directories.nodeAt path) := by
  obtain ⟨node, found⟩ := OrderedMap.mem_iff_get?.mp member
  rw [nodeAt_of_get? found, found]

theorem files_nodeAt_congr {left right : Directories}
    (agree : left.AgreeOn Directory.contents right) (path : Path) :
    (left.nodeAt path).files = (right.nodeAt path).files := by
  cases found : left.get? path with
  | none =>
      have absent := OrderedMap.not_mem_iff_get?.mpr found
      rw [nodeAt_of_not_mem absent, nodeAt_of_not_mem (mt (agree.mem_iff path).mpr absent)]
  | some node =>
      obtain ⟨other, otherFound, contents⟩ := agree.exists_get? found
      rw [nodeAt_of_get? found, nodeAt_of_get? otherFound]
      exact (congrArg Prod.fst contents).symm

theorem get?_eq_of_nodeAt {left right : Directories} {path : Path}
    (present : path ∈ left ↔ path ∈ right) (content : left.nodeAt path = right.nodeAt path) :
    left.get? path = right.get? path := by
  by_cases member : path ∈ left
  · rw [get?_of_mem member, get?_of_mem (present.mp member), content]
  · rw [OrderedMap.not_mem_iff_get?.mp member,
      OrderedMap.not_mem_iff_get?.mp (mt present.mpr member)]

theorem ext_nodeAt {left right : Directories} (present : ∀ path, path ∈ left ↔ path ∈ right)
    (content : ∀ path, left.nodeAt path = right.nodeAt path) : left = right :=
  OrderedMap.ext_get? fun path => get?_eq_of_nodeAt (present path) (content path)

theorem nodeAt_modify {directories : Directories} {path : Path} (member : path ∈ directories)
    (change : Directory → Directory) (other : Path) :
    nodeAt (directories.modify path change) other =
      if other = path then change (directories.nodeAt path) else directories.nodeAt other := by
  rw [nodeAt, OrderedMap.get?_modify]
  split
  · rename_i same
    rw [same, get?_of_mem member]
    rfl
  · rfl

theorem nodeAt_create {directories : Directories} {path : Path} {name : String}
    (named : path.name? = some name) (absent : path ∉ directories)
    (parentPresent : path.parentOfNonRoot ∈ directories) (other : Path) :
    (directories.create path).nodeAt other =
      if other = path.parentOfNonRoot then
        (directories.nodeAt path.parentOfNonRoot).listSubdirectory name
      else directories.nodeAt other := by
  rw [nodeAt, get?_create named]
  by_cases isNew : other = path
  · have notParent : other ≠ path.parentOfNonRoot := by
      intro same
      rw [← same, isNew] at parentPresent
      exact absent parentPresent
    rw [if_pos isNew, if_neg notParent, isNew, nodeAt_of_not_mem absent]
    rfl
  · rw [if_neg isNew]
    split
    · rename_i isParent
      rw [isParent, get?_of_mem parentPresent]
      rfl
    · rfl

/-! ### Growing -/

/-- Empty directories were created, each is listed with its parent, and nothing
else is different. -/
structure Grown (before : Directories) (created : List Path) (after : Directories) : Prop where
  present : ∀ path, path ∈ after ↔ path ∈ before ∨ path ∈ created
  files : ∀ path, (after.nodeAt path).files = (before.nodeAt path).files
  totals : ∀ path, (after.nodeAt path).totals = (before.nodeAt path).totals
  listed : ∀ path name, name ∈ (after.nodeAt path).subdirs ↔
    name ∈ (before.nodeAt path).subdirs ∨
      ∃ child ∈ created, child.parent = .ok path ∧ child.name? = some name

namespace Grown

variable {before after : Directories} {created : List Path}

protected theorem refl (directories : Directories) : Grown directories [] directories where
  present := fun path => by simp
  files := fun _ => rfl
  totals := fun _ => rfl
  listed := fun path name => by simp

theorem create (grown : Grown before created after) {path : Path} (notRoot : path ≠ Path.root)
    (absent : path ∉ after) (parentPresent : path.parentOfNonRoot ∈ after) :
    Grown before (path :: created) (after.create path) := by
  obtain ⟨name, named⟩ := Path.exists_name? notRoot
  have content := nodeAt_create named absent parentPresent
  constructor
  · intro other
    rw [mem_create, grown.present, List.mem_cons]
    exact or_left_comm
  · intro other
    rw [content, ← grown.files]
    split
    · rename_i same
      rw [same]
      rfl
    · rfl
  · intro other
    rw [content, ← grown.totals]
    split
    · rename_i same
      rw [same]
      rfl
    · rfl
  · intro other segment
    have isChild : path.parent = .ok other ↔ other = path.parentOfNonRoot := by
      rw [Path.parent_eq_ok_iff, and_iff_right notRoot, eq_comm]
    simp only [List.mem_cons, exists_eq_or_imp, isChild, named, Option.some.injEq]
    rw [content]
    split
    · rename_i same
      rw [Directory.listSubdirectory, OrderedSet.mem_add, ← same, grown.listed,
        and_iff_right (rfl : other = other), eq_comm]
      exact or_left_comm
    · rename_i different
      rw [grown.listed]
      constructor
      · intro position
        exact position.imp_right Or.inr
      · intro position
        exact position.imp_right fun origin => origin.resolve_left fun atParent => different atParent.1

end Grown

/-- Ensuring a path creates what is missing on its way and nothing else. -/
theorem grown_ensure {directories : Directories} (rootPresent : Path.root ∈ directories)
    (path : Path) : Grown directories (directories.missing path.chain) (directories.ensure path) := by
  induction path using Path.parentInduction with
  | atRoot =>
      rw [missing_of_mem rootPresent, ensure_of_mem rootPresent]
      exact Grown.refl directories
  | below path notRoot inductionHypothesis =>
      by_cases member : path ∈ directories
      · rw [missing_of_mem member, ensure_of_mem member]
        exact Grown.refl directories
      · rw [missing_of_not_mem member notRoot, ensure_of_not_mem member notRoot]
        apply inductionHypothesis.create notRoot
        · rw [inductionHypothesis.present, not_or]
          refine ⟨member, fun isMissing => ?_⟩
          exact Path.not_mem_chain_parent notRoot (mem_missing_iff.mp isMissing).1
        · exact mem_ensure_self rootPresent

end Directories

/-! ### Mutations -/

namespace Mutation

/-- What is at the place of the file afterwards. -/
def record? : Mutation → Option FileRecord
  | .upsert _ record => some record
  | .remove _ => none

/-- The directories that the mutation has to create. -/
def lacking (directories : Directories) : Mutation → List Path
  | .upsert file _ =>
      match Path.splitFile file with
      | .ok (directory, _) => directories.missing directory.chain
      | .error _ => []
  | .remove _ => []

/-- The directory of the file, or why the mutation is refused. -/
def answer (directories : Directories) (mutation : Mutation) : Except TreeError Path :=
  match Path.splitFile mutation.file with
  | .error cause => .error (.invalidPath mutation.file cause)
  | .ok (directory, name) =>
      match mutation with
      | .upsert _ _ => .ok directory
      | .remove file =>
          if directory ∉ directories then .error (.unknownDirectory directory)
          else if name ∉ (directories.nodeAt directory).files then .error (.unknownFile file)
          else .ok directory

/-- The directories on the way to the file that has to be there afterwards. -/
def way : Mutation → List Path
  | .upsert file _ =>
      match Path.splitFile file with
      | .ok (directory, _) => directory.chain
      | .error _ => []
  | .remove _ => []

variable {mutation : Mutation} {directories : Directories}

theorem way_eq (mutation : Mutation) :
    mutation.way = [] ∨ ∃ directory : Path, mutation.way = directory.chain := by
  cases mutation with
  | upsert file record =>
      rw [way]
      cases Path.splitFile file with
      | error cause => exact Or.inl rfl
      | ok place => exact Or.inr ⟨place.1, rfl⟩
  | remove file => exact Or.inl rfl

theorem mem_way_of_mem_chain {upper lower : Path} (onWay : lower ∈ mutation.way)
    (above : upper ∈ lower.chain) : upper ∈ mutation.way := by
  rcases mutation.way_eq with none | ⟨directory, some⟩
  · rw [none] at onWay
    cases onWay
  · rw [some] at onWay ⊢
    exact Path.mem_chain_trans above onWay

theorem mem_chain_or_mem_chain_of_mem_way {left right : Path} (leftOnWay : left ∈ mutation.way)
    (rightOnWay : right ∈ mutation.way) : left ∈ right.chain ∨ right ∈ left.chain := by
  rcases mutation.way_eq with none | ⟨directory, some⟩
  · rw [none] at leftOnWay
    cases leftOnWay
  · rw [some] at leftOnWay rightOnWay
    exact Path.mem_chain_or_mem_chain leftOnWay rightOnWay

theorem mem_lacking_iff {other : Path} :
    other ∈ mutation.lacking directories ↔
      other ∈ mutation.way ∧ ∀ lower ∈ mutation.way, other ∈ lower.chain → lower ∉ directories := by
  cases mutation with
  | upsert file record =>
      rw [lacking, way]
      cases Path.splitFile file with
      | error cause => simp only [List.not_mem_nil, false_and]
      | ok place => exact Directories.mem_missing_iff
  | remove file => simp only [lacking, way, List.not_mem_nil, false_and]

/-- A mutation succeeds if its text names a file and, unless it stores a record,
that file is there. -/
theorem answer_eq_ok_iff {directory : Path} :
    mutation.answer directories = .ok directory ↔
      ∃ name, Path.splitFile mutation.file = .ok (directory, name) ∧
        (mutation.record? = none → name ∈ (directories.nodeAt directory).files) := by
  unfold answer
  cases placed : Path.splitFile mutation.file with
  | error cause => simp
  | ok place =>
      obtain ⟨above, name⟩ := place
      simp only [Except.ok.injEq, Prod.mk.injEq]
      cases mutation with
      | upsert file record => simp [record?]
      | remove file =>
          simp only [record?, true_imp_iff]
          by_cases present : above ∈ directories
          · rw [if_neg (not_not_intro present)]
            by_cases inside : name ∈ (directories.nodeAt above).files
            · rw [if_neg (not_not_intro inside)]
              constructor
              · intro same
                cases same
                exact ⟨name, ⟨rfl, rfl⟩, inside⟩
              · intro ⟨_, ⟨same, _⟩, _⟩
                rw [same]
            · rw [if_pos inside]
              constructor
              · intro impossible
                cases impossible
              · intro ⟨_, ⟨same, sameName⟩, found⟩
                rw [← same, ← sameName] at found
                exact absurd found inside
          · rw [if_pos present]
            constructor
            · intro impossible
              cases impossible
            · intro ⟨_, ⟨same, _⟩, found⟩
              rw [← same, Directories.nodeAt_of_not_mem present] at found
              exact absurd found (OrderedMap.not_mem_empty _)

end Mutation

namespace Directories

/-- A mutation created what it lacked and put its record at the place of its
file, or cleared that place. -/
structure Mutated (before : Directories) (mutation : Mutation) (after : Directories) : Prop where
  present : ∀ path, path ∈ after ↔ path ∈ before ∨ path ∈ mutation.lacking before
  files : ∀ path name, (after.nodeAt path).files.get? name =
    if Path.splitFile mutation.file = .ok (path, name) then mutation.record?
    else (before.nodeAt path).files.get? name
  totals : ∀ path, (after.nodeAt path).totals = (before.nodeAt path).totals
  listed : ∀ path name, name ∈ (after.nodeAt path).subdirs ↔
    name ∈ (before.nodeAt path).subdirs ∨
      ∃ child ∈ mutation.lacking before, child.parent = .ok path ∧ child.name? = some name

/-- A mutation that lacks nothing and finds its place as it leaves it changes
nothing. -/
theorem Mutated.unchanged {directories : Directories} {mutation : Mutation}
    (lacksNothing : mutation.lacking directories = [])
    (asBefore : ∀ path name, Path.splitFile mutation.file = .ok (path, name) →
      (directories.nodeAt path).files.get? name = mutation.record?) :
    directories.Mutated mutation directories where
  present := fun path => by simp [lacksNothing]
  files := by
    intro path name
    split
    · rename_i placed
      exact asBefore path name placed
    · rfl
  totals := fun _ => rfl
  listed := fun path name => by simp [lacksNothing]

/-- Growing by what a mutation lacks and then changing the place of its file is
all that the mutation does. -/
theorem Grown.mutated {before grownTo : Directories} {mutation : Mutation} {directory : Path}
    {name : String} {change : Directory → Directory}
    (grown : Grown before (mutation.lacking before) grownTo)
    (placed : Path.splitFile mutation.file = .ok (directory, name)) (member : directory ∈ grownTo)
    (files : ∀ node segment, (change node).files.get? segment =
      if segment = name then mutation.record? else node.files.get? segment)
    (totals : ∀ node, (change node).totals = node.totals)
    (subdirs : ∀ node, (change node).subdirs = node.subdirs) :
    before.Mutated mutation (grownTo.modify directory change) := by
  have content := nodeAt_modify member change
  constructor
  · intro path
    rw [OrderedMap.mem_modify, grown.present]
  · intro path segment
    simp only [Path.splitFile_eq_ok_iff_of_placed placed]
    rw [content, ← grown.files]
    by_cases here : path = directory
    · rw [if_pos here, files, here]
      simp only [true_and]
    · rw [if_neg here, if_neg fun same => here same.1]
  · intro path
    rw [content, ← grown.totals]
    split
    · rename_i here
      rw [here, totals]
    · rfl
  · intro path segment
    rw [content, ← grown.listed]
    split
    · rename_i here
      rw [here, subdirs]
    · exact Iff.rfl

end Directories

namespace Workspace

open Directories

/-- The mutation fails and the tree stays as it is. -/
structure Refused (tree : Tree) (mutation : Mutation) (cause : TreeError) : Prop where
  value : (mutateTree tree mutation).value = .error cause
  answer : mutation.answer tree.directories = .error cause
  mutated : tree.directories.Mutated mutation tree.directories

/-- The mutation succeeds: it is answered by the directory of its file. -/
structure Performed (tree : Tree) (mutation : Mutation) (directory : Path) (updated : Tree) :
    Prop where
  value : (mutateTree tree mutation).value = .ok (directory, updated)
  answer : mutation.answer tree.directories = .ok directory
  mutated : tree.directories.Mutated mutation updated.directories
  recomputations : updated.recomputations = tree.recomputations

theorem refused_of_no_place {tree : Tree} {mutation : Mutation} {cause : PathError}
    (placed : Path.splitFile mutation.file = .error cause) :
    Refused tree mutation (.invalidPath mutation.file cause) := by
  have asBefore : ∀ path name, Path.splitFile mutation.file = .ok (path, name) →
      (tree.directories.nodeAt path).files.get? name = mutation.record? := by
    intro path name found
    rw [placed] at found
    cases found
  cases mutation with
  | upsert file record =>
      have read : Path.splitFile file = .error cause := placed
      constructor
      · rw [mutateTree, Tree.upsertFile, read]
        rfl
      · rw [Mutation.answer, placed]
      · refine .unchanged ?_ asBefore
        rw [Mutation.lacking, read]
  | remove file =>
      have read : Path.splitFile file = .error cause := placed
      constructor
      · rw [mutateTree, Tree.removeFile, read]
        rfl
      · rw [Mutation.answer, placed]
      · exact .unchanged rfl asBefore

theorem performed_upsert {tree : Tree} {file name : String} {directory : Path}
    (placed : Path.splitFile file = .ok (directory, name)) (record : FileRecord) :
    Performed tree (.upsert file record) directory
      ((tree.ensure directory).modify directory fun node => node.putFile name record) where
  value := by rw [mutateTree, Tree.upsertFile, placed]
  answer := by rw [Mutation.answer, Mutation.file, placed]
  mutated := by
    have grown := grown_ensure tree.root_mem directory
    have lacking : Mutation.lacking tree.directories (.upsert file record) =
        tree.directories.missing directory.chain := by
      rw [Mutation.lacking, placed]
    rw [← lacking] at grown
    refine grown.mutated placed (mem_ensure_self tree.root_mem) ?_ ?_ ?_
    · intro node segment
      exact OrderedMap.get?_insert node.files name segment record
    · exact fun _ => rfl
    · exact fun _ => rfl
  recomputations := rfl

section Remove

variable {tree : Tree} {file name : String} {directory : Path}
variable (placed : Path.splitFile file = .ok (directory, name))

include placed

private theorem mutated_remove_of_nothing
    (nothing : name ∉ (tree.directories.nodeAt directory).files) :
    tree.directories.Mutated (.remove file) tree.directories := by
  refine .unchanged rfl fun path segment found => ?_
  rw [Mutation.file, placed] at found
  cases found
  exact OrderedMap.not_mem_iff_get?.mp nothing

theorem refused_of_no_directory (absent : directory ∉ tree.directories) :
    Refused tree (.remove file) (.unknownDirectory directory) where
  value := by
    rw [mutateTree, Tree.removeFile, placed]
    dsimp only
    rw [OrderedMap.not_mem_iff_get?.mp absent]
    rfl
  answer := by
    rw [Mutation.answer, Mutation.file, placed]
    exact if_pos absent
  mutated := by
    apply mutated_remove_of_nothing placed
    rw [nodeAt_of_not_mem absent]
    exact OrderedMap.not_mem_empty name

theorem refused_of_no_file (present : directory ∈ tree.directories)
    (nothing : name ∉ (tree.directories.nodeAt directory).files) :
    Refused tree (.remove file) (.unknownFile file) where
  value := by
    rw [mutateTree, Tree.removeFile, placed]
    dsimp only
    rw [get?_of_mem present]
    dsimp only
    rw [if_neg (mt OrderedMap.contains_eq_true_iff.mp nothing)]
    rfl
  answer := by
    rw [Mutation.answer, Mutation.file, placed]
    dsimp only
    rw [if_neg (not_not_intro present), if_pos nothing]
  mutated := mutated_remove_of_nothing placed nothing

theorem performed_remove (present : directory ∈ tree.directories)
    (inside : name ∈ (tree.directories.nodeAt directory).files) :
    Performed tree (.remove file) directory
      (tree.modify directory fun node => node.dropFile name) where
  value := by
    rw [mutateTree, Tree.removeFile, placed]
    dsimp only
    rw [get?_of_mem present]
    dsimp only
    rw [if_pos (OrderedMap.contains_eq_true_iff.mpr inside)]
  answer := by
    rw [Mutation.answer, Mutation.file, placed]
    dsimp only
    rw [if_neg (not_not_intro present), if_neg (not_not_intro inside)]
  mutated := by
    refine (Grown.refl tree.directories).mutated placed present ?_ ?_ ?_
    · intro node segment
      exact OrderedMap.get?_erase node.files name segment
    · exact fun _ => rfl
    · exact fun _ => rfl
  recomputations := rfl

end Remove

theorem refused_or_performed (tree : Tree) (mutation : Mutation) :
    (∃ cause, Refused tree mutation cause) ∨
      ∃ directory updated, Performed tree mutation directory updated := by
  cases placed : Path.splitFile mutation.file with
  | error cause => exact Or.inl ⟨_, refused_of_no_place placed⟩
  | ok place =>
      obtain ⟨directory, name⟩ := place
      cases mutation with
      | upsert file record => exact Or.inr ⟨directory, _, performed_upsert placed record⟩
      | remove file =>
          by_cases present : directory ∈ tree.directories
          · by_cases inside : name ∈ (tree.directories.nodeAt directory).files
            · exact Or.inr ⟨directory, _, performed_remove placed present inside⟩
            · exact Or.inl ⟨_, refused_of_no_file placed present inside⟩
          · exact Or.inl ⟨_, refused_of_no_directory placed present⟩

theorem performed_of_ok {tree updated : Tree} {mutation : Mutation} {directory : Path}
    (succeeded : (mutateTree tree mutation).value = .ok (directory, updated)) :
    Performed tree mutation directory updated := by
  rcases refused_or_performed tree mutation with ⟨cause, refused⟩ | ⟨other, result, performed⟩
  · rw [refused.value] at succeeded
    cases succeeded
  · have same := performed.value
    rw [succeeded] at same
    cases same
    exact performed

theorem refused_of_error {tree : Tree} {mutation : Mutation} {cause : TreeError}
    (failed : (mutateTree tree mutation).value = .error cause) : Refused tree mutation cause := by
  rcases refused_or_performed tree mutation with ⟨other, refused⟩ | ⟨directory, result, performed⟩
  · have same := refused.value
    rw [failed] at same
    cases same
    exact refused
  · rw [performed.value] at failed
    cases failed

end Workspace

end Rollup

/-
The tree as a flat map.

A catalogue keeps the files by their paths and the directories as a set, without
any tree.  It answers every request as the tree does, and after any requests the
tree has the directories of the catalogue, holds each of its files once, under
its name in the directory of its parent, and lists exactly the subdirectories
that are there.
-/

import Rollup.Proofs.Placement
import Rollup.Proofs.Staleness

namespace Rollup

/-- The files by their paths, and the directories. -/
structure Catalogue where
  files : OrderedMap Path FileRecord
  directories : OrderedSet Path

/-- What a tree can be asked for.  A bubble recomputes one directory after the
other, and other requests may come between. -/
inductive Request where
  | mutate (mutation : Mutation)
  | bubble (clock : Clock) (path : Path)
  | bubbleDetached (clock : Clock) (listener : Listener) (path : Path)
  | recompute (now : UInt64) (path : Path)

inductive Answer where
  | mutated (result : Except TreeError Path)
  | bubbled (result : Except BubbleError Unit)
  | heard (completions : List Path)

namespace Request

def performAll {σ : Type} (perform : σ → Request → σ × Answer) (state : σ) :
    List Request → σ × List Answer
  | [] => (state, [])
  | request :: rest =>
      let (next, answer) := perform state request
      let (final, answers) := performAll perform next rest
      (final, answer :: answers)

end Request

namespace Tree

def perform (tree : Tree) : Request → Tree × Answer
  | .mutate mutation =>
      match (Workspace.mutateTree tree mutation).value with
      | .ok (directory, updated) => (updated, .mutated (.ok directory))
      | .error cause => (tree, .mutated (.error cause))
  | .bubble clock path =>
      let (bubbled, result) := (tree.bubbleFrom clock path).value
      (bubbled, .bubbled result)
  | .bubbleDetached clock listener path =>
      let (bubbled, completions) := (tree.bubbleDetached clock listener path).value
      (bubbled, .heard completions)
  | .recompute now path =>
      match (tree.recompute now path).value with
      | .ok updated => (updated, .bubbled (.ok ()))
      | .error error => (tree, .bubbled (.error error))

end Tree

theorem Tree.heard_bubbleDetached (clock : Clock) (listener : Listener) (tree : Tree)
    (path : Path) :
    (tree.bubbleDetached clock listener path).value.2 =
      if listener = .listening then [path] else [] := by
  rw [bubbleDetached, Logged.value_bind]
  cases (tree.bubbleFrom clock path).value with
  | mk updated result => cases result <;> cases listener <;> rfl

namespace Catalogue

def initial : Catalogue := { files := ∅, directories := OrderedSet.add ∅ Path.root }

/-- Stores a file; all directories above it are there from now on. -/
def store (catalogue : Catalogue) (path : Path) (record : FileRecord) : Catalogue :=
  { files := catalogue.files.insert path record
    directories := path.ancestors.foldl OrderedSet.add catalogue.directories }

def drop (catalogue : Catalogue) (path : Path) : Catalogue :=
  { catalogue with files := catalogue.files.erase path }

/-- Applies a mutation and answers the parent of its file. -/
def mutate (catalogue : Catalogue) (mutation : Mutation) : Except TreeError (Path × Catalogue) :=
  match Path.ofFile mutation.file with
  | .error cause => .error (.invalidPath mutation.file cause)
  | .ok path =>
      match mutation with
      | .upsert _ record => .ok (path.parentOfNonRoot, catalogue.store path record)
      | .remove file =>
          if path.parentOfNonRoot ∉ catalogue.directories then
            .error (.unknownDirectory path.parentOfNonRoot)
          else if path ∉ catalogue.files then .error (.unknownFile file)
          else .ok (path.parentOfNonRoot, catalogue.drop path)

/-- A bubble changes nothing here; it fails if it starts from no directory. -/
def bubble (catalogue : Catalogue) (path : Path) : Except BubbleError Unit :=
  if path ∈ catalogue.directories then .ok () else .error (.unknownDirectory path)

def perform (catalogue : Catalogue) : Request → Catalogue × Answer
  | .mutate mutation =>
      match catalogue.mutate mutation with
      | .ok (directory, updated) => (updated, .mutated (.ok directory))
      | .error cause => (catalogue, .mutated (.error cause))
  | .bubble _ path => (catalogue, .bubbled (catalogue.bubble path))
  | .bubbleDetached _ listener path =>
      (catalogue, .heard (if listener = .listening then [path] else []))
  | .recompute _ path => (catalogue, .bubbled (catalogue.bubble path))

theorem mem_foldl_add (paths : List Path) (set : OrderedSet Path) (path : Path) :
    path ∈ paths.foldl OrderedSet.add set ↔ path ∈ set ∨ path ∈ paths := by
  induction paths generalizing set with
  | nil => simp
  | cons first rest inductionHypothesis =>
      rw [List.foldl_cons, inductionHypothesis, OrderedSet.mem_add, List.mem_cons, or_assoc]
      exact or_left_comm

theorem mutate_cases {catalogue next : Catalogue} {mutation : Mutation} {directory : Path}
    (succeeded : catalogue.mutate mutation = .ok (directory, next)) :
    ∃ path, Path.ofFile mutation.file = .ok path ∧
      ((∃ file record, mutation = .upsert file record ∧ next = catalogue.store path record) ∨
        ∃ file, mutation = .remove file ∧ next = catalogue.drop path) := by
  unfold mutate at succeeded
  cases read : Path.ofFile mutation.file with
  | error cause =>
      rw [read] at succeeded
      cases succeeded
  | ok path =>
      rw [read] at succeeded
      cases mutation with
      | upsert file record =>
          cases succeeded
          exact ⟨path, rfl, Or.inl ⟨file, record, rfl, rfl⟩⟩
      | remove file =>
          dsimp only at succeeded
          split at succeeded
          · cases succeeded
          · split at succeeded
            · cases succeeded
            · cases succeeded
              exact ⟨path, rfl, Or.inr ⟨file, rfl, rfl⟩⟩

/-! ### The catalogue of a tree -/

/-- The catalogue says which directories a well-formed tree has and which files
these hold. -/
structure Describes (catalogue : Catalogue) (directories : Directories) : Prop where
  wellFormed : directories.WellFormed
  present : ∀ path, path ∈ directories ↔ path ∈ catalogue.directories
  valid : ∀ file ∈ catalogue.files, file.Valid ∧ file ≠ Path.root
  files : ∀ path name record, (directories.nodeAt path).files.get? name = some record ↔
    ∃ file, catalogue.files.get? file = some record ∧ file.parent = .ok path ∧
      file.name? = some name

namespace Describes

variable {catalogue next : Catalogue} {directories after : Directories} {path : Path}

protected theorem initial : Catalogue.initial.Describes Tree.fresh.directories where
  wellFormed := Tree.wellFormed_fresh
  present := by
    intro path
    have only : path ∈ Catalogue.initial.directories ↔ path = Path.root := by
      rw [Catalogue.initial, OrderedSet.mem_add]
      exact or_iff_left (OrderedMap.not_mem_empty path)
    rw [only]
    constructor
    · exact Tree.eq_root_of_mem_fresh
    · intro same
      rw [same]
      exact Tree.fresh.root_mem
  valid := fun file member => absurd member (OrderedMap.not_mem_empty file)
  files := by
    intro path name record
    have empty : Tree.fresh.directories.nodeAt path = Directory.empty := by
      rw [Directories.nodeAt, Tree.get?_fresh]
      split <;> rfl
    rw [empty]
    constructor
    · intro impossible
      cases impossible
    · rintro ⟨_, impossible, _⟩
      cases impossible

theorem of_agreeOn (describes : catalogue.Describes directories)
    (agree : directories.AgreeOn Directory.contents after) : catalogue.Describes after where
  wellFormed := describes.wellFormed.of_agreeOn (agree.comp Prod.snd)
  present := fun path => (agree.mem_iff path).symm.trans (describes.present path)
  valid := describes.valid
  files := by
    intro path name record
    rw [← describes.files, ← Directories.files_nodeAt_congr agree]

theorem mem_files_iff (describes : catalogue.Describes directories) (valid : path.Valid)
    {above : Path} {name : String} (step : path.parent = .ok above)
    (named : path.name? = some name) :
    name ∈ (directories.nodeAt above).files ↔ path ∈ catalogue.files := by
  rw [OrderedMap.mem_iff_get?, OrderedMap.mem_iff_get?]
  refine exists_congr fun record => ?_
  rw [describes.files]
  constructor
  · intro ⟨file, found, fileStep, fileNamed⟩
    have fileValid := (describes.valid file (OrderedMap.mem_of_get? found)).1
    rw [valid.eq_of_parent_of_name fileValid step fileStep named fileNamed]
    exact found
  · intro found
    exact ⟨path, found, step, named⟩

theorem answer_eq (describes : catalogue.Describes directories) (mutation : Mutation) :
    mutation.answer directories = (catalogue.mutate mutation).map Prod.fst := by
  unfold Mutation.answer mutate
  cases read : Path.ofFile mutation.file with
  | error cause =>
      rw [Path.splitFile_of_error read]
      rfl
  | ok path =>
      obtain ⟨valid, notRoot⟩ := Path.valid_of_ofFile read
      obtain ⟨name, named, placed⟩ := Path.splitFile_of_ok read
      rw [placed]
      cases mutation with
      | upsert file record => rfl
      | remove file =>
          have step := Path.parent_eq_ok_iff.mpr ⟨notRoot, rfl⟩
          simp only [describes.present, describes.mem_files_iff valid step named]
          split
          · rfl
          · split
            · rfl
            · rfl

private theorem of_mutated {mutation : Mutation} (describes : catalogue.Describes directories)
    (mutated : directories.Mutated mutation after) (wellFormed : after.WellFormed)
    (read : Path.ofFile mutation.file = .ok path)
    (files : ∀ file, next.files.get? file =
      if file = path then mutation.record? else catalogue.files.get? file)
    (present : ∀ other, other ∈ after ↔ other ∈ next.directories) : next.Describes after where
  wellFormed := wellFormed
  present := present
  valid := by
    intro file member
    obtain ⟨record, found⟩ := OrderedMap.mem_iff_get?.mp member
    rw [files] at found
    split at found
    · rename_i same
      rw [same]
      exact Path.valid_of_ofFile read
    · exact describes.valid file (OrderedMap.mem_of_get? found)
  files := by
    intro above name record
    have place : Path.splitFile mutation.file = .ok (above, name) ↔
        path.parent = .ok above ∧ path.name? = some name := by
      rw [Path.splitFile_eq_ok_iff, read]
      simp only [Except.ok.injEq, exists_eq_left']
    rw [mutated.files, if_congr place rfl rfl]
    simp only [files]
    split
    · rename_i here
      constructor
      · intro stored
        exact ⟨path, by rw [if_pos rfl]; exact stored, here⟩
      · intro ⟨file, found, fileStep, fileNamed⟩
        split at found
        · exact found
        -- another file would have to have the same parent and the same name
        · rename_i different
          have fileValid := (describes.valid file (OrderedMap.mem_of_get? found)).1
          have pathValid := (Path.valid_of_ofFile read).1
          exact absurd (fileValid.eq_of_parent_of_name pathValid fileStep here.1 fileNamed here.2)
            different
    · rename_i elsewhere
      rw [describes.files]
      refine exists_congr fun file => and_congr_left fun position => ?_
      have different : file ≠ path := by
        intro same
        rw [same] at position
        exact elsewhere position
      rw [if_neg different]

theorem store {file : String} {record : FileRecord} (describes : catalogue.Describes directories)
    (read : Path.ofFile file = .ok path)
    (mutated : directories.Mutated (.upsert file record) after) (wellFormed : after.WellFormed) :
    (catalogue.store path record).Describes after := by
  refine describes.of_mutated mutated wellFormed read ?_ fun other => ?_
  · exact fun other => OrderedMap.get?_insert _ _ _ _
  · obtain ⟨name, _, placed⟩ := Path.splitFile_of_ok read
    have lacking : Mutation.lacking directories (.upsert file record) =
        directories.missing path.parentOfNonRoot.chain := by
      rw [Mutation.lacking, placed]
    have above : path.ancestors = path.parentOfNonRoot.chain :=
      Path.ancestors_of_ne_root (Path.valid_of_ofFile read).2
    rw [mutated.present, lacking, Catalogue.store, mem_foldl_add, above, describes.present,
      Directories.mem_missing_iff]
    constructor
    · exact fun position => position.imp_right And.left
    · intro position
      rcases position with old | inChain
      · exact Or.inl old
      -- what is above a directory that is there is there already, so what is not
      -- there is missing
      · by_cases old : other ∈ catalogue.directories
        · exact Or.inl old
        · refine Or.inr ⟨inChain, fun lower _ inLower lowerPresent => old ?_⟩
          rw [← describes.present]
          exact describes.wellFormed.ancestors lowerPresent inLower

theorem drop {file : String} (describes : catalogue.Describes directories)
    (read : Path.ofFile file = .ok path)
    (mutated : directories.Mutated (.remove file) after) (wellFormed : after.WellFormed) :
    (catalogue.drop path).Describes after := by
  refine describes.of_mutated mutated wellFormed read ?_ fun other => ?_
  · exact fun other => OrderedMap.get?_erase _ _ _
  · rw [mutated.present, Catalogue.drop, ← describes.present]
    exact or_iff_left List.not_mem_nil

theorem mutate {mutation : Mutation} {directory : Path}
    (describes : catalogue.Describes directories)
    (succeeded : catalogue.mutate mutation = .ok (directory, next))
    (mutated : directories.Mutated mutation after) (wellFormed : after.WellFormed) :
    next.Describes after := by
  obtain ⟨path, read, ⟨file, record, rfl, rfl⟩ | ⟨file, rfl, rfl⟩⟩ := mutate_cases succeeded
  · exact describes.store read mutated wellFormed
  · exact describes.drop read mutated wellFormed

theorem obstacle?_eq (describes : catalogue.Describes directories) (path : Path) :
    directories.obstacle? path =
      if path ∈ catalogue.directories then none else some (.unknownDirectory path) := by
  by_cases member : path ∈ directories
  · rw [if_pos ((describes.present path).mp member)]
    exact describes.wellFormed.obstacle?_eq_none member
  · rw [if_neg (mt (describes.present path).mpr member)]
    exact Directories.obstacle?_of_not_mem member

theorem outcome_eq (describes : catalogue.Describes directories) (path : Path) :
    directories.outcome path = catalogue.bubble path := by
  unfold bubble
  by_cases member : path ∈ directories
  · rw [if_pos ((describes.present path).mp member)]
    exact describes.wellFormed.outcome_eq member
  · rw [if_neg (mt (describes.present path).mpr member)]
    exact (Directories.reach_outcome_of_not_mem member).2

/-! ### Requests -/

variable {tree : Tree}

theorem refused {mutation : Mutation} {cause : TreeError}
    (describes : catalogue.Describes tree.directories)
    (refused : Workspace.Refused tree mutation cause) : catalogue.mutate mutation = .error cause := by
  have answered := describes.answer_eq mutation
  rw [refused.answer] at answered
  cases result : catalogue.mutate mutation with
  | error other =>
      rw [result] at answered
      cases answered
      rfl
  | ok outcome =>
      rw [result] at answered
      cases answered

theorem performed {mutation : Mutation} {directory : Path} {updated : Tree}
    (describes : catalogue.Describes tree.directories)
    (performed : Workspace.Performed tree mutation directory updated) :
    ∃ next, catalogue.mutate mutation = .ok (directory, next) ∧
      next.Describes updated.directories := by
  have answered := describes.answer_eq mutation
  rw [performed.answer] at answered
  cases result : catalogue.mutate mutation with
  | error other =>
      rw [result] at answered
      cases answered
  | ok outcome =>
      obtain ⟨_, next⟩ := outcome
      have touched := Workspace.touched_of_mutateTree performed.value
      have wellFormed := touched.wellFormed describes.wellFormed
      have describesNext := describes.mutate result performed.mutated wellFormed
      rw [result] at answered
      cases answered
      exact ⟨next, rfl, describesNext⟩

private theorem perform_mutate (describes : catalogue.Describes tree.directories)
    (mutation : Mutation) :
    (tree.perform (.mutate mutation)).2 = (catalogue.perform (.mutate mutation)).2 ∧
      (catalogue.perform (.mutate mutation)).1.Describes
        (tree.perform (.mutate mutation)).1.directories := by
  unfold Tree.perform Catalogue.perform
  rcases Workspace.refused_or_performed tree mutation with
    ⟨cause, refused⟩ | ⟨directory, updated, performed⟩
  · simp only [refused.value, describes.refused refused]
    exact ⟨trivial, describes⟩
  · obtain ⟨next, result, describesNext⟩ := describes.performed performed
    simp only [performed.value, result]
    exact ⟨trivial, describesNext⟩

private theorem perform_recompute (describes : catalogue.Describes tree.directories)
    (now : UInt64) (path : Path) :
    (tree.perform (.recompute now path)).2 = (catalogue.perform (.recompute now path)).2 ∧
      catalogue.Describes (tree.perform (.recompute now path)).1.directories := by
  unfold Tree.perform Catalogue.perform bubble
  have obstacle := describes.obstacle?_eq path
  cases result : (tree.recompute now path).value with
  | ok updated =>
      have recomputed := Tree.recomputed_of_ok result
      rw [recomputed.clear] at obstacle
      split at obstacle
      · rename_i member
        simp only [result, if_pos member]
        exact ⟨trivial, describes.of_agreeOn recomputed.contents⟩
      · cases obstacle
  | error error =>
      rw [Tree.obstacle_of_error result] at obstacle
      split at obstacle
      · cases obstacle
      · rename_i absent
        cases obstacle
        simp only [result, if_neg absent]
        exact ⟨trivial, describes⟩

/-- A request is answered as the catalogue says, and the catalogue afterwards is
that of the tree afterwards. -/
theorem perform (describes : catalogue.Describes tree.directories) (request : Request) :
    (tree.perform request).2 = (catalogue.perform request).2 ∧
      (catalogue.perform request).1.Describes (tree.perform request).1.directories := by
  cases request with
  | mutate mutation => exact describes.perform_mutate mutation
  | bubble clock path =>
      obtain ⟨settled, _, result⟩ := tree.value_bubbleFrom clock path
      refine ⟨?_, describes.of_agreeOn settled.contents⟩
      exact congrArg Answer.bubbled (result.trans (describes.outcome_eq path))
  | bubbleDetached clock listener path =>
      have settled := (tree.value_bubbleFrom clock path).1
      rw [← Tree.value_bubbleDetached clock listener] at settled
      refine ⟨?_, describes.of_agreeOn settled.contents⟩
      exact congrArg Answer.heard (Tree.heard_bubbleDetached clock listener tree path)
  | recompute now path => exact describes.perform_recompute now path

theorem performAll (requests : List Request) (describes : catalogue.Describes tree.directories) :
    (Request.performAll Tree.perform tree requests).2 =
        (Request.performAll Catalogue.perform catalogue requests).2 ∧
      (Request.performAll Catalogue.perform catalogue requests).1.Describes
        (Request.performAll Tree.perform tree requests).1.directories := by
  induction requests generalizing catalogue tree with
  | nil => exact ⟨rfl, describes⟩
  | cons request rest inductionHypothesis =>
      obtain ⟨answer, next⟩ := describes.perform request
      obtain ⟨answers, final⟩ := inductionHypothesis next
      exact ⟨congrArg₂ List.cons answer answers, final⟩

theorem node (describes : catalogue.Describes directories) {node : Directory}
    (found : directories.get? path = some node) :
    (∀ name record, node.files.get? name = some record ↔
        ∃ file, catalogue.files.get? file = some record ∧ file.parent = .ok path ∧
          file.name? = some name) ∧
      ∀ name, name ∈ node.subdirs ↔ ∃ child ∈ catalogue.directories, path.join name = .ok child := by
  constructor
  · intro name record
    rw [← describes.files, Directories.nodeAt_of_get? found]
  · intro name
    rw [describes.wellFormed.listed path node found]
    simp only [describes.present]

theorem parent_present (describes : catalogue.Describes directories) {file : Path}
    (member : file ∈ catalogue.files) :
    ∃ above ∈ catalogue.directories, file.parent = .ok above := by
  obtain ⟨_, notRoot⟩ := describes.valid file member
  obtain ⟨record, found⟩ := OrderedMap.mem_iff_get?.mp member
  obtain ⟨name, named⟩ := Path.exists_name? notRoot
  have step := Path.parent_eq_ok_iff.mpr ⟨notRoot, rfl⟩
  refine ⟨file.parentOfNonRoot, ?_, step⟩
  rw [← describes.present]
  by_contra absent
  have stored := (describes.files _ name record).mpr ⟨file, found, step, named⟩
  rw [Directories.nodeAt_of_not_mem absent] at stored
  cases stored

end Describes

end Catalogue

/-- Whatever is asked of a fresh tree, it answers as the catalogue does, has its
directories, and keeps each of its files, and no other, in the directory of its
parent under its name; a directory lists the subdirectories that are there. -/
theorem Tree.answers_as_catalogue (requests : List Request) :
    let (tree, answers) := Request.performAll Tree.perform Tree.fresh requests
    let (catalogue, expected) := Request.performAll Catalogue.perform Catalogue.initial requests
    answers = expected ∧
      (∀ path, path ∈ tree.directories ↔ path ∈ catalogue.directories) ∧
      (∀ path node, tree.directories.get? path = some node →
        (∀ name record, node.files.get? name = some record ↔
            ∃ file, catalogue.files.get? file = some record ∧ file.parent = .ok path ∧
              file.name? = some name) ∧
          ∀ name, name ∈ node.subdirs ↔
            ∃ child ∈ catalogue.directories, path.join name = .ok child) ∧
      ∀ file ∈ catalogue.files,
        file.Valid ∧ ∃ above ∈ catalogue.directories, file.parent = .ok above := by
  obtain ⟨answers, describes⟩ := Catalogue.Describes.initial.performAll requests
  refine ⟨answers, describes.present, fun path node found => describes.node found, ?_⟩
  exact fun file member => ⟨(describes.valid file member).1, describes.parent_present member⟩

end Rollup

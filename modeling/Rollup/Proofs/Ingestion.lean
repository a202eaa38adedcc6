/-
A batch of mutations ingested by several workers.

Each mutation first changes the tree and then, in a step of its own, tracks the
directory of its file; the steps of different mutations come in any order.  When
no two mutations name the same file, whether one of them succeeds is decided by
the tree at the start, and what is in the tree in the end by which of them
succeed: the directories that these lack at the start are created, whichever of
them comes first.
-/

import Mathlib.Logic.Relation
import Rollup.Proofs.Placement

namespace Rollup

/-! ### Mutations of different files -/

namespace Mutation

/-- The two do not name the same file. -/
def Apart (left right : Mutation) : Prop :=
  ∀ path, Path.ofFile left.file = .ok path → Path.ofFile right.file ≠ .ok path

variable {left right : Mutation}

instance (left right : Mutation) : Decidable (left.Apart right) :=
  match read : Path.ofFile left.file with
  | .error _ => isTrue fun path found => by rw [read] at found; cases found
  | .ok path =>
      decidable_of_iff (Path.ofFile right.file ≠ .ok path) <| by
        unfold Apart
        rw [read]
        simp only [Except.ok.injEq, forall_eq']

theorem Apart.symm (apart : left.Apart right) : right.Apart left :=
  fun path rightRead leftRead => apart path leftRead rightRead

theorem Apart.place_ne (apart : left.Apart right) {path : Path} {name : String}
    (placed : Path.splitFile left.file = .ok (path, name)) :
    Path.splitFile right.file ≠ .ok (path, name) := by
  intro rightPlaced
  obtain ⟨leftPath, leftRead, leftParent, leftName⟩ := Path.splitFile_eq_ok_iff.mp placed
  obtain ⟨rightPath, rightRead, rightParent, rightName⟩ := Path.splitFile_eq_ok_iff.mp rightPlaced
  have same : leftPath = rightPath :=
    (Path.valid_of_ofFile leftRead).1.eq_of_parent_of_name (Path.valid_of_ofFile rightRead).1
      leftParent rightParent leftName rightName
  rw [← same] at rightRead
  exact apart leftPath leftRead rightRead

end Mutation

namespace Directories

/-- One of the mutations lacked this directory at the start. -/
def Creates (before : Directories) (done : List Mutation) (path : Path) : Prop :=
  ∃ mutation ∈ done, path ∈ mutation.lacking before

/-- These mutations of different files, in some order, are all that happened. -/
structure Applied (before : Directories) (done : List Mutation) (after : Directories) : Prop where
  present : ∀ path, path ∈ after ↔ path ∈ before ∨ before.Creates done path
  placed : ∀ mutation ∈ done, ∀ path name, Path.splitFile mutation.file = .ok (path, name) →
    (after.nodeAt path).files.get? name = mutation.record?
  kept : ∀ path name,
    (∀ mutation ∈ done, Path.splitFile mutation.file ≠ .ok (path, name)) →
      (after.nodeAt path).files.get? name = (before.nodeAt path).files.get? name
  totals : ∀ path, (after.nodeAt path).totals = (before.nodeAt path).totals
  listed : ∀ path name, name ∈ (after.nodeAt path).subdirs ↔
    name ∈ (before.nodeAt path).subdirs ∨
      ∃ child, before.Creates done child ∧ child.parent = .ok path ∧ child.name? = some name

namespace Applied

variable {before middle after : Directories} {done other : List Mutation} {mutation : Mutation}

protected theorem refl (directories : Directories) : Applied directories [] directories where
  present := fun path => by simp [Creates]
  placed := List.forall_mem_nil _
  kept := fun _ _ _ => rfl
  totals := fun _ => rfl
  listed := fun path name => by simp [Creates]

theorem congr (applied : Applied before done after)
    (same : ∀ mutation, mutation ∈ done ↔ mutation ∈ other) : Applied before other after where
  present := by simpa only [Creates, same] using applied.present
  placed := by simpa only [same] using applied.placed
  kept := by simpa only [same] using applied.kept
  totals := applied.totals
  listed := by simpa only [Creates, same] using applied.listed

theorem unique (applied : Applied before done middle) (also : Applied before done after) :
    middle = after := by
  refine ext_nodeAt (fun path => (applied.present path).trans (also.present path).symm) ?_
  intro path
  have files : (middle.nodeAt path).files = (after.nodeAt path).files := by
    refine OrderedMap.ext_get? fun name => ?_
    by_cases addressed : ∃ mutation ∈ done, Path.splitFile mutation.file = .ok (path, name)
    · obtain ⟨mutation, member, place⟩ := addressed
      rw [applied.placed mutation member path name place, also.placed mutation member path name place]
    · have elsewhere : ∀ mutation ∈ done, Path.splitFile mutation.file ≠ .ok (path, name) :=
        fun mutation member place => addressed ⟨mutation, member, place⟩
      rw [applied.kept path name elsewhere, also.kept path name elsewhere]
  have subdirs : (middle.nodeAt path).subdirs = (after.nodeAt path).subdirs :=
    OrderedSet.ext_mem fun name => (applied.listed path name).trans (also.listed path name).symm
  have totals := (applied.totals path).trans (also.totals path).symm
  exact Directory.ext files subdirs totals

/-- A directory that a mutation lacked at the start and does not lack any more
was created on the way of another one, as everything above it. -/
theorem creates_or_lacking_iff (applied : Applied before done middle) (path : Path) :
    before.Creates done path ∨ path ∈ mutation.lacking middle ↔
      before.Creates (mutation :: done) path := by
  have cons : before.Creates (mutation :: done) path ↔
      path ∈ mutation.lacking before ∨ before.Creates done path := by
    simp only [Creates, List.mem_cons, exists_eq_or_imp]
  rw [cons]
  constructor
  · intro origin
    rcases origin with created | lacked
    · exact Or.inr created
    · obtain ⟨onWay, absent⟩ := Mutation.mem_lacking_iff.mp lacked
      refine Or.inl (Mutation.mem_lacking_iff.mpr ⟨onWay, fun lower lowerOnWay below old => ?_⟩)
      exact absent lower lowerOnWay below ((applied.present lower).mpr (Or.inl old))
  · intro origin
    rcases origin with lacked | created
    · by_cases stillLacked : path ∈ mutation.lacking middle
      · exact Or.inr stillLacked
      · obtain ⟨onWay, absent⟩ := Mutation.mem_lacking_iff.mp lacked
        rw [Mutation.mem_lacking_iff] at stillLacked
        push Not at stillLacked
        obtain ⟨lower, lowerOnWay, below, lowerPresent⟩ := stillLacked onWay
        have lowerNew := absent lower lowerOnWay below
        obtain ⟨earlier, member, lowerLacked⟩ :=
          ((applied.present lower).mp lowerPresent).resolve_left lowerNew
        obtain ⟨onOtherWay, otherAbsent⟩ := Mutation.mem_lacking_iff.mp lowerLacked
        refine Or.inl ⟨earlier, member, Mutation.mem_lacking_iff.mpr ⟨?_, ?_⟩⟩
        · exact Mutation.mem_way_of_mem_chain onOtherWay below
        -- on the way of the earlier mutation, what is below the lower directory
        -- was lacked by that one, and what is above it by this one
        · intro between betweenOnWay above
          rcases Mutation.mem_chain_or_mem_chain_of_mem_way betweenOnWay onOtherWay with
            higher | deeper
          · exact absent between (Mutation.mem_way_of_mem_chain lowerOnWay higher) above
          · exact otherAbsent between betweenOnWay deeper
    · exact Or.inl created

theorem mutated (applied : Applied before done middle)
    (apart : ∀ earlier ∈ done, mutation.Apart earlier) (mutated : middle.Mutated mutation after) :
    Applied before (mutation :: done) after where
  present := by
    intro path
    rw [mutated.present, applied.present, or_assoc, applied.creates_or_lacking_iff]
  placed := by
    intro addressed member path name place
    rw [mutated.files]
    rcases List.mem_cons.mp member with same | earlier
    · rw [same] at place ⊢
      exact if_pos place
    · rw [if_neg ((apart addressed earlier).symm.place_ne place)]
      exact applied.placed addressed earlier path name place
  kept := by
    intro path name elsewhere
    obtain ⟨here, earlier⟩ := List.forall_mem_cons.mp elsewhere
    rw [mutated.files, if_neg here]
    exact applied.kept path name earlier
  totals := fun path => (mutated.totals path).trans (applied.totals path)
  listed := by
    intro path name
    rw [mutated.listed, applied.listed, or_assoc]
    refine or_congr_right ?_
    simp only [← applied.creates_or_lacking_iff, or_and_right, exists_or]

/-- Mutations of other files do not decide whether a mutation succeeds. -/
theorem answer_eq_ok_iff (applied : Applied before done middle)
    (apart : ∀ earlier ∈ done, mutation.Apart earlier) (directory : Path) :
    mutation.answer middle = .ok directory ↔ mutation.answer before = .ok directory := by
  rw [Mutation.answer_eq_ok_iff, Mutation.answer_eq_ok_iff]
  refine exists_congr fun name => and_congr_right fun place => ?_
  have elsewhere : ∀ earlier ∈ done, Path.splitFile earlier.file ≠ .ok (directory, name) :=
    fun earlier member => (apart earlier member).place_ne place
  rw [OrderedMap.mem_iff_get?, applied.kept directory name elsewhere, ← OrderedMap.mem_iff_get?]

end Applied

end Directories

/-! ### Workers -/

theorem Tree.ext_directories {left right : Tree} (directories : left.directories = right.directories)
    (recomputations : left.recomputations = right.recomputations) : left = right := by
  cases left
  cases right
  cases directories
  cases recomputations
  rfl

/-- How far a mutation of the batch has come. -/
inductive Job where
  | waiting (mutation : Mutation)
  | tracking (mutation : Mutation) (directory : Path)
  | finished (mutation : Mutation) (result : Except IngestError Unit)

namespace Job

@[simp] def mutation : Job → Mutation
  | .waiting mutation => mutation
  | .tracking mutation _ => mutation
  | .finished mutation _ => mutation

@[simp] def applied? : Job → Option Mutation
  | .tracking mutation _ => some mutation
  | .finished mutation (.ok ()) => some mutation
  | _ => none

def result? : Job → Option (Except IngestError Unit)
  | .finished _ result => some result
  | _ => none

@[simp] def tracked? : Job → Option Path
  | .finished mutation (.ok ()) => (Path.splitFile mutation.file).toOption.map Prod.fst
  | _ => none

/-- The job has come this far in a tree that began with these directories. -/
inductive Follows (directories : Directories) : Job → Prop
  | waiting (mutation : Mutation) : Follows directories (.waiting mutation)
  | tracking {mutation : Mutation} {directory : Path}
      (succeeds : mutation.answer directories = .ok directory) :
      Follows directories (.tracking mutation directory)
  | succeeded {mutation : Mutation} {directory : Path}
      (succeeds : mutation.answer directories = .ok directory) :
      Follows directories (.finished mutation (.ok ()))
  | failed {mutation : Mutation} (error : IngestError)
      (fails : ∀ directory, mutation.answer directories ≠ .ok directory) :
      Follows directories (.finished mutation (.error error))

end Job

structure Ingestion where
  workspace : Workspace
  jobs : List Job

namespace Ingestion

/-- Some worker, whichever it is, takes its next step: it changes the tree, or
fails to, or it tracks the directory of the file it has changed. -/
inductive Step : Ingestion → Ingestion → Prop
  | refuse {workspace : Workspace} {mutation : Mutation} {cause : TreeError}
      {earlier later : List Job}
      (refused : (Workspace.mutateTree workspace.tree mutation).value = .error cause) :
      Step ⟨workspace, earlier ++ .waiting mutation :: later⟩
        ⟨workspace, earlier ++ .finished mutation (.error (.mutation mutation.file cause)) :: later⟩
  | mutate {tree updated : Tree} {tracker : Tracker} {mutation : Mutation} {directory : Path}
      {earlier later : List Job}
      (mutated : (Workspace.mutateTree tree mutation).value = .ok (directory, updated)) :
      Step ⟨⟨tree, tracker⟩, earlier ++ .waiting mutation :: later⟩
        ⟨⟨updated, tracker⟩, earlier ++ .tracking mutation directory :: later⟩
  | track {tree : Tree} {tracker extended : Tracker} {mutation : Mutation} {directory : Path}
      {result : Except TrackError Unit} {earlier later : List Job}
      (tracked : (tracker.add Refusals.none directory).value = (extended, result)) :
      Step ⟨⟨tree, tracker⟩, earlier ++ .tracking mutation directory :: later⟩
        ⟨⟨tree, extended⟩,
          earlier ++ .finished mutation (result.mapError (.tracking mutation.file)) :: later⟩

abbrev Runs : Ingestion → Ingestion → Prop := Relation.ReflTransGen Step

def start (workspace : Workspace) (batch : List Mutation) : Ingestion :=
  { workspace := workspace, jobs := batch.map Job.waiting }

def Finished (state : Ingestion) : Prop := ∀ job ∈ state.jobs, ∃ mutation result,
  job = .finished mutation result

/-- The jobs of a batch that began on a workspace have all ended in this state. -/
structure EndsIn (workspace : Workspace) (batch : List Mutation) (final : Ingestion) : Prop where
  runs : (start workspace batch).Runs final
  finished : final.Finished

def Succeeded (state : Ingestion) (mutation : Mutation) : Prop :=
  Job.finished mutation (.ok ()) ∈ state.jobs

def applied (state : Ingestion) : List Mutation := state.jobs.filterMap Job.applied?

def tracked (state : Ingestion) : List Path := state.jobs.filterMap Job.tracked?

/-- The results of the jobs that have ended, in the order of the batch. -/
def results (state : Ingestion) : List (Except IngestError Unit) :=
  state.jobs.filterMap Job.result?

theorem Step.map_mutation {before after : Ingestion} (step : Step before after) :
    after.jobs.map Job.mutation = before.jobs.map Job.mutation := by
  cases step <;> simp

theorem map_mutation_of_runs {before after : Ingestion} (runs : before.Runs after) :
    after.jobs.map Job.mutation = before.jobs.map Job.mutation := by
  induction runs with
  | refl => rfl
  | tail _ step inductionHypothesis => exact step.map_mutation.trans inductionHypothesis

/-! ### The invariant -/

/-- What holds at every moment of a batch of mutations of different files. -/
structure Consistent (initial : Workspace) (added : List Path) (batch : List Mutation)
    (state : Ingestion) : Prop where
  mutations : state.jobs.map Job.mutation = batch
  follows : ∀ job ∈ state.jobs, job.Follows initial.tree.directories
  applied : initial.tree.directories.Applied state.applied state.workspace.tree.directories
  recomputations : state.workspace.tree.recomputations = initial.tree.recomputations
  tracks : state.workspace.tracker.Tracks (state.tracked ++ added)

private theorem forall_replace {property : Job → Prop} {old new : Job} {earlier later : List Job}
    (all : ∀ job ∈ earlier ++ old :: later, property job) (here : property new) :
    ∀ job ∈ earlier ++ new :: later, property job := by
  obtain ⟨before, rest⟩ := List.forall_mem_append.mp all
  exact List.forall_mem_append.mpr
    ⟨before, List.forall_mem_cons.mpr ⟨here, (List.forall_mem_cons.mp rest).2⟩⟩

namespace Consistent

variable {initial : Workspace} {added : List Path} {batch : List Mutation}
variable {before after state : Ingestion}

protected theorem start (batch : List Mutation) (tracks : initial.tracker.Tracks added) :
    Consistent initial added batch (Ingestion.start initial batch) := by
  have none {α : Type} {view : Job → Option α} (waits : ∀ mutation, view (.waiting mutation) = none) :
      (Ingestion.start initial batch).jobs.filterMap view = [] := by
    rw [Ingestion.start, List.filterMap_map, List.filterMap_eq_nil_iff]
    exact fun mutation _ => waits mutation
  constructor
  · rw [Ingestion.start, List.map_map]
    exact List.map_id' batch
  · intro job member
    obtain ⟨mutation, _, same⟩ := List.mem_map.mp member
    rw [← same]
    exact .waiting mutation
  · rw [Ingestion.applied, none fun _ => rfl]
    exact .refl _
  · rfl
  · rw [Ingestion.tracked, none fun _ => rfl]
    exact tracks

private theorem apart_of_waiting {workspace : Workspace} {mutation : Mutation}
    {earlier later : List Job}
    (consistent : Consistent initial added batch
      ⟨workspace, earlier ++ .waiting mutation :: later⟩)
    (distinct : batch.Pairwise Mutation.Apart) :
    ∀ other ∈ Ingestion.applied ⟨workspace, earlier ++ .waiting mutation :: later⟩,
      mutation.Apart other := by
  have pairwise := consistent.mutations ▸ distinct
  rw [List.map_append, List.map_cons, List.pairwise_middle Mutation.Apart.symm,
    List.pairwise_cons] at pairwise
  intro other member
  obtain ⟨job, jobMember, isApplied⟩ := List.mem_filterMap.mp member
  have sameMutation : job.mutation = other := by
    unfold Job.applied? at isApplied
    split at isApplied
    · exact Option.some.inj isApplied
    · exact Option.some.inj isApplied
    · cases isApplied
  apply pairwise.1
  rw [← sameMutation, ← List.map_append]
  apply List.mem_map_of_mem
  rcases List.mem_cons.mp (List.perm_middle.mem_iff.mp jobMember) with isWaiting | elsewhere
  · rw [isWaiting] at isApplied
    cases isApplied
  · exact elsewhere

theorem step (consistent : Consistent initial added batch before)
    (distinct : batch.Pairwise Mutation.Apart) (step : Step before after) :
    Consistent initial added batch after := by
  have mutations := step.map_mutation.trans consistent.mutations
  cases step with
  | refuse failed =>
      -- What the others have applied so far does not change whether this mutation succeeds.
      have refused := Workspace.refused_of_error failed
      have apart := consistent.apart_of_waiting distinct
      constructor
      · exact mutations
      · refine forall_replace consistent.follows (.failed _ fun directory succeeds => ?_)
        rw [← consistent.applied.answer_eq_ok_iff apart, refused.answer] at succeeds
        cases succeeds
      · simpa [Ingestion.applied, List.filterMap_cons] using consistent.applied
      · exact consistent.recomputations
      · simpa [Ingestion.tracked, List.filterMap_cons] using consistent.tracks
  | mutate mutated =>
      have performed := Workspace.performed_of_ok mutated
      have apart := consistent.apart_of_waiting distinct
      constructor
      · exact mutations
      · refine forall_replace consistent.follows (.tracking ?_)
        rw [← consistent.applied.answer_eq_ok_iff apart]
        exact performed.answer
      · refine (consistent.applied.mutated apart performed.mutated).congr fun other => ?_
        simp [Ingestion.applied, or_left_comm]
      · exact performed.recomputations.trans consistent.recomputations
      · simpa [Ingestion.tracked, List.filterMap_cons] using consistent.tracks
  | @track tree tracker extended mutation directory result earlier later tracked =>
      have succeeded := tracker.add_succeeds directory
      have tracksNow := consistent.tracks.add directory
      rw [tracked] at succeeded tracksNow
      dsimp only at succeeded tracksNow
      subst succeeded
      have inside : Job.tracking mutation directory ∈ earlier ++ .tracking mutation directory :: later :=
        List.mem_append_right earlier List.mem_cons_self
      cases consistent.follows _ inside with
      | tracking succeeds =>
          obtain ⟨name, placed, _⟩ := Mutation.answer_eq_ok_iff.mp succeeds
          constructor
          · exact mutations
          · exact forall_replace consistent.follows (.succeeded succeeds)
          · simpa [Ingestion.applied, Except.mapError] using consistent.applied
          · exact consistent.recomputations
          · refine tracksNow.congr fun path => ?_
            simp [Ingestion.tracked, Except.mapError, placed, Except.toOption, or_left_comm]

theorem of_runs (consistent : Consistent initial added batch before)
    (distinct : batch.Pairwise Mutation.Apart) (runs : before.Runs after) :
    Consistent initial added batch after := by
  induction runs with
  | refl => exact consistent
  | tail _ step inductionHypothesis => exact inductionHypothesis.step distinct step

end Consistent

/-! ### The outcome -/

variable {initial : Workspace} {added : List Path} {batch other : List Mutation}
variable {state left right : Ingestion}

theorem mem_applied_iff (finished : state.Finished) (mutation : Mutation) :
    mutation ∈ state.applied ↔ state.Succeeded mutation := by
  unfold Ingestion.applied
  rw [List.mem_filterMap]
  constructor
  · intro ⟨job, member, isApplied⟩
    obtain ⟨of, result, same⟩ := finished job member
    rw [same] at isApplied member
    cases result with
    | ok _ =>
        cases isApplied
        exact member
    | error _ => cases isApplied
  · intro succeeded
    exact ⟨_, succeeded, rfl⟩

theorem mem_tracked_iff (state : Ingestion) (path : Path) :
    path ∈ state.tracked ↔ ∃ mutation name, state.Succeeded mutation ∧
      Path.splitFile mutation.file = .ok (path, name) := by
  unfold Ingestion.tracked
  rw [List.mem_filterMap]
  constructor
  · intro ⟨job, member, isTracked⟩
    unfold Job.tracked? at isTracked
    split at isTracked
    · rename_i mutation
      cases placed : Path.splitFile mutation.file with
      | error cause =>
          rw [placed] at isTracked
          cases isTracked
      | ok place =>
          rw [placed] at isTracked
          cases isTracked
          exact ⟨mutation, place.2, member, placed⟩
    · cases isTracked
  · intro ⟨mutation, name, succeeded, placed⟩
    refine ⟨_, succeeded, ?_⟩
    rw [Job.tracked?, placed]
    rfl

namespace Consistent

/-- The tree at the start decides which mutations succeed. -/
theorem succeeded_iff (consistent : Consistent initial added batch state)
    (finished : state.Finished) (mutation : Mutation) :
    state.Succeeded mutation ↔ mutation ∈ batch ∧
      ∃ directory, mutation.answer initial.tree.directories = .ok directory := by
  constructor
  · intro succeeded
    constructor
    · rw [← consistent.mutations]
      exact List.mem_map_of_mem succeeded
    · cases consistent.follows _ succeeded with
      | succeeded succeeds => exact ⟨_, succeeds⟩
  · intro ⟨member, directory, succeeds⟩
    rw [← consistent.mutations] at member
    obtain ⟨job, jobMember, isOf⟩ := List.mem_map.mp member
    obtain ⟨_, _, same⟩ := finished job jobMember
    subst same
    cases isOf
    cases consistent.follows _ jobMember with
    | succeeded _ => exact jobMember
    | failed _ fails => exact absurd succeeds (fails directory)

theorem unique (leftConsistent : Consistent initial added batch left)
    (rightConsistent : Consistent initial added other right) (leftFinished : left.Finished)
    (rightFinished : right.Finished)
    (same : ∀ mutation, left.Succeeded mutation ↔ right.Succeeded mutation) :
    left.workspace = right.workspace := by
  have sameApplied : ∀ mutation, mutation ∈ right.applied ↔ mutation ∈ left.applied := by
    intro mutation
    rw [mem_applied_iff leftFinished, mem_applied_iff rightFinished, same]
  have sameTracked : ∀ path, path ∈ right.tracked ++ added ↔ path ∈ left.tracked ++ added := by
    intro path
    rw [List.mem_append, List.mem_append, mem_tracked_iff, mem_tracked_iff]
    simp only [same]
  have directories := leftConsistent.applied.unique (rightConsistent.applied.congr sameApplied)
  have tracker := leftConsistent.tracks.unique (rightConsistent.tracks.congr sameTracked)
  have recomputations := leftConsistent.recomputations.trans rightConsistent.recomputations.symm
  have tree := Tree.ext_directories directories recomputations
  calc left.workspace = ⟨left.workspace.tree, left.workspace.tracker⟩ := rfl
    _ = ⟨right.workspace.tree, right.workspace.tracker⟩ := by rw [tree, tracker]

end Consistent

/-! ### One mutation after the other -/

theorem runs_applyOne (workspace : Workspace) (mutation : Mutation) (earlier later : List Job) :
    Runs ⟨workspace, earlier ++ .waiting mutation :: later⟩
      ⟨(workspace.applyOne mutation).value.1,
        earlier ++ .finished mutation (workspace.applyOne mutation).value.2 :: later⟩ := by
  unfold Workspace.applyOne
  rw [Logged.value_bind]
  cases mutated : (Workspace.mutateTree workspace.tree mutation).value with
  | error cause => exact .single (.refuse mutated)
  | ok outcome =>
      obtain ⟨directory, updated⟩ := outcome
      refine .head (.mutate mutated) ?_
      dsimp only
      rw [Logged.value_bind]
      cases tracked : (workspace.tracker.add Refusals.none directory).value with
      | mk extended result =>
          have step : Step ⟨⟨updated, workspace.tracker⟩,
              earlier ++ .tracking mutation directory :: later⟩ _ := .track tracked
          cases result with
          | ok _ => exact .single step
          | error cause => exact .single step

theorem runs_applyEach (order : List Mutation) (workspace : Workspace) (earlier : List Job) :
    let outcome := (workspace.applyEach order).value
    Runs ⟨workspace, earlier ++ order.map Job.waiting⟩
      ⟨outcome.1,
        earlier ++ (order.zip outcome.2).map fun entry => .finished entry.1 entry.2⟩ := by
  induction order generalizing workspace earlier with
  | nil => exact .refl
  | cons mutation rest inductionHypothesis =>
      have first := runs_applyOne workspace mutation earlier (rest.map Job.waiting)
      have others := inductionHypothesis (workspace.applyOne mutation).value.1
        (earlier ++ [.finished mutation (workspace.applyOne mutation).value.2])
      simp only [List.append_assoc, List.singleton_append] at others
      exact first.trans others

theorem endsIn_applyEach (workspace : Workspace) (order : List Mutation) :
    let outcome := (workspace.applyEach order).value
    ∃ final, EndsIn workspace order final ∧ final.workspace = outcome.1 ∧
      final.results = outcome.2 ∧
      ∀ mutation, final.Succeeded mutation ↔ (mutation, .ok ()) ∈ order.zip outcome.2 := by
  intro outcome
  refine ⟨_, ⟨runs_applyEach order workspace [], ?_⟩, rfl, ?_, fun mutation => ?_⟩
  · intro job member
    obtain ⟨entry, _, same⟩ := List.mem_map.mp member
    exact ⟨entry.1, entry.2, same.symm⟩
  · have asLong : outcome.2.length ≤ order.length := (workspace.length_applyEach order).le
    unfold results
    rw [List.nil_append, List.filterMap_map]
    exact (congrFun List.filterMap_eq_map' _).trans (List.map_snd_zip asLong)
  · unfold Succeeded
    rw [List.nil_append, List.mem_map]
    constructor
    · intro ⟨⟨_, _⟩, member, same⟩
      cases same
      exact member
    · intro member
      exact ⟨_, member, rfl⟩

/-- When no two mutations of a batch name the same file, then on any tree and
whatever was tracked before, every order of the workers' steps, and every order
of applying the mutations one after the other, succeeds with the same mutations
and ends with the same tree and the same tracker. -/
theorem schedules_agree {workspace : Workspace} {batch : List Mutation} {final : Ingestion}
    (reachable : ∃ added, workspace.tracker = (Tracker.empty.addAll Refusals.none added).value.1)
    (distinct : batch.Pairwise Mutation.Apart) (ends : EndsIn workspace batch final)
    (order : List Mutation) (same : order.Perm batch) :
    (∀ other, EndsIn workspace order other →
        other.workspace = final.workspace ∧
          ∀ mutation, other.Succeeded mutation ↔ final.Succeeded mutation) ∧
      (workspace.applyEach order).value.1 = final.workspace ∧
      ∀ mutation, (mutation, .ok ()) ∈ order.zip (workspace.applyEach order).value.2 ↔
        final.Succeeded mutation := by
  obtain ⟨added, tracker⟩ := reachable
  have tracks : workspace.tracker.Tracks added := tracker ▸ Tracker.tracks_addAll added
  have distinctOrder := (same.pairwise_iff Mutation.Apart.symm).mpr distinct
  have consistent := (Consistent.start batch tracks).of_runs distinct ends.runs
  have agree : ∀ other, EndsIn workspace order other →
      other.workspace = final.workspace ∧
        ∀ mutation, other.Succeeded mutation ↔ final.Succeeded mutation := by
    intro other otherEnds
    have otherConsistent := (Consistent.start order tracks).of_runs distinctOrder otherEnds.runs
    have succeeded : ∀ mutation, other.Succeeded mutation ↔ final.Succeeded mutation := by
      intro mutation
      rw [otherConsistent.succeeded_iff otherEnds.finished,
        consistent.succeeded_iff ends.finished, same.mem_iff]
    exact ⟨otherConsistent.unique consistent otherEnds.finished ends.finished succeeded, succeeded⟩
  obtain ⟨sequential, sequentialEnds, workspaceEq, _, succeededIff⟩ :=
    endsIn_applyEach workspace order
  obtain ⟨sameWorkspace, sameSucceeded⟩ := agree sequential sequentialEnds
  refine ⟨agree, workspaceEq.symm.trans sameWorkspace, fun mutation => ?_⟩
  rw [← succeededIff, sameSucceeded]

/-- A decoded tree without the directory between the root and its only other
one. -/
theorem schedules_agree_malformed :
    let record : FileRecord := ⟨3, Binary64.nan, Binary64.one⟩
    let decoded := Tree.ofDirectories
      (OrderedMap.ofList [(⟨"a/b"⟩, Directory.empty.putFile "x" record)])
    let tracker := (Tracker.empty.addAll Refusals.none [⟨"a/b"⟩]).value.1
    let first := Mutation.upsert "a/c/d/f" record
    let second := Mutation.remove "/a/b/x"
    let third := Mutation.upsert "a/c/g/" record
    ∃ final, EndsIn ⟨decoded, tracker⟩ [first, second, third] final ∧
      (Workspace.applyEach ⟨decoded, tracker⟩ [third, first, second]).value.1 = final.workspace ∧
      final.Succeeded second := by
  intro record decoded tracker first second third
  obtain ⟨final, ends, _, _, _⟩ := endsIn_applyEach ⟨decoded, tracker⟩ [first, second, third]
  have distinct : [first, second, third].Pairwise Mutation.Apart := by decide
  have order : [third, first, second].Perm [first, second, third] := by decide
  obtain ⟨_, same, succeeded⟩ := schedules_agree ⟨[⟨"a/b"⟩], rfl⟩ distinct ends _ order
  have last : (second, .ok ()) ∈ [third, first, second].zip
      (Workspace.applyEach ⟨decoded, tracker⟩ [third, first, second]).value.2 := by
    decide +kernel
  exact ⟨final, ends, same, (succeeded second).mp last⟩

end Ingestion

end Rollup

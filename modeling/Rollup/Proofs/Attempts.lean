/-
Every mutation of a batch is tried.

The mutations are tried in the order of the batch, each in the workspace that the
earlier ones left, whether these succeeded or not.  A mutation that fails leaves the
workspace alone; one that succeeds has the directory of its file added to the tracker.
The batch answers its length, or the failure of the first mutation that failed, and
reports each failure by one warning.
-/

import Rollup.Proofs.Batches

namespace Rollup

/-! ### Steps that do not warn -/

namespace Logged

/-- All notices of a step are of the debug level. -/
def Quiet {α : Type} (step : Logged α) : Prop := ∀ notice ∈ step.notices, notice.level = .debug

namespace Quiet

variable {α β : Type}

theorem pure (value : α) : Quiet (Pure.pure value) := List.forall_mem_nil _

theorem note {notice : Notice} (debug : notice.level = .debug) : (Logged.note notice).Quiet :=
  List.forall_mem_singleton.mpr debug

theorem bind {step : Logged α} {next : α → Logged β} (first : step.Quiet)
    (second : (next step.value).Quiet) : (step >>= next).Quiet := by
  intro notice member
  rcases List.mem_append.mp member with early | late
  · exact first notice early
  · exact second notice late

end Quiet

def warnings {α : Type} (step : Logged α) : List Notice :=
  step.notices.filter fun notice => notice.level = .warn

theorem warnings_bind {α β : Type} (step : Logged α) (next : α → Logged β) :
    (step >>= next).warnings = step.warnings ++ (next step.value).warnings :=
  List.filter_append _ _

theorem Quiet.warnings_eq_nil {α : Type} {step : Logged α} (quiet : step.Quiet) :
    step.warnings = [] := by
  apply List.filter_eq_nil_iff.mpr
  intro notice member
  rw [quiet notice member]
  decide

end Logged

open Logged (Quiet)

namespace Tracker

theorem quiet_cover (tracker : Tracker) (ancestor : Path) : (tracker.cover ancestor).Quiet := by
  intro notice member
  unfold cover at member
  dsimp only at member
  split at member
  · rw [List.mem_singleton.mp member]
    rfl
  · cases member

theorem quiet_coverAll (reached : List Path) (tracker : Tracker) :
    (tracker.coverAll reached).Quiet := by
  induction reached generalizing tracker with
  | nil => exact Quiet.pure tracker
  | cons ancestor rest inductionHypothesis =>
      exact Quiet.bind (tracker.quiet_cover ancestor) (inductionHypothesis _)

theorem quiet_add (refusals : Refusals) (tracker : Tracker) (path : Path) :
    (tracker.add refusals path).Quiet := by
  unfold add
  split
  · exact Quiet.pure _
  · refine Quiet.bind (Quiet.note rfl) (Quiet.bind (quiet_coverAll _ _) ?_)
    split <;> exact Quiet.pure _

end Tracker

namespace Tree

theorem quiet_upsertFile (tree : Tree) (file : String) (record : FileRecord) :
    (tree.upsertFile file record).Quiet := by
  unfold upsertFile
  split
  · exact Quiet.pure _
  · intro notice member
    rcases List.mem_append.mp member with created | stored
    · obtain ⟨directory, _, same⟩ := List.mem_map.mp created
      rw [← same]
      rfl
    · rw [List.mem_singleton.mp stored]
      rfl

theorem quiet_removeFile (tree : Tree) (file : String) : (tree.removeFile file).Quiet := by
  unfold removeFile
  split
  · exact Quiet.pure _
  · split
    · exact Quiet.pure _
    · split
      · intro notice member
        rw [List.mem_singleton.mp member]
        rfl
      · exact Quiet.pure _

end Tree

namespace Workspace

theorem quiet_mutateTree (tree : Tree) (mutation : Mutation) : (mutateTree tree mutation).Quiet := by
  cases mutation with
  | upsert file record => exact tree.quiet_upsertFile file record
  | remove file => exact tree.quiet_removeFile file

theorem quiet_applyOne (workspace : Workspace) (mutation : Mutation) :
    (workspace.applyOne mutation).Quiet := by
  unfold applyOne
  refine Quiet.bind (quiet_mutateTree _ _) ?_
  split
  · exact Quiet.pure _
  · exact Quiet.bind (Tracker.quiet_add _ _ _) (Quiet.pure _)

theorem quiet_applyEach (mutations : List Mutation) (workspace : Workspace) :
    (workspace.applyEach mutations).Quiet := by
  induction mutations generalizing workspace with
  | nil => exact Quiet.pure _
  | cons mutation rest inductionHypothesis =>
      exact Quiet.bind (workspace.quiet_applyOne mutation)
        (Quiet.bind (inductionHypothesis _) (Quiet.pure _))

/-! ### Trying mutations -/

/-- A mutation that was tried, and the directory or the cause that the tree answered. -/
structure Attempt where
  mutation : Mutation
  answer : Except TreeError Path

namespace Attempt

/-- The directory that the tracker was told of. -/
def directory? (attempt : Attempt) : Option Path := attempt.answer.toOption

/-- The failure that the batch reports. -/
def failure? (attempt : Attempt) : Option IngestError :=
  match attempt.answer with
  | .ok _ => none
  | .error cause => some (.mutation attempt.mutation.file cause)

def result (attempt : Attempt) : Except IngestError Unit :=
  match attempt.failure? with
  | none => .ok ()
  | some error => .error error

theorem failure?_eq_some_iff {attempt : Attempt} {error : IngestError} :
    attempt.failure? = some error ↔
      ∃ cause, attempt.answer = .error cause ∧ error = .mutation attempt.mutation.file cause := by
  unfold failure?
  cases attempt.answer with
  | ok directory => simp
  | error cause => simp [eq_comm]

theorem failure?_eq_none_iff {attempt : Attempt} :
    attempt.failure? = none ↔ ∃ directory, attempt.answer = .ok directory := by
  unfold failure?
  cases attempt.answer <;> simp

theorem failure?_ne_tracking (attempt : Attempt) (file : String) (cause : TrackError) :
    attempt.failure? ≠ some (.tracking file cause) := by
  intro same
  obtain ⟨_, _, impossible⟩ := failure?_eq_some_iff.mp same
  cases impossible

/-- The failure of the first attempt that failed. -/
def firstFailure? (attempts : List Attempt) : Option IngestError := attempts.findSome? failure?

theorem firstFailure?_eq_none_iff {attempts : List Attempt} :
    firstFailure? attempts = none ↔
      ∀ attempt ∈ attempts, ∃ directory, attempt.answer = .ok directory := by
  rw [firstFailure?, List.findSome?_eq_none_iff]
  simp only [failure?_eq_none_iff]

theorem firstFailure?_eq_some_iff {attempts : List Attempt} {error : IngestError} :
    firstFailure? attempts = some error ↔
      ∃ earlier attempt later cause, attempts = earlier ++ attempt :: later ∧
        (∀ other ∈ earlier, ∃ directory, other.answer = .ok directory) ∧
        attempt.answer = .error cause ∧ error = .mutation attempt.mutation.file cause := by
  rw [firstFailure?, List.findSome?_eq_some_iff]
  simp only [failure?_eq_none_iff, failure?_eq_some_iff]
  constructor
  · intro ⟨earlier, attempt, later, split, ⟨cause, refused, same⟩, succeeded⟩
    exact ⟨earlier, attempt, later, cause, split, succeeded, refused, same⟩
  · intro ⟨earlier, attempt, later, cause, split, succeeded, refused, same⟩
    exact ⟨earlier, attempt, later, split, ⟨cause, refused, same⟩, succeeded⟩

end Attempt

/-- A mutation is tried: the tree refuses it and nothing changes, or the tree performs
it, answers the directory of its file, and the tracker accepts that directory. -/
inductive Tries : Workspace → Attempt → Workspace → Prop
  | refused {workspace : Workspace} {mutation : Mutation} {cause : TreeError}
      (refuses : (mutateTree workspace.tree mutation).value = .error cause) :
      Tries workspace ⟨mutation, .error cause⟩ workspace
  | performed {workspace : Workspace} {mutation : Mutation} {directory : Path} {name : String}
      {tree : Tree} {tracker : Tracker}
      (performs : (mutateTree workspace.tree mutation).value = .ok (directory, tree))
      (placed : Path.splitFile mutation.file = .ok (directory, name))
      (accepts : (workspace.tracker.add Refusals.none directory).value = (tracker, .ok ())) :
      Tries workspace ⟨mutation, .ok directory⟩ ⟨tree, tracker⟩

/-- Mutations are tried one after the other. -/
inductive TriesAll : Workspace → List Attempt → Workspace → Prop
  | nil (workspace : Workspace) : TriesAll workspace [] workspace
  | cons {before middle after : Workspace} {attempt : Attempt} {rest : List Attempt}
      (first : Tries before attempt middle) (others : TriesAll middle rest after) :
      TriesAll before (attempt :: rest) after

theorem tries_applyOne (workspace : Workspace) (mutation : Mutation) :
    ∃ attempt, attempt.mutation = mutation ∧
      Tries workspace attempt (workspace.applyOne mutation).value.1 ∧
      (workspace.applyOne mutation).value.2 = attempt.result := by
  unfold applyOne
  rw [Logged.value_bind]
  rcases refused_or_performed workspace.tree mutation with
    ⟨cause, refused⟩ | ⟨directory, updated, performed⟩
  · rw [refused.value]
    exact ⟨⟨mutation, .error cause⟩, rfl, .refused refused.value, rfl⟩
  · obtain ⟨name, placed, _⟩ := Mutation.answer_eq_ok_iff.mp performed.answer
    rw [performed.value]
    dsimp only
    rw [Logged.value_bind]
    have accepts : (workspace.tracker.add Refusals.none directory).value =
        ((workspace.tracker.add Refusals.none directory).value.1, .ok ()) :=
      Prod.ext rfl (workspace.tracker.add_succeeds directory)
    refine ⟨⟨mutation, .ok directory⟩, rfl, ?_, ?_⟩
    · exact .performed performed.value placed accepts
    · rw [accepts]
      rfl

theorem triesAll_applyEach (mutations : List Mutation) (workspace : Workspace) :
    ∃ attempts, attempts.map Attempt.mutation = mutations ∧
      TriesAll workspace attempts (workspace.applyEach mutations).value.1 ∧
      (workspace.applyEach mutations).value.2 = attempts.map Attempt.result := by
  induction mutations generalizing workspace with
  | nil => exact ⟨[], rfl, .nil workspace, rfl⟩
  | cons mutation rest inductionHypothesis =>
      obtain ⟨attempt, isFirst, first, result⟩ := workspace.tries_applyOne mutation
      obtain ⟨attempts, areOthers, others, results⟩ :=
        inductionHypothesis (workspace.applyOne mutation).value.1
      refine ⟨attempt :: attempts, ?_, .cons first others, ?_⟩
      · rw [List.map_cons, isFirst, areOthers]
      · rw [List.map_cons, ← result, ← results]
        rfl

/-- Trying mutations makes one add for each that succeeds, in their order. -/
theorem TriesAll.tracker_eq {before after : Workspace} {attempts : List Attempt}
    (triesAll : TriesAll before attempts after) :
    after.tracker =
      (before.tracker.addAll Refusals.none (attempts.filterMap Attempt.directory?)).value.1 := by
  have addAll_cons (tracker : Tracker) (directory : Path) (rest : List Path) :
      (tracker.addAll Refusals.none (directory :: rest)).value.1 =
        ((tracker.add Refusals.none directory).value.1.addAll Refusals.none rest).value.1 := rfl
  induction triesAll with
  | nil workspace => rfl
  | cons first _ inductionHypothesis =>
      rw [inductionHypothesis]
      cases first with
      | refused _ => rfl
      | performed _ _ accepts =>
          rw [List.filterMap_cons]
          dsimp only [Attempt.directory?, Except.toOption]
          rw [addAll_cons, accepts]

theorem applyEach_eq_foldl (mutations : List Mutation) (workspace : Workspace) :
    (workspace.applyEach mutations).value.1 =
      mutations.foldl (fun state mutation => (state.applyOne mutation).value.1) workspace := by
  induction mutations generalizing workspace with
  | nil => rfl
  | cons mutation rest inductionHypothesis =>
      exact inductionHypothesis (workspace.applyOne mutation).value.1

theorem failuresOf_results (attempts : List Attempt) :
    failuresOf (attempts.map Attempt.result) = attempts.filterMap Attempt.failure? := by
  induction attempts with
  | nil => rfl
  | cons attempt rest inductionHypothesis =>
      rw [List.map_cons, List.filterMap_cons, Attempt.result]
      cases attempt.failure? with
      | none => exact inductionHypothesis
      | some error => exact congrArg (error :: ·) inductionHypothesis

/-! ### Batches -/

theorem warnings_noteAll_failures (failures : List IngestError) :
    (Logged.noteAll (failures.map Notice.mutationFailed)).warnings =
      failures.map Notice.mutationFailed := by
  apply List.filter_eq_self.mpr
  intro notice member
  obtain ⟨error, _, same⟩ := List.mem_map.mp member
  rw [← same]
  rfl

theorem warnings_conclude (results : List (Except IngestError Unit)) :
    (conclude results).warnings = (failuresOf results).map Notice.mutationFailed := by
  unfold conclude
  rw [Logged.warnings_bind, warnings_noteAll_failures]
  -- behind the failures at most the success of the batch is reported
  refine (congrArg (_ ++ ·) ?_).trans (List.append_nil _)
  split <;> rfl

/-- The warnings of a batch are its failures, each reported once. -/
theorem warnings_applyBatch (workspace : Workspace) (mutations : List Mutation) :
    (workspace.applyBatch mutations).warnings =
      (failuresOf (workspace.applyEach mutations).value.2).map Notice.mutationFailed := by
  have dispatching : (Logged.note (.dispatchingMutations mutations.length)).warnings = [] := rfl
  unfold applyBatch
  rw [Logged.warnings_bind, dispatching, Logged.warnings_bind,
    (quiet_applyEach mutations workspace).warnings_eq_nil, List.nil_append, List.nil_append,
    Logged.warnings_bind, warnings_conclude]
  exact List.append_nil _

/-- A batch answers its length, or the first failure of its attempts. -/
def answerOf (attempts : List Attempt) : Except IngestError Nat :=
  match Attempt.firstFailure? attempts with
  | none => .ok attempts.length
  | some error => .error error

theorem answerOf_eq_ok_iff {attempts : List Attempt} {count : Nat} :
    answerOf attempts = .ok count ↔
      count = attempts.length ∧ Attempt.firstFailure? attempts = none := by
  unfold answerOf
  cases Attempt.firstFailure? attempts <;> simp [eq_comm]

theorem answerOf_eq_error_iff {attempts : List Attempt} {error : IngestError} :
    answerOf attempts = .error error ↔ Attempt.firstFailure? attempts = some error := by
  unfold answerOf
  cases Attempt.firstFailure? attempts <;> simp

/-- What a batch does is told by its attempts. -/
theorem exists_attempts (workspace : Workspace) (mutations : List Mutation) :
    ∃ attempts : List Attempt, attempts.map Attempt.mutation = mutations ∧
      TriesAll workspace attempts (workspace.applyBatch mutations).value.1 ∧
      (workspace.applyBatch mutations).value.2 = answerOf attempts ∧
      (workspace.applyBatch mutations).warnings =
        (attempts.filterMap Attempt.failure?).map Notice.mutationFailed := by
  obtain ⟨attempts, areMutations, triesAll, results⟩ := triesAll_applyEach mutations workspace
  have warnings := workspace.warnings_applyBatch mutations
  rw [results, failuresOf_results] at warnings
  refine ⟨attempts, areMutations, ?_, ?_, warnings⟩
  · rw [value_applyBatch]
    exact triesAll
  · rw [value_applyBatch, value_conclude, results, failuresOf_results, List.head?_filterMap,
      List.length_map]
    rfl

/-- All mutations of a batch are tried, in their order and each in what the earlier ones
left.  The batch answers its length exactly if all of them succeed, and otherwise what
the tree said to the first that failed; its warnings are the failures, one each.  No
directory is refused by the tracker. -/
theorem batch_tries_every_mutation (workspace : Workspace) (mutations : List Mutation) :
    let batch := workspace.applyBatch mutations
    ∃ attempts : List Attempt, attempts.map Attempt.mutation = mutations ∧
      TriesAll workspace attempts batch.value.1 ∧
      batch.value.1 =
        mutations.foldl (fun state mutation => (state.applyOne mutation).value.1) workspace ∧
      batch.value.1.tracker =
        (workspace.tracker.addAll Refusals.none (attempts.filterMap Attempt.directory?)).value.1 ∧
      (∀ count, batch.value.2 = .ok count ↔
        count = mutations.length ∧
          ∀ attempt ∈ attempts, ∃ directory, attempt.answer = .ok directory) ∧
      (∀ error, batch.value.2 = .error error ↔
        ∃ earlier attempt later cause, attempts = earlier ++ attempt :: later ∧
          (∀ other ∈ earlier, ∃ directory, other.answer = .ok directory) ∧
          attempt.answer = .error cause ∧ error = .mutation attempt.mutation.file cause) ∧
      batch.warnings = (attempts.filterMap Attempt.failure?).map Notice.mutationFailed ∧
      ∀ file cause, batch.value.2 ≠ .error (.tracking file cause) ∧
        .mutationFailed (.tracking file cause) ∉ batch.notices := by
  intro batch
  obtain ⟨attempts, areMutations, triesAll, answer, warnings⟩ :=
    workspace.exists_attempts mutations
  have final : batch.value.1 = (workspace.applyEach mutations).value.1 :=
    congrArg Prod.fst (workspace.value_applyBatch mutations)
  have length : mutations.length = attempts.length := by rw [← areMutations, List.length_map]
  refine ⟨attempts, areMutations, triesAll, ?_, triesAll.tracker_eq, ?_, ?_, warnings, ?_⟩
  · rw [final, applyEach_eq_foldl]
  · intro count
    rw [answer, answerOf_eq_ok_iff, Attempt.firstFailure?_eq_none_iff, length]
  · intro error
    rw [answer, answerOf_eq_error_iff, Attempt.firstFailure?_eq_some_iff]
  · intro file cause
    constructor
    · intro same
      rw [answer, answerOf_eq_error_iff] at same
      obtain ⟨attempt, _, found⟩ := List.exists_of_findSome?_eq_some same
      exact attempt.failure?_ne_tracking file cause found
    · intro reported
      have isWarning : Notice.mutationFailed (.tracking file cause) ∈ batch.warnings :=
        List.mem_filter.mpr ⟨reported, rfl⟩
      rw [warnings] at isWarning
      obtain ⟨error, isFailure, same⟩ := List.mem_map.mp isWarning
      cases same
      obtain ⟨attempt, _, found⟩ := List.mem_filterMap.mp isFailure
      exact attempt.failure?_ne_tracking file cause found

end Workspace

end Rollup

/-
What a dispatch calls and what it answers.

A tracker is used with any bubbler, and any call of it may fail.  A blocking refresh
makes one call for each child; the answers come in any order and are kept at the
places of their calls, and the failures are read off in a second pass over points
and answers side by side.  To see the calls, the bubbler is made to write them down.
The invariant of a refresh under way: what was written down are the places that have
an answer.
-/

import Mathlib.Data.List.Dedup
import Rollup.Proofs.Interleaving
import Rollup.Proofs.RefreshPoints

namespace Rollup

/-- The two kinds of bubbles: the first answers its result, the second the
completions that were heard. -/
structure Bubbler (σ : Type) where
  bubble : σ → Path → Logged (σ × Except BubbleError Unit)
  bubbleDetached : σ → Path → Logged (σ × List Path)

/-- The same bubble, which also writes down each call with its answer. -/
def recorded {σ α : Type} (bubble : σ → Path → Logged (σ × α)) (state : σ × List (Path × α))
    (path : Path) : Logged ((σ × List (Path × α)) × α) := do
  let (next, answer) ← bubble state.1 path
  pure ((next, state.2 ++ [(path, answer)]), answer)

theorem value_recorded {σ α : Type} (bubble : σ → Path → Logged (σ × α))
    (state : σ × List (Path × α)) (path : Path) :
    (recorded bubble state path).value =
      (((bubble state.1 path).value.1, state.2 ++ [(path, (bubble state.1 path).value.2)]),
        (bubble state.1 path).value.2) := rfl

namespace Tracker

/-! ### The second pass -/

section Failures

variable {points : List Path} {answers : List (Except BubbleError Unit)}

theorem mem_failuresOf_iff {failure : RefreshFailure} :
    failure ∈ failuresOf points answers ↔
      (failure.directory, .error failure.cause) ∈ points.zip answers := by
  induction points generalizing answers with
  | nil => simp [failuresOf]
  | cons path rest inductionHypothesis =>
      cases answers with
      | nil => simp [failuresOf]
      | cons answer others =>
          rw [List.zip_cons_cons, List.mem_cons]
          cases answer with
          | ok _ => simp [failuresOf, inductionHypothesis]
          | error cause =>
              have same : failure = { directory := path, cause := cause } ↔
                  failure.directory = path ∧ failure.cause = cause := by
                cases failure
                simp
              simp [failuresOf, inductionHypothesis, same]

theorem directories_failuresOf_sublist :
    List.Sublist ((failuresOf points answers).map RefreshFailure.directory) points := by
  induction points generalizing answers with
  | nil => simp [failuresOf]
  | cons path rest inductionHypothesis =>
      cases answers with
      | nil => simp [failuresOf]
      | cons answer others =>
          cases answer with
          | ok _ => exact inductionHypothesis.cons path
          | error cause => exact inductionHypothesis.cons_cons path

/-- The result of a blocking refresh, from the answers at the places of its points. -/
def conclude (points : List Path) (answers : List (Except BubbleError Unit)) :
    Except RefreshError Unit :=
  match failuresOf points answers with
  | [] => .ok ()
  | failures => .error { attempted := points.length, failures := failures }

theorem failuresOf_eq_nil_iff :
    failuresOf points answers = [] ↔ ∀ call ∈ points.zip answers, call.2 = .ok () := by
  rw [List.eq_nil_iff_forall_not_mem]
  constructor
  · intro none call member
    obtain ⟨path, answer⟩ := call
    cases answer with
    | ok _ => rfl
    | error cause => exact absurd (mem_failuresOf_iff.mpr member) (none ⟨path, cause⟩)
  · intro succeeded failure member
    cases succeeded _ (mem_failuresOf_iff.mp member)

theorem conclude_eq_ok_iff :
    conclude points answers = .ok () ↔ ∀ call ∈ points.zip answers, call.2 = .ok () := by
  rw [← failuresOf_eq_nil_iff]
  unfold conclude
  cases failuresOf points answers <;> simp

theorem conclude_eq_error_iff {error : RefreshError} :
    conclude points answers = .error error ↔
      failuresOf points answers ≠ [] ∧ error.attempted = points.length ∧
        error.failures = failuresOf points answers := by
  unfold conclude
  cases failuresOf points answers with
  | nil => simp
  | cons failure rest =>
      cases error
      simp [eq_comm]

end Failures

end Tracker

/-! ### Calls and their answers -/

/-- A blocking refresh under way: its calls in their places, each with its answer
as soon as there is one. -/
structure Gathering (σ : Type) where
  bubbler : σ
  places : List (Path × Option (Except BubbleError Unit))

namespace Gathering

variable {σ : Type} {bubble : σ → Path → Logged (σ × Except BubbleError Unit)}

def start (bubbler : σ) (points : List Path) : Gathering σ :=
  { bubbler := bubbler, places := points.map fun path => (path, none) }

/-- The bubbler answers one of the calls, whichever it is. -/
inductive Step (bubble : σ → Path → Logged (σ × Except BubbleError Unit)) :
    Gathering σ → Gathering σ → Prop
  | answer {bubbler : σ} {path : Path}
      {earlier later : List (Path × Option (Except BubbleError Unit))} :
      Step bubble ⟨bubbler, earlier ++ (path, none) :: later⟩
        ⟨(bubble bubbler path).value.1,
          earlier ++ (path, some (bubble bubbler path).value.2) :: later⟩

abbrev Runs (bubble : σ → Path → Logged (σ × Except BubbleError Unit)) :
    Gathering σ → Gathering σ → Prop :=
  Relation.ReflTransGen (Step bubble)

def points (gathering : Gathering σ) : List Path := gathering.places.map Prod.fst

def answers (gathering : Gathering σ) : List (Except BubbleError Unit) :=
  gathering.places.filterMap Prod.snd

def conclusion (gathering : Gathering σ) : Except RefreshError Unit :=
  Tracker.conclude gathering.points gathering.answers

def answered (gathering : Gathering σ) : List (Path × Except BubbleError Unit) :=
  gathering.places.filterMap fun place => place.2.map (place.1, ·)

def Finished (gathering : Gathering σ) : Prop :=
  ∀ place ∈ gathering.places, place.2.isSome = true

theorem Finished.answered_eq {gathering : Gathering σ} (finished : gathering.Finished) :
    gathering.answered = gathering.points.zip gathering.answers ∧
      gathering.answers.length = gathering.points.length := by
  obtain ⟨bubbler, places⟩ := gathering
  unfold Finished at finished
  unfold answered points answers
  dsimp only at finished ⊢
  induction places with
  | nil => exact ⟨rfl, rfl⟩
  | cons place rest inductionHypothesis =>
      obtain ⟨path, answer⟩ := place
      obtain ⟨here, later⟩ := List.forall_mem_cons.mp finished
      obtain ⟨result, rfl⟩ := Option.isSome_iff_exists.mp here
      obtain ⟨same, sameLength⟩ := inductionHypothesis later
      simp [same, sameLength]

theorem points_of_runs {first last : Gathering σ} (runs : Runs bubble first last) :
    last.points = first.points := by
  induction runs with
  | refl => rfl
  | tail _ step inductionHypothesis =>
      rw [← inductionHypothesis]
      cases step
      simp [points]

theorem written_of_runs {bubbler : σ} {points : List Path}
    {last : Gathering (σ × List (Path × Except BubbleError Unit))}
    (runs : Runs (recorded bubble) (start (bubbler, []) points) last) :
    last.bubbler.2.Perm last.answered := by
  induction runs with
  | refl =>
      have none : (start (bubbler, ([] : List (Path × Except BubbleError Unit))) points).answered =
          [] := by
        simp [start, answered]
      rw [none]
      exact List.Perm.nil
  | tail _ step inductionHypothesis =>
      cases step with
      | @answer state path earlier later =>
          simp only [answered, List.filterMap_append, List.filterMap_cons, Option.map_none,
            Option.map_some, value_recorded] at inductionHypothesis ⊢
          refine List.Perm.trans ?_ List.perm_middle.symm
          exact (List.perm_append_singleton _ _).trans (inductionHypothesis.cons _)

/-- Calling one point after the other is one of the ways to gather the answers. -/
theorem runs_bubbleEach (bubble : σ → Path → Logged (σ × Except BubbleError Unit))
    (starts : List Path) (earlier : List (Path × Option (Except BubbleError Unit))) (bubbler : σ) :
    ∃ places, Runs bubble ⟨bubbler, earlier ++ starts.map fun path => (path, none)⟩
        ⟨(Tracker.bubbleEach bubble starts bubbler).value.1, earlier ++ places⟩ ∧
      (∀ place ∈ places, place.2.isSome = true) ∧
      (Tracker.bubbleEach bubble starts bubbler).value.2 =
        Tracker.failuresOf (places.map Prod.fst) (places.filterMap Prod.snd) := by
  -- over the places still open; those before them are arbitrary
  induction starts generalizing earlier bubbler with
  | nil => exact ⟨[], .refl, List.forall_mem_nil _, rfl⟩
  | cons path rest inductionHypothesis =>
      let place := (path, some (bubble bubbler path).value.2)
      obtain ⟨places, runs, finished, failures⟩ :=
        inductionHypothesis (earlier ++ [place]) (bubble bubbler path).value.1
      simp only [List.append_assoc, List.singleton_append] at runs
      rw [Tracker.value_bubbleEach_cons, failures]
      exact ⟨place :: places, .head .answer runs, List.forall_mem_cons.mpr ⟨rfl, finished⟩, rfl⟩

theorem exists_runs_refreshBlocking (bubble : σ → Path → Logged (σ × Except BubbleError Unit))
    (tracker : Tracker) (bubbler : σ) :
    ∃ last, Runs bubble (start bubbler tracker.children.members) last ∧ last.Finished ∧
      (tracker.refreshBlocking bubble bubbler).value = (last.bubbler, last.conclusion) := by
  obtain ⟨places, runs, finished, failures⟩ :=
    runs_bubbleEach bubble tracker.children.members [] bubbler
  refine ⟨_, runs, finished, ?_⟩
  have samePoints : places.map Prod.fst = tracker.children.members := by
    have kept := points_of_runs runs
    simpa [points, Function.comp_def] using kept
  rw [Tracker.value_refreshBlocking, failures, samePoints]
  unfold conclusion points answers
  rw [List.nil_append, samePoints]
  rfl

/-- The calls and the result of a refresh are what its points call for: one call
for each, and the failures are those of the calls that failed. -/
structure Suits (points : List Path) (calls : List (Path × Except BubbleError Unit))
    (result : Except RefreshError Unit) : Prop where
  once : (calls.map Prod.fst).Perm points
  ok_iff : result = .ok () ↔ ∀ call ∈ calls, call.2 = .ok ()
  attempted : ∀ error, result = .error error → error.attempted = points.length
  distinct : ∀ error, result = .error error →
    (error.failures.map RefreshFailure.directory).Nodup
  failures : ∀ error, result = .error error → ∀ failure,
    failure ∈ error.failures ↔ (failure.directory, .error failure.cause) ∈ calls

theorem suits_of_runs {bubbler : σ} {points : List Path} (distinct : points.Nodup)
    {last : Gathering (σ × List (Path × Except BubbleError Unit))}
    (runs : Runs (recorded bubble) (start (bubbler, []) points) last) (finished : last.Finished) :
    Suits points last.bubbler.2 last.conclusion := by
  obtain ⟨same, length⟩ := finished.answered_eq
  have samePoints : last.points = points := by
    have kept := points_of_runs runs
    simpa [start, Gathering.points, Function.comp_def] using kept
  have written : last.bubbler.2.Perm (points.zip last.answers) := by
    rw [← samePoints, ← same]
    exact written_of_runs runs
  unfold conclusion
  rw [samePoints]
  rw [samePoints] at length
  constructor
  · rw [← List.map_fst_zip (Nat.le_of_eq length.symm)]
    exact written.map Prod.fst
  · simp only [Tracker.conclude_eq_ok_iff, written.mem_iff]
  · intro error failed
    exact (Tracker.conclude_eq_error_iff.mp failed).2.1
  · intro error failed
    rw [(Tracker.conclude_eq_error_iff.mp failed).2.2]
    exact distinct.sublist Tracker.directories_failuresOf_sublist
  · intro error failed failure
    rw [(Tracker.conclude_eq_error_iff.mp failed).2.2, Tracker.mem_failuresOf_iff,
      written.mem_iff]

end Gathering

/-! ### Detached dispatches -/

/-- Every detached dispatch calls each of its points once, in their order. -/
theorem written_of_bubbleEachDetached {σ : Type} (bubble : σ → Path → Logged (σ × List Path))
    (points : List Path) (bubbler : σ) (before : List (Path × List Path)) :
    ∃ calls, (Tracker.bubbleEachDetached (recorded bubble) points (bubbler, before)).value.1.2 =
        before ++ calls ∧ calls.map Prod.fst = points := by
  induction points generalizing bubbler before with
  | nil => exact ⟨[], (List.append_nil before).symm, rfl⟩
  | cons path rest inductionHypothesis =>
      obtain ⟨calls, written, same⟩ := inductionHypothesis (bubble bubbler path).value.1
        (before ++ [(path, (bubble bubbler path).value.2)])
      refine ⟨(path, (bubble bubbler path).value.2) :: calls, ?_, congrArg (path :: ·) same⟩
      rw [List.append_assoc, List.singleton_append] at written
      exact written

/-! ### Adds and dispatches in any order -/

structure Session (σ : Type) where
  tracker : Tracker
  bubbler : σ

namespace Session

variable {σ : Type}

/-- What was done to a tracker: a directory was added, or bubbles were dispatched,
with the calls that the bubbler wrote down. -/
inductive Event where
  | added (path : Path) (result : Except TrackError Unit)
  | refreshed (calls : List (Path × Except BubbleError Unit)) (result : Except RefreshError Unit)
  | dispatched (calls : List (Path × List Path))

def addedIn : List Event → List Path :=
  List.filterMap fun event =>
    match event with
    | .added path _ => some path
    | _ => none

/-- One operation.  A dispatch may list the children in any order, and the calls of
a blocking refresh may be answered in any order. -/
inductive Step (refusals : Refusals) (bubbler : Bubbler σ) :
    Session σ → Event → Session σ → Prop
  | add (session : Session σ) (path : Path) :
      Step refusals bubbler session (.added path (session.tracker.add refusals path).value.2)
        { session with tracker := (session.tracker.add refusals path).value.1 }
  | refresh {session : Session σ} {next : σ} {calls : List (Path × Except BubbleError Unit)}
      {result : Except RefreshError Unit}
      (outcome : (session.tracker.refreshBlocking (recorded bubbler.bubble)
        (session.bubbler, [])).value = ((next, calls), result)) :
      Step refusals bubbler session (.refreshed calls result) { session with bubbler := next }
  | refreshTogether {session : Session σ} {points : List Path}
      {last : Gathering (σ × List (Path × Except BubbleError Unit))}
      (order : points.Perm session.tracker.children.members)
      (runs : Gathering.Runs (recorded bubbler.bubble) (.start (session.bubbler, []) points) last)
      (finished : last.Finished) :
      Step refusals bubbler session (.refreshed last.bubbler.2 last.conclusion)
        { session with bubbler := last.bubbler.1 }
  | refreshDetached {session : Session σ} {next : σ} {calls : List (Path × List Path)}
      {heard : List Path}
      (outcome : (session.tracker.refreshDetached (recorded bubbler.bubbleDetached)
        (session.bubbler, [])).value = ((next, calls), heard)) :
      Step refusals bubbler session (.dispatched calls) { session with bubbler := next }
  | refreshDetachedInOrder {session : Session σ} {points : List Path} {next : σ}
      {calls : List (Path × List Path)} {heard : List Path}
      (order : points.Perm session.tracker.children.members)
      (outcome : (Tracker.bubbleEachDetached (recorded bubbler.bubbleDetached) points
        (session.bubbler, [])).value = ((next, calls), heard)) :
      Step refusals bubbler session (.dispatched calls) { session with bubbler := next }

inductive Runs (refusals : Refusals) (bubbler : Bubbler σ) :
    Session σ → List Event → Session σ → Prop
  | nil (session : Session σ) : Runs refusals bubbler session [] session
  | cons {first middle last : Session σ} {event : Event} {events : List Event}
      (step : Step refusals bubbler first event middle)
      (rest : Runs refusals bubbler middle events last) :
      Runs refusals bubbler first (event :: events) last

/-- The event is what a tracker with this content calls for.  A dispatch calls every
child once and nothing else; a blocking one succeeds when all calls did, and else it
tells how many children there are and, for each call that failed, its directory and
its error. -/
def Event.Suits (refusals : Refusals) (tracker : Tracker) : Event → Prop
  | .added path result => result = (tracker.add refusals path).value.2
  | .refreshed calls result =>
      (∀ path, (calls.map Prod.fst).count path = if path ∈ tracker.children then 1 else 0) ∧
        (result = .ok () ↔ ∀ call ∈ calls, call.2 = .ok ()) ∧
        ∀ error, result = .error error →
          error.attempted = tracker.childCount ∧
            (error.failures.map RefreshFailure.directory).Nodup ∧
            ∀ failure, failure ∈ error.failures ↔
              (failure.directory, .error failure.cause) ∈ calls
  | .dispatched calls =>
      ∀ path, (calls.map Prod.fst).count path = if path ∈ tracker.children then 1 else 0

section Steps

variable {refusals : Refusals} {bubbler : Bubbler σ} {first last : Session σ} {event : Event}

private theorem count_eq_of_perm {tracker : Tracker} {called : List Path}
    (order : called.Perm tracker.children.members) (path : Path) :
    called.count path = if path ∈ tracker.children then 1 else 0 := by
  rw [order.count_eq, (OrderedSet.nodup_members tracker.children).count]
  simp only [OrderedSet.mem_members_iff]

private theorem suits_refreshed {tracker : Tracker} {points : List Path}
    {calls : List (Path × Except BubbleError Unit)} {result : Except RefreshError Unit}
    (order : points.Perm tracker.children.members) (suits : Gathering.Suits points calls result) :
    (Event.refreshed calls result).Suits refusals tracker := by
  refine ⟨count_eq_of_perm (suits.once.trans order), suits.ok_iff, fun error failed => ?_⟩
  refine ⟨?_, suits.distinct error failed, suits.failures error failed⟩
  rw [suits.attempted error failed, order.length_eq]
  exact OrderedSet.length_members tracker.children

private theorem suits_dispatched {tracker : Tracker} {points : List Path} {state next : σ}
    {calls : List (Path × List Path)} {heard : List Path}
    (order : points.Perm tracker.children.members)
    (outcome : (Tracker.bubbleEachDetached (recorded bubbler.bubbleDetached) points
      (state, [])).value = ((next, calls), heard)) :
    (Event.dispatched calls).Suits refusals tracker := by
  obtain ⟨written, same, called⟩ :=
    written_of_bubbleEachDetached bubbler.bubbleDetached points state []
  rw [outcome, List.nil_append] at same
  dsimp only at same
  rw [← same] at called
  rw [← called] at order
  exact count_eq_of_perm order

theorem Step.suits (step : Step refusals bubbler first event last) :
    event.Suits refusals first.tracker := by
  cases step with
  | add path => rfl
  | @refresh next calls result outcome =>
      obtain ⟨final, runs, finished, value⟩ :=
        Gathering.exists_runs_refreshBlocking (recorded bubbler.bubble) first.tracker
          (first.bubbler, [])
      rw [outcome] at value
      have suits := Gathering.suits_of_runs (OrderedSet.nodup_members _) runs finished
      rw [← (Prod.mk.inj value).1, ← (Prod.mk.inj value).2] at suits
      exact suits_refreshed (List.Perm.refl _) suits
  | refreshTogether order runs finished =>
      have distinct := order.nodup_iff.mpr (OrderedSet.nodup_members _)
      exact suits_refreshed order (Gathering.suits_of_runs distinct runs finished)
  | refreshDetached outcome => exact suits_dispatched (List.Perm.refl _) outcome
  | refreshDetachedInOrder order outcome => exact suits_dispatched order outcome

/-- Only adds change the tracker. -/
theorem Step.tracker_eq (step : Step refusals bubbler first event last) :
    last.tracker = (first.tracker.addAll refusals (addedIn [event])).value.1 := by
  cases step <;> rfl

end Steps

/-- In any run of adds and dispatches, whatever the bubbler answers, the tracker is
what its adds alone come to, and every dispatch suits what the tracker holds at its
moment. -/
theorem dispatches_call_each_child_once {refusals : Refusals} {bubbler : Bubbler σ}
    {first last : Session σ} {events : List Event} (runs : Runs refusals bubbler first events last) :
    last.tracker = (first.tracker.addAll refusals (addedIn events)).value.1 ∧
      ∀ earlier event later, events = earlier ++ event :: later →
        event.Suits refusals (first.tracker.addAll refusals (addedIn earlier)).value.1 := by
  induction runs with
  | nil session =>
      refine ⟨rfl, fun earlier event later split => ?_⟩
      cases List.append_ne_nil_of_right_ne_nil earlier (List.cons_ne_nil event later) split.symm
  | @cons first middle last event events step rest inductionHypothesis =>
      obtain ⟨tracker, suits⟩ := inductionHypothesis
      rw [step.tracker_eq] at tracker suits
      have added (others : List Event) : addedIn (event :: others) =
          addedIn [event] ++ addedIn others :=
        List.filterMap_append (l := [event])
      refine ⟨?_, fun earlier other later split => ?_⟩
      · rw [added, Tracker.value_addAll_append]
        exact tracker
      · cases earlier with
        | nil =>
            cases split
            exact step.suits
        | cons next others =>
            cases split
            rw [added, Tracker.value_addAll_append]
            exact suits others other later rfl

/-- Two directories are added, the bubble of one of them fails, and a detached
dispatch calls both again. -/
theorem dispatches_call_each_child_once_failing :
    let failing : Bubbler Unit :=
      { bubble := fun _ path =>
          pure ((), if path = ⟨"a"⟩ then .error (.unknownDirectory path) else .ok ())
        bubbleDetached := fun _ path => pure ((), [path]) }
    let calls : List (Path × Except BubbleError Unit) :=
      [(⟨"a"⟩, .error (.unknownDirectory ⟨"a"⟩)), (⟨"b/c"⟩, .ok ())]
    let failed : RefreshError := ⟨2, [⟨⟨"a"⟩, .unknownDirectory ⟨"a"⟩⟩]⟩
    let events : List Event :=
      [.added ⟨"a"⟩ (.ok ()), .added ⟨"b/c"⟩ (.ok ()), .refreshed calls (.error failed),
        .dispatched [(⟨"a"⟩, [⟨"a"⟩]), (⟨"b/c"⟩, [⟨"b/c"⟩])]]
    ∃ last, Runs Refusals.none failing ⟨Tracker.empty, ()⟩ events last ∧
      last.tracker = (Tracker.empty.addAll Refusals.none [⟨"a"⟩, ⟨"b/c"⟩]).value.1 ∧
      (Event.refreshed calls (.error failed)).Suits Refusals.none last.tracker := by
  intro failing calls failed events
  -- a name for the tracker, so that comparing sessions does not compute it again
  obtain ⟨both, added⟩ : ∃ both,
      both = (Tracker.empty.addAll Refusals.none [⟨"a"⟩, ⟨"b/c"⟩]).value.1 := ⟨_, rfl⟩
  have refreshed : (both.refreshBlocking (recorded failing.bubble) ((), [])).value =
      (((), calls), .error failed) := by
    rw [added]
    rfl
  have dispatched : (both.refreshDetached (recorded failing.bubbleDetached) ((), [])).value =
      (((), [(⟨"a"⟩, [⟨"a"⟩]), (⟨"b/c"⟩, [⟨"b/c"⟩])]), [⟨"a"⟩, ⟨"b/c"⟩]) := by
    rw [added]
    rfl
  have addsBoth : Step Refusals.none failing
      ⟨(Tracker.empty.add Refusals.none ⟨"a"⟩).value.1, ()⟩ (.added ⟨"b/c"⟩ (.ok ()))
      ⟨both, ()⟩ := by
    rw [added]
    exact .add _ _
  have runs : Runs Refusals.none failing ⟨Tracker.empty, ()⟩ events ⟨both, ()⟩ :=
    .cons (.add _ _) (.cons addsBoth (.cons (.refresh refreshed)
      (.cons (.refreshDetached dispatched) (.nil _))))
  have first : addedIn [.added ⟨"a"⟩ (.ok ()), .added ⟨"b/c"⟩ (.ok ())] = [⟨"a"⟩, ⟨"b/c"⟩] := rfl
  have all : addedIn events = [⟨"a"⟩, ⟨"b/c"⟩] := rfl
  obtain ⟨same, suits⟩ := dispatches_call_each_child_once runs
  have here := suits [.added ⟨"a"⟩ (.ok ()), .added ⟨"b/c"⟩ (.ok ())] _ _ rfl
  rw [all] at same
  rw [first, ← same] at here
  exact ⟨_, runs, same, here⟩

end Session

end Rollup

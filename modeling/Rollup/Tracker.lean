/-
Refresh points of a batch of mutations.

A tracker keeps the touched directories from which a refresh has to start, the
children, and apart from them every directory that a refresh from a child
reaches on its way up, the parents.  Adding a directory moves its ancestors
from the children to the parents.

Finding a parent may be refused for some paths; the walk upwards then stops,
and what it did before stays.
-/

import Rollup.Notice

namespace Rollup

/-- Says for which paths the parent cannot be found, and why. -/
abbrev Refusals := Path → Option PathError

namespace Refusals

/-- No parent is refused. -/
def none : Refusals := fun _ => Option.none

end Refusals

structure Tracker where
  children : OrderedSet Path
  parents : OrderedSet Path

namespace Tracker

def empty : Tracker := { children := ∅, parents := ∅ }

instance : Inhabited Tracker := ⟨empty⟩

/-- The ancestors reached from the head of a chain before a parent is refused,
and the refusal if there is one. -/
def ascend (refusals : Refusals) : List Path → List Path × Option TrackError
  | current :: parent :: rest =>
      match refusals current with
      | some cause => ([], some (.malformedPath current cause))
      | none =>
          let (reached, refusal) := ascend refusals (parent :: rest)
          (parent :: reached, refusal)
  | _ => ([], none)

/-- Makes an ancestor a parent; it is no refresh point of its own any more. -/
def cover (tracker : Tracker) (ancestor : Path) : Logged Tracker :=
  { value :=
      { children := tracker.children.erase ancestor
        parents := tracker.parents.add ancestor }
    notices :=
      if tracker.children.contains ancestor then [.superseded ancestor] else [] }

def coverAll (tracker : Tracker) : List Path → Logged Tracker
  | [] => pure tracker
  | ancestor :: rest => do
      let covered ← tracker.cover ancestor
      covered.coverAll rest

/-- Tracks a touched directory.  A directory that is tracked already, as a
child or as a parent, changes nothing. -/
def add (refusals : Refusals) (tracker : Tracker) (path : Path) :
    Logged (Tracker × Except TrackError Unit) :=
  if tracker.parents.contains path || tracker.children.contains path then
    pure (tracker, .ok ())
  else do
    let (reached, refusal) := ascend refusals path.chain
    Logged.note (.tracking path)
    let inserted := { tracker with children := tracker.children.add path }
    let covered ← inserted.coverAll reached
    match refusal with
    | none => pure (covered, .ok ())
    | some error => pure (covered, .error error)

/-- Adds directories one after the other and collects the results. -/
def addAll (refusals : Refusals) (tracker : Tracker) :
    List Path → Logged (Tracker × List (Except TrackError Unit))
  | [] => pure (tracker, [])
  | path :: rest => do
      let (added, result) ← tracker.add refusals path
      let (final, results) ← added.addAll refusals rest
      pure (final, result :: results)

def childCount (tracker : Tracker) : Nat := tracker.children.size

def parentCount (tracker : Tracker) : Nat := tracker.parents.size

/-! ### Dispatching -/

/-- Runs a bubble for each directory in turn and keeps the failures. -/
def bubbleEach {σ : Type} (bubble : σ → Path → Logged (σ × Except BubbleError Unit)) :
    List Path → σ → Logged (σ × List RefreshFailure)
  | [], state => pure (state, [])
  | path :: rest, state => do
      let (next, result) ← bubble state path
      let (final, failures) ← bubbleEach bubble rest next
      match result with
      | .ok () => pure (final, failures)
      | .error cause => pure (final, { directory := path, cause := cause } :: failures)

/-- Bubbles from every child; a failure does not stop the others. -/
def refreshBlocking {σ : Type} (tracker : Tracker)
    (bubble : σ → Path → Logged (σ × Except BubbleError Unit)) (state : σ) :
    Logged (σ × Except RefreshError Unit) := do
  let points := tracker.children.members
  Logged.note (.refreshing points.length)
  let (final, failures) ← bubbleEach bubble points state
  match failures with
  | [] => pure (final, .ok ())
  | _ => pure (final, .error { attempted := points.length, failures := failures })

/-- Runs a detached bubble for each directory in turn and collects what the
listener hears. -/
def bubbleEachDetached {σ : Type} (bubble : σ → Path → Logged (σ × List Path)) :
    List Path → σ → Logged (σ × List Path)
  | [], state => pure (state, [])
  | path :: rest, state => do
      let (next, heard) ← bubble state path
      let (final, others) ← bubbleEachDetached bubble rest next
      pure (final, heard ++ others)

/-- Dispatches a detached bubble for every child. -/
def refreshDetached {σ : Type} (tracker : Tracker)
    (bubble : σ → Path → Logged (σ × List Path)) (state : σ) : Logged (σ × List Path) := do
  let points := tracker.children.members
  Logged.note (.dispatchingRefreshes points.length)
  bubbleEachDetached bubble points state

end Tracker

end Rollup

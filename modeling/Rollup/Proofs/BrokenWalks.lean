/-
Adds whose walk upwards is refused a parent.

An add fails when it is refused a parent on its way.  It fails only where the
directory is new to the tracker, and it names the first directory whose parent was
not found; the content that a series of adds leaves does not depend on which of
them failed.
-/

import Rollup.Proofs.Walks

namespace Rollup

namespace Refusals

variable {refusals : Refusals} {path above : Path} {cause : PathError}

/-- Of a directory, its parent, the parent of that and so on, this is the first
whose parent is not found. -/
inductive FirstRefused (refusals : Refusals) : Path → Path → PathError → Prop
  | here {path : Path} {cause : PathError} (failed : refusals.parent path = .error cause) :
      FirstRefused refusals path path cause
  | higher {path above obstructed : Path} {cause : PathError}
      (found : refusals.parent path = .ok above)
      (first : FirstRefused refusals above obstructed cause) :
      FirstRefused refusals path obstructed cause

theorem firstRefused_of_error (failed : refusals.parent path = .error cause) {obstructed : Path}
    {other : PathError} :
    refusals.FirstRefused path obstructed other ↔ obstructed = path ∧ other = cause := by
  constructor
  · intro first
    cases first with
    | here alsoFailed =>
        rw [failed] at alsoFailed
        cases alsoFailed
        exact ⟨rfl, rfl⟩
    | higher found _ =>
        rw [failed] at found
        cases found
  · intro ⟨samePath, sameCause⟩
    rw [samePath, sameCause]
    exact .here failed

theorem firstRefused_of_ok (found : refusals.parent path = .ok above) {obstructed : Path} :
    refusals.FirstRefused path obstructed cause ↔
      refusals.FirstRefused above obstructed cause := by
  constructor
  · intro first
    cases first with
    | here failed =>
        rw [found] at failed
        cases failed
    | higher alsoFound first =>
        rw [found] at alsoFound
        cases alsoFound
        exact first
  · exact .higher found

end Refusals

namespace Tracker

variable {refusals : Refusals} {tracker : Tracker} {path : Path}

/-! ### The answer of an add -/

/-- A walk is refused at the first directory whose parent is not found; the root
is where it wants to go. -/
theorem refusal_eq_some_iff (refusals : Refusals) (path : Path) (error : TrackError) :
    (ascend refusals path.chain).2 = some error ↔
      ∃ obstructed cause, obstructed ≠ Path.root ∧
        refusals.FirstRefused path obstructed cause ∧ error = .malformedPath obstructed cause := by
  induction path using Path.parentInduction with
  | atRoot =>
      obtain ⟨rootCause, failed⟩ := refusals.exists_parent_root_eq_error
      constructor
      · intro impossible
        cases impossible
      · intro ⟨obstructed, cause, notRoot, first, _⟩
        exact absurd ((Refusals.firstRefused_of_error failed).mp first).1 notRoot
  | below path notRoot inductionHypothesis =>
      rw [ascend_chain_of_ne_root refusals notRoot]
      cases refused : refusals path with
      | some cause =>
          simp only [Refusals.firstRefused_of_error (Refusals.parent_of_refused refused)]
          constructor
          · intro same
            cases same
            exact ⟨path, cause, notRoot, ⟨rfl, rfl⟩, rfl⟩
          · intro ⟨obstructed, other, _, ⟨samePath, sameCause⟩, same⟩
            rw [same, samePath, sameCause]
      | none =>
          simp only [Refusals.firstRefused_of_ok (Refusals.parent_of_allowed refused notRoot)]
          exact inductionHypothesis

theorem add_eq_error_iff {error : TrackError} :
    (tracker.add refusals path).value.2 = .error error ↔
      ¬(path ∈ tracker.parents ∨ path ∈ tracker.children) ∧
        ∃ obstructed cause, obstructed ≠ Path.root ∧
          refusals.FirstRefused path obstructed cause ∧
            error = .malformedPath obstructed cause := by
  by_cases tracked : path ∈ tracker.parents ∨ path ∈ tracker.children
  · rw [add_of_tracked tracked]
    simp [tracked]
  · rw [value_add_of_untracked refusals tracked, and_iff_right tracked, ← refusal_eq_some_iff]
    cases (ascend refusals path.chain).2 <;> simp

/-! ### The results of a series of adds -/

theorem length_addAll (refusals : Refusals) (tracker : Tracker) (added : List Path) :
    (tracker.addAll refusals added).value.2.length = added.length := by
  induction added generalizing tracker with
  | nil => rfl
  | cons path rest inductionHypothesis =>
      exact congrArg (· + 1) (inductionHypothesis (tracker.add refusals path).value.1)

/-- An add in a series answers what it answers on the tracker left by those before it. -/
theorem getElem?_addAll (refusals : Refusals) (tracker : Tracker) (earlier later : List Path)
    (path : Path) :
    (tracker.addAll refusals (earlier ++ path :: later)).value.2[earlier.length]? =
      some ((tracker.addAll refusals earlier).value.1.add refusals path).value.2 := by
  rw [value_addAll_append, ← length_addAll refusals tracker earlier,
    List.getElem?_append_right (Nat.le_refl _), Nat.sub_self]
  rfl

/-- Whatever parents are refused, a series of adds to an empty tracker leaves as
parents what the walks of the added directories reached, and as children the added
directories that no walk reached, in whatever order they were added and whichever
of the adds failed.  An add fails when its directory is new to the tracker and its
walk is refused a parent, and it names the first directory whose parent was not
found, and the cause. -/
theorem addAll_keeps_walks (refusals : Refusals) (added : List Path) :
    let outcome := (Tracker.empty.addAll refusals added).value
    (∀ path, path ∈ outcome.1.parents ↔ ∃ lower ∈ added, path ∈ refusals.walk lower) ∧
      (∀ path, path ∈ outcome.1.children ↔ path ∈ added ∧ path ∉ outcome.1.parents) ∧
      (∀ path ∈ outcome.1.children, path ∉ outcome.1.parents) ∧
      (∀ other : List Path, (∀ path, path ∈ other ↔ path ∈ added) →
        (Tracker.empty.addAll refusals other).value.1 = outcome.1) ∧
      outcome.2.length = added.length ∧
      ∀ earlier path later error, added = earlier ++ path :: later →
        (outcome.2[earlier.length]? = some (.error error) ↔
          path ∉ earlier ∧ (∀ lower ∈ earlier, path ∉ refusals.walk lower) ∧
            ∃ obstructed cause, obstructed ≠ Path.root ∧
              refusals.FirstRefused path obstructed cause ∧
                error = .malformedPath obstructed cause) := by
  intro outcome
  have tracks : TracksWalks refusals outcome.1 added := tracksWalks_addAll refusals added
  refine ⟨tracks.parents, tracks.children, ?_, ?_, length_addAll refusals Tracker.empty added, ?_⟩
  · exact fun path isChild => ((tracks.children path).mp isChild).2
  · exact fun other same => ((tracksWalks_addAll refusals other).congr same).unique tracks
  · intro earlier path later error split
    have result := getElem?_addAll refusals Tracker.empty earlier later path
    have known := (tracksWalks_addAll refusals earlier).tracked_iff path
    rw [← split] at result
    rw [result, Option.some.injEq, add_eq_error_iff, known, not_or, and_assoc]
    simp only [not_exists, not_and]

/-- The parent of the topmost directory is refused: the walk from below reaches
that directory and no further, and a later add from there still fails. -/
example :
    let refusals : Refusals := fun path => if path = ⟨"a"⟩ then some (.emptySegment "/a") else none
    let outcome := (Tracker.empty.addAll refusals [⟨"a/b/c"⟩, ⟨"a/b"⟩, ⟨"a/d"⟩]).value
    outcome.1.children.members = [⟨"a/b/c"⟩, ⟨"a/d"⟩] ∧
      outcome.1.parents.members = [⟨"a"⟩, ⟨"a/b"⟩] ∧
      outcome.2 = [.error (.malformedPath ⟨"a"⟩ (.emptySegment "/a")), .ok (),
        .error (.malformedPath ⟨"a"⟩ (.emptySegment "/a"))] := by
  decide

end Tracker
end Rollup

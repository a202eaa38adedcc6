/-
Waiting for detached bubbles.

A detached bubble reports once, when it has come to its end, whether it arrived or
was stopped.  Whoever started the bubbles goes on as soon as it has heard as many
completions as there are bubbles.  The invariant: the bubbles that were heard are
different ones, and each of them has ended.  So never too many are heard, and when
enough are heard all bubbles have ended; until then some bubble can go on or
report, so the wait is over at last.
-/

import Mathlib.Data.List.Nodup
import Mathlib.Data.List.Perm.Subperm
import Rollup.Proofs.Interleaving

namespace Rollup

namespace Bubbling

private theorem getElem?_replace {α : Type} {earlier later : List α} {old new item : α}
    {position : Nat} (there : (earlier ++ old :: later)[position]? = some item)
    (different : item ≠ old) : (earlier ++ new :: later)[position]? = some item := by
  by_cases before : position < earlier.length
  · rw [List.getElem?_append_left before] at there ⊢
    exact there
  · rw [List.getElem?_append_right (Nat.not_lt.mp before)] at there ⊢
    cases offset : position - earlier.length with
    | zero =>
        rw [offset, List.getElem?_cons_zero] at there
        exact absurd (Option.some.inj there).symm different
    | succ further =>
        rw [offset, List.getElem?_cons_succ] at there
        rw [List.getElem?_cons_succ]
        exact there

theorem Step.getElem?_of_ended {before after : Bubbling} (step : Step before after)
    {position : Nat} {climb : Climb} (there : before.climbs[position]? = some climb)
    (ended : climb.ahead = []) : after.climbs[position]? = some climb := by
  cases step with
  | recompute _ =>
      apply getElem?_replace there
      intro same
      rw [same] at ended
      cases ended
  | stop _ =>
      apply getElem?_replace there
      intro same
      rw [same] at ended
      cases ended

end Bubbling

/-- Detached bubbles under way, and the positions of those that were heard, in the
order in which they reported. -/
structure Waiting where
  bubbling : Bubbling
  reported : List Nat

namespace Waiting

def start (tree : Tree) (starts : List Path) : Waiting :=
  { bubbling := Bubbling.start tree starts, reported := [] }

/-- Some bubble makes its next recomputation, or one that has ended reports. -/
inductive Step : Waiting → Waiting → Prop
  | bubble {before after : Bubbling} {reported : List Nat} (step : before.Step after) :
      Step ⟨before, reported⟩ ⟨after, reported⟩
  | report {bubbling : Bubbling} {reported : List Nat} {position : Nat} {climb : Climb}
      (there : bubbling.climbs[position]? = some climb) (ended : climb.ahead = [])
      (silent : position ∉ reported) :
      Step ⟨bubbling, reported⟩ ⟨bubbling, reported ++ [position]⟩

abbrev Runs : Waiting → Waiting → Prop := Relation.ReflTransGen Step

private theorem filterMap_range (items : List Path) :
    (List.range items.length).filterMap (fun position => items[position]?) = items := by
  induction items with
  | nil => rfl
  | cons item rest inductionHypothesis =>
      rw [List.length_cons, List.range_succ_eq_map, List.filterMap_cons, List.filterMap_map]
      exact congrArg (item :: ·) inductionHypothesis

def heard (starts : List Path) (state : Waiting) : List Path :=
  state.reported.filterMap fun position => starts[position]?

/-- What holds at every moment of the wait for bubbles that began together. -/
structure Consistent (tree : Tree) (starts : List Path) (state : Waiting) : Prop where
  runs : (Bubbling.start tree starts).Runs state.bubbling
  distinct : state.reported.Nodup
  ended : ∀ position ∈ state.reported,
    ∃ climb, state.bubbling.climbs[position]? = some climb ∧ climb.ahead = []

variable {tree : Tree} {starts : List Path} {state next : Waiting}

namespace Consistent

theorem step (consistent : Consistent tree starts state) (step : Step state next) :
    Consistent tree starts next := by
  cases step with
  | bubble step =>
      refine ⟨consistent.runs.tail step, consistent.distinct, fun position member => ?_⟩
      obtain ⟨climb, there, ended⟩ := consistent.ended position member
      exact ⟨climb, step.getElem?_of_ended there ended, ended⟩
  | @report bubbling reported position climb there ended silent =>
      refine ⟨consistent.runs, ?_, fun other member => ?_⟩
      · rw [← List.concat_eq_append]
        exact List.Nodup.concat silent consistent.distinct
      · rcases List.mem_append.mp member with earlier | here
        · exact consistent.ended other earlier
        · rw [List.mem_singleton.mp here]
          exact ⟨climb, there, ended⟩

theorem of_runs (runs : Runs (start tree starts) state) : Consistent tree starts state := by
  induction runs with
  | refl => exact ⟨.refl, List.nodup_nil, fun _ impossible => by cases impossible⟩
  | tail _ last inductionHypothesis => exact inductionHypothesis.step last

variable (consistent : Consistent tree starts state)

include consistent

theorem length_climbs : state.bubbling.climbs.length = starts.length :=
  (Bubbling.Consistent.of_runs consistent.runs).follows.length_eq.symm

theorem subset_range : state.reported ⊆ List.range starts.length := by
  intro position member
  obtain ⟨climb, there, _⟩ := consistent.ended position member
  rw [List.mem_range, ← consistent.length_climbs]
  exact (List.getElem?_eq_some_iff.mp there).1

theorem length_reported_le : state.reported.length ≤ starts.length := by
  have shorter := (List.subperm_of_subset consistent.distinct consistent.subset_range).length_le
  rwa [List.length_range] at shorter

theorem perm_range (all : state.reported.length = starts.length) :
    state.reported.Perm (List.range starts.length) := by
  apply (List.subperm_of_subset consistent.distinct consistent.subset_range).perm_of_length_le
  rw [List.length_range, all]

/-- When as many were heard as there are bubbles, all bubbles have ended. -/
theorem endsIn (all : state.reported.length = starts.length) :
    Bubbling.EndsIn tree starts state.bubbling := by
  refine ⟨consistent.runs, fun climb member => ?_⟩
  obtain ⟨position, there⟩ := List.getElem?_of_mem member
  have bound := (List.getElem?_eq_some_iff.mp there).1
  rw [consistent.length_climbs] at bound
  have wasHeard := (consistent.perm_range all).mem_iff.mpr (List.mem_range.mpr bound)
  obtain ⟨other, alsoThere, ended⟩ := consistent.ended position wasHeard
  rw [there] at alsoThere
  cases alsoThere
  exact ended

theorem heard_perm (all : state.reported.length = starts.length) :
    (state.heard starts).Perm starts := by
  have same := (consistent.perm_range all).filterMap fun position => starts[position]?
  rwa [filterMap_range] at same

theorem exists_step (fewer : state.reported.length < starts.length) :
    ∃ after, Step state after := by
  obtain ⟨bubbling, reported⟩ := state
  by_cases finished : bubbling.Finished
  -- nothing is left but to report, and fewer reported than there are bubbles
  · have someSilent : ∃ position ∈ List.range starts.length, position ∉ reported := by
      by_contra none
      push Not at none
      have longer := (List.subperm_of_subset List.nodup_range none).length_le
      rw [List.length_range] at longer
      exact absurd fewer (Nat.not_lt.mpr longer)
    obtain ⟨position, inRange, silent⟩ := someSilent
    rw [List.mem_range, ← consistent.length_climbs] at inRange
    have there := List.getElem?_eq_getElem inRange
    exact ⟨_, .report there (finished _ (List.getElem_mem inRange)) silent⟩
  · obtain ⟨after, step⟩ :=
      (Bubbling.Consistent.of_runs consistent.runs).exists_step finished
    exact ⟨_, .bubble step⟩

end Consistent

/-- What may still happen before the wait is over. -/
def outstanding (starts : List Path) (state : Waiting) : Nat :=
  state.bubbling.remaining + (starts.length - state.reported.length)

theorem Step.outstanding_lt (step : Step state next)
    (consistent : Consistent tree starts next) :
    next.outstanding starts < state.outstanding starts := by
  cases step with
  | bubble step => exact Nat.add_lt_add_right step.remaining_lt _
  | report there ended silent =>
      have bound := consistent.length_reported_le
      simp only [outstanding, List.length_append, List.length_singleton] at bound ⊢
      omega

/-- However the wait went so far, enough completions will be heard. -/
theorem exists_all_heard (runs : Runs (start tree starts) state) :
    ∃ last, Runs state last ∧ last.reported.length = starts.length := by
  induction left : state.outstanding starts using Nat.strongRecOn generalizing state with
  | ind count inductionHypothesis =>
      have consistent := Consistent.of_runs runs
      rcases Nat.lt_or_eq_of_le consistent.length_reported_le with fewer | all
      · obtain ⟨after, step⟩ := consistent.exists_step fewer
        have less := step.outstanding_lt (consistent.step step)
        rw [left] at less
        obtain ⟨last, rest, all⟩ := inductionHypothesis _ less (runs.tail step) rfl
        exact ⟨last, .head step rest, all⟩
      · exact ⟨state, .refl, all⟩

end Waiting

end Rollup

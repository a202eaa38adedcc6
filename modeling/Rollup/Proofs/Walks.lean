/-
What a tracker holds after any adds, when some parents cannot be found.

An add walks upwards from its directory until it is refused a parent.  Where it is
refused it fails, and what the walk did before stays.  So the parents of a tracker
need not be closed upwards, but they are closed under walks: whatever a walk
reached, its own walk is the rest of that walk.  This is what the early exits of
an add rely on, and it makes the content of the tracker independent of the order
of adds that fail and adds that do not.
-/

import Mathlib.Tactic.Tauto
import Rollup.Tracker
import Rollup.Proofs.Ancestry
import Rollup.Proofs.Membership

namespace Rollup

namespace Refusals

variable {refusals : Refusals} {path above : Path} {cause : PathError}

/-- The parent of a directory, unless it is refused. -/
def parent (refusals : Refusals) (path : Path) : Except PathError Path :=
  match refusals path with
  | .some cause => .error cause
  | .none => path.parent

theorem parent_of_refused (refused : refusals path = some cause) :
    refusals.parent path = .error cause := by
  rw [parent, refused]

theorem parent_of_allowed (allowed : refusals path = Option.none) (notRoot : path ≠ Path.root) :
    refusals.parent path = .ok path.parentOfNonRoot := by
  rw [parent, allowed]
  exact Path.parent_eq_ok_iff.mpr ⟨notRoot, rfl⟩

theorem exists_parent_root_eq_error (refusals : Refusals) :
    ∃ cause, refusals.parent Path.root = .error cause := by
  cases refused : refusals Path.root with
  | some cause => exact ⟨cause, parent_of_refused refused⟩
  | none =>
      rw [parent, refused]
      exact ⟨_, rfl⟩

theorem parent_eq_ok_iff :
    refusals.parent path = .ok above ↔ refusals path = Option.none ∧ path.parent = .ok above := by
  rw [parent]
  cases refusals path <;> simp

/-! ### Walks -/

/-- The ancestors of a directory, nearest first, up to and including the first
whose parent is not found; none when that is the directory itself. -/
def walk (refusals : Refusals) (path : Path) : List Path :=
  match refusals.parent path with
  | .error _ => []
  | .ok _ =>
      let found := fun ancestor => (refusals.parent ancestor).isOk
      path.ancestors.takeWhile found ++ (path.ancestors.dropWhile found).take 1

theorem walk_of_error (failed : refusals.parent path = .error cause) : refusals.walk path = [] := by
  rw [walk, failed]

/-- A walk that finds the parent goes on as the walk of the parent. -/
theorem walk_of_ok (found : refusals.parent path = .ok above) :
    refusals.walk path = above :: refusals.walk above := by
  obtain ⟨_, parentFound⟩ := parent_eq_ok_iff.mp found
  obtain ⟨notRoot, same⟩ := Path.parent_eq_ok_iff.mp parentFound
  have ancestors : path.ancestors = above :: above.ancestors := by
    rw [Path.ancestors_of_ne_root notRoot, same, Path.chain]
  rw [walk, found, walk, ancestors]
  cases further : refusals.parent above with
  | error cause => simp [further, Except.isOk, Except.toBool]
  | ok higher => simp [further, Except.isOk, Except.toBool]

theorem walk_root (refusals : Refusals) : refusals.walk Path.root = [] := by
  obtain ⟨cause, failed⟩ := refusals.exists_parent_root_eq_error
  exact walk_of_error failed

/-- Whatever a walk reached, its own walk is the rest of that walk. -/
theorem mem_walk_trans {upper middle lower : Path} (first : upper ∈ refusals.walk middle)
    (second : middle ∈ refusals.walk lower) : upper ∈ refusals.walk lower := by
  induction lower using Path.parentInduction with
  | atRoot =>
      rw [walk_root] at second
      cases second
  | below lower notRoot inductionHypothesis =>
      cases refused : refusals lower with
      | some cause =>
          rw [walk_of_error (parent_of_refused refused)] at second
          cases second
      | none =>
          rw [walk_of_ok (parent_of_allowed refused notRoot)] at second ⊢
          rcases List.mem_cons.mp second with same | further
          · rw [same] at first
            exact List.mem_cons_of_mem _ first
          · exact List.mem_cons_of_mem _ (inductionHypothesis further)

theorem isAncestorOf_of_mem_walk {upper lower : Path} (member : upper ∈ refusals.walk lower) :
    upper.IsAncestorOf lower := by
  induction lower using Path.parentInduction with
  | atRoot =>
      rw [walk_root] at member
      cases member
  | below lower notRoot inductionHypothesis =>
      have step := Path.IsAncestorOf.of_parent (Path.parent_eq_ok_iff.mpr ⟨notRoot, rfl⟩)
      cases refused : refusals lower with
      | some cause =>
          rw [walk_of_error (parent_of_refused refused)] at member
          cases member
      | none =>
          rw [walk_of_ok (parent_of_allowed refused notRoot)] at member
          rcases List.mem_cons.mp member with same | further
          · rw [same]
            exact step
          · exact (inductionHypothesis further).trans step

end Refusals

namespace Tracker

variable {refusals : Refusals} {tracker other : Tracker} {path : Path} {added : List Path}

/-! ### Covering ancestors -/

theorem mem_coverAll_children (reached : List Path) (tracker : Tracker) (path : Path) :
    path ∈ (tracker.coverAll reached).value.children ↔
      path ∈ tracker.children ∧ path ∉ reached := by
  induction reached generalizing tracker with
  | nil => simp [coverAll, pure]
  | cons ancestor rest inductionHypothesis =>
      have step := inductionHypothesis (tracker.cover ancestor).value
      simp only [cover, OrderedMap.mem_erase] at step
      rw [List.mem_cons, not_or]
      exact step.trans (by tauto)

theorem mem_coverAll_parents (reached : List Path) (tracker : Tracker) (path : Path) :
    path ∈ (tracker.coverAll reached).value.parents ↔
      path ∈ tracker.parents ∨ path ∈ reached := by
  induction reached generalizing tracker with
  | nil => simp [coverAll, pure]
  | cons ancestor rest inductionHypothesis =>
      have step := inductionHypothesis (tracker.cover ancestor).value
      simp only [cover, OrderedSet.mem_add] at step
      rw [List.mem_cons]
      exact step.trans (by tauto)

/-! ### One add -/

theorem ascend_chain_of_ne_root (refusals : Refusals) (notRoot : path ≠ Path.root) :
    ascend refusals path.chain =
      match refusals path with
      | some cause => ([], some (.malformedPath path cause))
      | none =>
          (path.parentOfNonRoot :: (ascend refusals path.parentOfNonRoot.chain).1,
            (ascend refusals path.parentOfNonRoot.chain).2) := by
  rw [Path.chain_of_ne_root notRoot]
  rfl

theorem reached_eq_walk (refusals : Refusals) (path : Path) :
    (ascend refusals path.chain).1 = refusals.walk path := by
  induction path using Path.parentInduction with
  | atRoot => exact (refusals.walk_root).symm
  | below path notRoot inductionHypothesis =>
      rw [ascend_chain_of_ne_root refusals notRoot]
      cases refused : refusals path with
      | some cause => exact (Refusals.walk_of_error (Refusals.parent_of_refused refused)).symm
      | none =>
          rw [Refusals.walk_of_ok (Refusals.parent_of_allowed refused notRoot),
            ← inductionHypothesis]

theorem add_of_tracked {refusals : Refusals} {tracker : Tracker} {path : Path}
    (tracked : path ∈ tracker.parents ∨ path ∈ tracker.children) :
    (tracker.add refusals path).value = (tracker, .ok ()) := by
  have known : (tracker.parents.contains path || tracker.children.contains path) = true := by
    rw [Bool.or_eq_true]
    exact tracked
  rw [add, if_pos known]
  rfl

theorem value_add_of_untracked (refusals : Refusals)
    (untracked : ¬(path ∈ tracker.parents ∨ path ∈ tracker.children)) :
    (tracker.add refusals path).value =
      (({ tracker with children := tracker.children.add path }.coverAll
          (refusals.walk path)).value,
        match (ascend refusals path.chain).2 with
        | none => .ok ()
        | some error => .error error) := by
  have unknown : ¬(tracker.parents.contains path || tracker.children.contains path) = true := by
    rw [Bool.or_eq_true]
    exact untracked
  rw [add, if_neg unknown, ← reached_eq_walk]
  cases (ascend refusals path.chain) with
  | mk reached refusal => cases refusal <;> rfl

/-- A series of adds continues where the series before it left the tracker. -/
theorem value_addAll_append (refusals : Refusals) (tracker : Tracker) (earlier later : List Path) :
    (tracker.addAll refusals (earlier ++ later)).value =
      (((tracker.addAll refusals earlier).value.1.addAll refusals later).value.1,
        (tracker.addAll refusals earlier).value.2 ++
          ((tracker.addAll refusals earlier).value.1.addAll refusals later).value.2) := by
  induction earlier generalizing tracker with
  | nil => rfl
  | cons path rest inductionHypothesis =>
      have step := inductionHypothesis (tracker.add refusals path).value.1
      exact congrArg
        (fun outcome => (outcome.1, (tracker.add refusals path).value.2 :: outcome.2)) step

/-! ### The content of a tracker -/

/-- The tracker holds exactly what adding these directories calls for, as far as
their walks went. -/
structure TracksWalks (refusals : Refusals) (tracker : Tracker) (added : List Path) : Prop where
  parents : ∀ path, path ∈ tracker.parents ↔ ∃ lower ∈ added, path ∈ refusals.walk lower
  children : ∀ path, path ∈ tracker.children ↔ path ∈ added ∧ path ∉ tracker.parents

namespace TracksWalks

theorem congr {others : List Path} (tracks : TracksWalks refusals tracker added)
    (same : ∀ path, path ∈ added ↔ path ∈ others) : TracksWalks refusals tracker others where
  parents := by simpa only [same] using tracks.parents
  children := by simpa only [same] using tracks.children

theorem unique (tracks : TracksWalks refusals tracker added)
    (also : TracksWalks refusals other added) : tracker = other := by
  have sameParents : tracker.parents = other.parents :=
    OrderedSet.ext_mem fun path => (tracks.parents path).trans (also.parents path).symm
  have sameChildren : tracker.children = other.children := by
    refine OrderedSet.ext_mem fun path => ?_
    rw [tracks.children, also.children, sameParents]
  cases tracker
  cases other
  simp_all

theorem tracked_iff (tracks : TracksWalks refusals tracker added) (path : Path) :
    path ∈ tracker.parents ∨ path ∈ tracker.children ↔
      path ∈ added ∨ ∃ lower ∈ added, path ∈ refusals.walk lower := by
  rw [tracks.children, tracks.parents]
  generalize (∃ lower ∈ added, path ∈ refusals.walk lower) = reached
  tauto

protected theorem empty : TracksWalks refusals Tracker.empty [] where
  parents := fun path => by
    have absent : path ∉ Tracker.empty.parents := OrderedMap.not_mem_empty path
    simp [absent]
  children := fun path => by
    have absent : path ∉ Tracker.empty.children := OrderedMap.not_mem_empty path
    simp [absent]

/-- The walk of a directory that some walk reached adds nothing to that walk. -/
private theorem add_parent (tracks : TracksWalks refusals tracker added)
    (isParent : path ∈ tracker.parents) : TracksWalks refusals tracker (path :: added) := by
  obtain ⟨covering, coveringMember, reached⟩ := (tracks.parents path).mp isParent
  constructor
  · intro other
    rw [tracks.parents]
    simp only [List.mem_cons, exists_eq_or_imp]
    constructor
    · exact Or.inr
    · intro position
      rcases position with above | found
      · exact ⟨covering, coveringMember, Refusals.mem_walk_trans above reached⟩
      · exact found
  · intro other
    rw [tracks.children, List.mem_cons]
    constructor
    · exact fun ⟨member, notParent⟩ => ⟨Or.inr member, notParent⟩
    · intro ⟨position, notParent⟩
      rcases position with rfl | member
      · exact absurd isParent notParent
      · exact ⟨member, notParent⟩

/-- An untracked directory becomes a child, and its walk joins the parents, as far
as it went. -/
private theorem add_fresh (tracks : TracksWalks refusals tracker added)
    (notParent : path ∉ tracker.parents) :
    TracksWalks refusals
      ({ tracker with children := tracker.children.add path }.coverAll
        (refusals.walk path)).value (path :: added) := by
  have notInOwnWalk : path ∉ refusals.walk path := fun member =>
    path.not_isAncestorOf_self (Refusals.isAncestorOf_of_mem_walk member)
  constructor
  · intro other
    rw [mem_coverAll_parents, tracks.parents]
    simp only [List.mem_cons, exists_eq_or_imp]
    exact or_comm
  · intro other
    rw [mem_coverAll_children, mem_coverAll_parents, OrderedSet.mem_add, tracks.children,
      List.mem_cons, not_or]
    constructor
    · intro ⟨position, notReached⟩
      rcases position with rfl | ⟨member, isNoParent⟩
      · exact ⟨Or.inl rfl, notParent, notInOwnWalk⟩
      · exact ⟨Or.inr member, isNoParent, notReached⟩
    · intro ⟨position, isNoParent, notReached⟩
      rcases position with same | member
      · exact ⟨Or.inl same, notReached⟩
      · exact ⟨Or.inr ⟨member, isNoParent⟩, notReached⟩

/-- An add keeps the content, whether it fails or not. -/
theorem add (tracks : TracksWalks refusals tracker added) (path : Path) :
    TracksWalks refusals (tracker.add refusals path).value.1 (path :: added) := by
  by_cases isParent : path ∈ tracker.parents
  · rw [add_of_tracked (Or.inl isParent)]
    exact tracks.add_parent isParent
  · by_cases isChild : path ∈ tracker.children
    · rw [add_of_tracked (Or.inr isChild)]
      have member := ((tracks.children path).mp isChild).1
      refine tracks.congr fun other => ⟨List.mem_cons_of_mem path, fun later => ?_⟩
      rcases List.mem_cons.mp later with rfl | earlier
      · exact member
      · exact earlier
    · rw [value_add_of_untracked refusals (not_or.mpr ⟨isParent, isChild⟩)]
      exact tracks.add_fresh isParent

theorem addAll (later : List Path) (tracks : TracksWalks refusals tracker added) :
    TracksWalks refusals (tracker.addAll refusals later).value.1 (later ++ added) := by
  induction later generalizing tracker added with
  | nil => exact tracks
  | cons path rest inductionHypothesis =>
      have step := inductionHypothesis (tracks.add path)
      refine step.congr fun other => ?_
      simp only [List.mem_append, List.mem_cons]
      tauto

end TracksWalks

theorem tracksWalks_addAll (refusals : Refusals) (added : List Path) :
    TracksWalks refusals (Tracker.empty.addAll refusals added).value.1 added := by
  simpa only [List.append_nil] using TracksWalks.empty.addAll added

end Tracker
end Rollup

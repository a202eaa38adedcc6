/-
Several bubbles at once.

Each bubble recomputes the directories on its way to the root, nearest first,
and stops at its first failure; one recomputation is one step, and the bubbles
take their steps in any order.  The invariant of every interleaving: what was
recomputed is up to date, or some bubble is about to recompute it again.  It
holds because a bubble that has just changed a directory goes on to its parent,
the only other directory whose totals that change can make stale.
-/

import Mathlib.Data.List.Forall2
import Mathlib.Data.List.TakeWhile
import Rollup.Tracker
import Rollup.Proofs.Settling

namespace Rollup

namespace Directories

/-- The directories a bubble recomputes before it arrives or is stopped. -/
def reach (directories : Directories) (start : Path) : List Path :=
  start.chain.takeWhile fun path => (directories.obstacle? path).isNone

/-- How a bubble ends: with the first obstacle on its way, if there is one. -/
def outcome (directories : Directories) (start : Path) : Except BubbleError Unit :=
  match start.chain.findSome? directories.obstacle? with
  | none => .ok ()
  | some error => .error error

variable {directories : Directories} {start : Path}

private theorem isNone_of_clear {paths : List Path}
    (clear : ∀ path ∈ paths, directories.obstacle? path = none) :
    ∀ path ∈ paths, (directories.obstacle? path).isNone = true := by
  intro path member
  rw [clear path member]
  rfl

theorem reach_of_clear (clear : ∀ path ∈ start.chain, directories.obstacle? path = none) :
    directories.reach start = start.chain :=
  List.takeWhile_eq_self_iff.mpr (isNone_of_clear clear)

theorem outcome_of_clear (clear : ∀ path ∈ start.chain, directories.obstacle? path = none) :
    directories.outcome start = .ok () := by
  rw [outcome, List.findSome?_eq_none_iff.mpr clear]

/-- A bubble is stopped by the first obstacle on its way. -/
theorem reach_outcome_of_obstacle {passed rest : List Path} {obstructed : Path}
    {error : BubbleError} (clear : ∀ path ∈ passed, directories.obstacle? path = none)
    (found : directories.obstacle? obstructed = some error)
    (way : passed ++ obstructed :: rest = start.chain) :
    directories.reach start = passed ∧ directories.outcome start = .error error := by
  unfold reach outcome
  rw [← way]
  constructor
  · rw [List.takeWhile_append_of_pos (isNone_of_clear clear), List.takeWhile_cons, found]
    exact List.append_nil passed
  · rw [List.findSome?_append, List.findSome?_eq_none_iff.mpr clear, Option.none_or,
      List.findSome?_cons, found]

theorem reach_outcome_of_not_mem (absent : start ∉ directories) :
    directories.reach start = [] ∧
      directories.outcome start = .error (.unknownDirectory start) :=
  reach_outcome_of_obstacle (List.forall_mem_nil _) (obstacle?_of_not_mem absent)
    (List.nil_append start.chain)

end Directories

namespace Tracker

/-- The failures among the results of bubbles from these directories. -/
def failuresOf : List Path → List (Except BubbleError Unit) → List RefreshFailure
  | path :: starts, result :: results =>
      match result with
      | .ok () => failuresOf starts results
      | .error cause => { directory := path, cause := cause } :: failuresOf starts results
  | _, _ => []

theorem value_bubbleEach_cons {σ : Type}
    (bubble : σ → Path → Logged (σ × Except BubbleError Unit)) (path : Path) (rest : List Path)
    (state : σ) :
    (bubbleEach bubble (path :: rest) state).value =
      ((bubbleEach bubble rest (bubble state path).value.1).value.1,
        match (bubble state path).value.2 with
        | .ok () => (bubbleEach bubble rest (bubble state path).value.1).value.2
        | .error cause =>
            { directory := path, cause := cause } ::
              (bubbleEach bubble rest (bubble state path).value.1).value.2) := by
  rw [bubbleEach, Logged.value_bind]
  cases (bubble state path).value with
  | mk next result => cases result <;> rfl

theorem value_refreshBlocking {σ : Type} (tracker : Tracker)
    (bubble : σ → Path → Logged (σ × Except BubbleError Unit)) (state : σ) :
    (tracker.refreshBlocking bubble state).value =
      ((bubbleEach bubble tracker.children.members state).value.1,
        match (bubbleEach bubble tracker.children.members state).value.2 with
        | [] => .ok ()
        | failures =>
            .error { attempted := tracker.children.members.length, failures := failures }) := by
  rw [refreshBlocking, Logged.value_bind, Logged.value_bind]
  cases (bubbleEach bubble tracker.children.members state).value with
  | mk final failures => cases failures <;> rfl

theorem failuresOf_eq_nil {starts : List Path} {results : List (Except BubbleError Unit)}
    (succeeded : ∀ result ∈ results, result = .ok ()) : failuresOf starts results = [] := by
  induction starts generalizing results with
  | nil => rfl
  | cons path rest inductionHypothesis =>
      cases results with
      | nil => rfl
      | cons result others =>
          obtain ⟨here, later⟩ := List.forall_mem_cons.mp succeeded
          subst here
          exact inductionHypothesis later

/-- Detached bubbles change the state as those do whose results are collected. -/
theorem value_bubbleEachDetached {σ : Type} {detached : σ → Path → Logged (σ × List Path)}
    {bubble : σ → Path → Logged (σ × Except BubbleError Unit)}
    (same : ∀ state path, (detached state path).value.1 = (bubble state path).value.1)
    (starts : List Path) (state : σ) :
    (bubbleEachDetached detached starts state).value.1 =
      (bubbleEach bubble starts state).value.1 := by
  induction starts generalizing state with
  | nil => rfl
  | cons path rest inductionHypothesis =>
      rw [value_bubbleEach_cons, bubbleEachDetached, Logged.value_bind, Logged.value_bind, same]
      exact inductionHypothesis (bubble state path).value.1

theorem value_refreshDetached {σ : Type} {detached : σ → Path → Logged (σ × List Path)}
    {bubble : σ → Path → Logged (σ × Except BubbleError Unit)}
    (same : ∀ state path, (detached state path).value.1 = (bubble state path).value.1)
    (tracker : Tracker) (state : σ) :
    (tracker.refreshDetached detached state).value.1 =
      (bubbleEach bubble tracker.children.members state).value.1 :=
  value_bubbleEachDetached same tracker.children.members state

end Tracker

/-- A bubble under way: the directories it has recomputed, those still ahead of
it, and its result so far. -/
structure Climb where
  passed : List Path
  ahead : List Path
  result : Except BubbleError Unit

namespace Climb

def start (path : Path) : Climb := { passed := [], ahead := path.chain, result := .ok () }

/-- The climb began at this directory and went on as the directories allow. -/
inductive Follows (directories : Directories) (start : Path) : Climb → Prop
  | climbing {passed ahead : List Path}
      (clear : ∀ path ∈ passed, directories.obstacle? path = none)
      (way : passed ++ ahead = start.chain) :
      Follows directories start { passed := passed, ahead := ahead, result := .ok () }
  | stopped {passed rest : List Path} {obstructed : Path} {error : BubbleError}
      (clear : ∀ path ∈ passed, directories.obstacle? path = none)
      (found : directories.obstacle? obstructed = some error)
      (way : passed ++ obstructed :: rest = start.chain) :
      Follows directories start { passed := passed, ahead := [], result := .error error }

namespace Follows

variable {directories : Directories} {start : Path} {climb : Climb}

theorem clear (follows : climb.Follows directories start) :
    ∀ path ∈ climb.passed, directories.obstacle? path = none := by
  cases follows with
  | climbing clear _ => exact clear
  | stopped clear _ _ => exact clear

/-- The directories ahead are the next one and all its ancestors. -/
theorem chain_eq {path : Path} {ahead : List Path} (follows : climb.Follows directories start)
    (next : climb.ahead = path :: ahead) : path.chain = path :: ahead := by
  cases follows with
  | climbing _ way =>
      dsimp only at next
      rw [next] at way
      exact Path.chain_of_append way
  | stopped _ _ _ => cases next

theorem passed_eq (follows : climb.Follows directories start) (finished : climb.ahead = []) :
    climb.passed = directories.reach start := by
  cases follows with
  | climbing clear way =>
      dsimp only at finished
      rw [finished, List.append_nil] at way
      rw [way] at clear
      rw [Directories.reach_of_clear clear]
      exact way
  | stopped clear found way => exact (Directories.reach_outcome_of_obstacle clear found way).1.symm

theorem result_eq (follows : climb.Follows directories start) (finished : climb.ahead = []) :
    climb.result = directories.outcome start := by
  cases follows with
  | climbing clear way =>
      dsimp only at finished
      rw [finished, List.append_nil] at way
      rw [way] at clear
      exact (Directories.outcome_of_clear clear).symm
  | stopped clear found way => exact (Directories.reach_outcome_of_obstacle clear found way).2.symm

end Follows

end Climb

/-- A tree and the bubbles under way on it. -/
structure Bubbling where
  tree : Tree
  climbs : List Climb

namespace Bubbling

/-- One bubble, whichever it is, makes its next recomputation. -/
inductive Step : Bubbling → Bubbling → Prop
  | recompute {now : UInt64} {tree updated : Tree} {path : Path} {passed ahead : List Path}
      {earlier later : List Climb} (succeeded : (tree.recompute now path).value = .ok updated) :
      Step
        ⟨tree, earlier ++ ⟨passed, path :: ahead, .ok ()⟩ :: later⟩
        ⟨updated, earlier ++ ⟨passed ++ [path], ahead, .ok ()⟩ :: later⟩
  | stop {now : UInt64} {tree : Tree} {path : Path} {passed ahead : List Path}
      {earlier later : List Climb} {error : BubbleError}
      (failed : (tree.recompute now path).value = .error error) :
      Step
        ⟨tree, earlier ++ ⟨passed, path :: ahead, .ok ()⟩ :: later⟩
        ⟨tree, earlier ++ ⟨passed, [], .error error⟩ :: later⟩

/-- Any number of steps, in any order of the bubbles. -/
abbrev Runs : Bubbling → Bubbling → Prop := Relation.ReflTransGen Step

def start (tree : Tree) (starts : List Path) : Bubbling :=
  { tree := tree, climbs := starts.map Climb.start }

def Finished (state : Bubbling) : Prop := ∀ climb ∈ state.climbs, climb.ahead = []

/-- The bubbles that began together on a tree have all ended in this state. -/
structure EndsIn (tree : Tree) (starts : List Path) (final : Bubbling) : Prop where
  runs : (start tree starts).Runs final
  finished : final.Finished

def results (state : Bubbling) : List (Except BubbleError Unit) := state.climbs.map Climb.result

/-- Some bubble makes its next recomputation here. -/
def Awaits (state : Bubbling) (path : Path) : Prop :=
  ∃ climb ∈ state.climbs, ∃ ahead, climb.ahead = path :: ahead

/-- Some bubble has recomputed this directory. -/
def HasRecomputed (state : Bubbling) (path : Path) : Prop :=
  ∃ climb ∈ state.climbs, path ∈ climb.passed

/-! ### The invariant -/

/-- What holds at every moment of the bubbles that began together on a tree. -/
structure Consistent (tree : Tree) (starts : List Path) (state : Bubbling) : Prop where
  follows : List.Forall₂ (fun start climb => climb.Follows tree.directories start) starts
    state.climbs
  contents : tree.directories.AgreeOn Directory.contents state.tree.directories
  untouched : ∀ path, ¬state.HasRecomputed path →
    state.tree.directories.get? path = tree.directories.get? path
  upToDate : ∀ path, state.HasRecomputed path →
    state.tree.directories.UpToDate path ∨ state.Awaits path
  counted : state.tree.recomputations =
    tree.recomputations + (state.climbs.map fun climb => climb.passed.length).sum

private theorem mem_middle {α : Type} {item other : α} {earlier later : List α} :
    item ∈ earlier ++ other :: later ↔ item = other ∨ item ∈ earlier ++ later :=
  List.perm_middle.mem_iff.trans List.mem_cons

private theorem exists_middle {α : Type} {property : α → Prop} {other : α}
    {earlier later : List α} :
    (∃ item ∈ earlier ++ other :: later, property item) ↔
      property other ∨ ∃ item ∈ earlier ++ later, property item := by
  simp only [mem_middle, exists_eq_or_imp]

private theorem forall₂_replace {α β : Type} {relation : α → β → Prop} {lefts : List α}
    {earlier later : List β} {old new : β}
    (related : List.Forall₂ relation lefts (earlier ++ old :: later))
    (replace : ∀ left, relation left old → relation left new) :
    List.Forall₂ relation lefts (earlier ++ new :: later) := by
  induction earlier generalizing lefts with
  | nil =>
      cases related with
      | cons here rest => exact .cons (replace _ here) rest
  | cons first others inductionHypothesis =>
      cases related with
      | cons here rest => exact .cons here (inductionHypothesis rest)

private theorem exists_of_forall₂ {α β : Type} {relation : α → β → Prop} {lefts : List α}
    {rights : List β} (related : List.Forall₂ relation lefts rights) {right : β}
    (member : right ∈ rights) : ∃ left ∈ lefts, relation left right := by
  induction related with
  | nil => cases member
  | cons here _ inductionHypothesis =>
      rcases List.mem_cons.mp member with rfl | later
      · exact ⟨_, List.mem_cons_self, here⟩
      · obtain ⟨left, leftMember, holds⟩ := inductionHypothesis later
        exact ⟨left, List.mem_cons_of_mem _ leftMember, holds⟩

private theorem map_eq_of_forall₂ {α β γ : Type} {relation : α → β → Prop} {lefts : List α}
    {rights : List β} {expected : α → γ} {actual : β → γ}
    (related : List.Forall₂ relation lefts rights)
    (same : ∀ left, ∀ right ∈ rights, relation left right → actual right = expected left) :
    rights.map actual = lefts.map expected := by
  induction related with
  | nil => rfl
  | cons here _ inductionHypothesis =>
      obtain ⟨_, sameLater⟩ :=
        forall_and.mp fun left => List.forall_mem_cons.mp (same left)
      rw [List.map_cons, List.map_cons, same _ _ List.mem_cons_self here,
        inductionHypothesis sameLater]

namespace Consistent

variable {tree before updated : Tree} {starts : List Path} {state next : Bubbling}
variable {now : UInt64} {path : Path} {passed ahead : List Path} {earlier later : List Climb}

protected theorem start (tree : Tree) (starts : List Path) :
    Consistent tree starts (Bubbling.start tree starts) where
  follows := by
    rw [Bubbling.start, List.forall₂_map_right_iff, List.forall₂_same]
    intro start _
    exact .climbing (by simp) (List.nil_append _)
  contents := Directories.AgreeOn.refl _
  untouched := fun _ _ => rfl
  upToDate := by
    intro path ⟨climb, member, passed⟩
    obtain ⟨start, _, same⟩ := List.mem_map.mp member
    rw [← same] at passed
    cases passed
  counted := by
    have none : ((Bubbling.start tree starts).climbs.map fun climb => climb.passed.length).sum =
        0 := by
      simp [Bubbling.start, Climb.start, Function.comp_def]
    rw [none]
    rfl

theorem clear (consistent : Consistent tree starts state) (recomputed : state.HasRecomputed path) :
    tree.directories.obstacle? path = none := by
  obtain ⟨climb, member, passed⟩ := recomputed
  obtain ⟨start, _, follows⟩ := exists_of_forall₂ consistent.follows member
  exact follows.clear path passed

theorem obstacle?_eq (consistent : Consistent tree starts state) (path : Path) :
    state.tree.directories.obstacle? path = tree.directories.obstacle? path :=
  (Directories.obstacle?_congr consistent.contents path).symm

section Recompute

private theorem hasRecomputed_recompute {other : Path} :
    HasRecomputed ⟨updated, earlier ++ ⟨passed ++ [path], ahead, .ok ()⟩ :: later⟩ other ↔
      other = path ∨
        HasRecomputed ⟨before, earlier ++ ⟨passed, path :: ahead, .ok ()⟩ :: later⟩ other := by
  unfold HasRecomputed
  rw [exists_middle, exists_middle, List.mem_append, List.mem_singleton]
  exact or_assoc.trans or_left_comm

variable (consistent : Consistent tree starts
  ⟨before, earlier ++ ⟨passed, path :: ahead, .ok ()⟩ :: later⟩)
variable (recomputed : Tree.Recomputed now before path updated)

include consistent recomputed

private theorem follows_recompute :
    List.Forall₂ (fun start climb => climb.Follows tree.directories start) starts
      (earlier ++ ⟨passed ++ [path], ahead, .ok ()⟩ :: later) := by
  refine forall₂_replace consistent.follows fun start follows => ?_
  cases follows with
  | climbing passedClear way =>
      refine .climbing ?_ (by rw [List.append_assoc, List.singleton_append, way])
      intro other member
      rcases List.mem_append.mp member with old | new
      · exact passedClear other old
      · rw [List.mem_singleton.mp new, ← consistent.obstacle?_eq]
        exact recomputed.clear

/-- A recomputation keeps what was up to date, except that its bubble now awaits
the parent. -/
private theorem upToDate_recompute {other : Path} (different : other ≠ path)
    (fresh : before.directories.UpToDate other ∨
      Awaits ⟨before, earlier ++ ⟨passed, path :: ahead, .ok ()⟩ :: later⟩ other) :
    updated.directories.UpToDate other ∨
      Awaits ⟨updated, earlier ++ ⟨passed ++ [path], ahead, .ok ()⟩ :: later⟩ other := by
  unfold Awaits at fresh ⊢
  rw [exists_middle] at fresh ⊢
  rcases fresh with fresh | ⟨rest, next⟩ | elsewhere
  · by_cases above : path.parent = .ok other
    · obtain ⟨start, _, follows⟩ :=
        exists_of_forall₂ consistent.follows (mem_middle.mpr (Or.inl rfl))
      have chain := follows.chain_eq rfl
      obtain ⟨notRoot, same⟩ := Path.parent_eq_ok_iff.mp above
      rw [Path.chain_of_ne_root notRoot, List.cons.injEq, same] at chain
      exact Or.inr (Or.inl ⟨_, chain.2.symm⟩)
    · exact Or.inl (recomputed.upToDate_of_ne different above fresh)
  · cases next
    exact absurd rfl different
  · exact Or.inr (Or.inr elsewhere)

theorem recompute :
    Consistent tree starts
      ⟨updated, earlier ++ ⟨passed ++ [path], ahead, .ok ()⟩ :: later⟩ where
  follows := consistent.follows_recompute recomputed
  contents := consistent.contents.trans recomputed.contents
  untouched := by
    intro other fresh
    rw [hasRecomputed_recompute, not_or] at fresh
    rw [recomputed.others other fresh.1]
    exact consistent.untouched other fresh.2
  upToDate := by
    intro other done
    by_cases same : other = path
    · rw [same]
      exact Or.inl recomputed.upToDate
    · refine consistent.upToDate_recompute recomputed same (consistent.upToDate other ?_)
      exact (hasRecomputed_recompute.mp done).resolve_left same
  counted := by
    have counted := consistent.counted
    simp only [List.map_append, List.map_cons, List.sum_append, List.sum_cons,
      List.length_append, List.length_singleton] at counted ⊢
    rw [recomputed.counted, counted]
    omega

end Recompute

section Stop

variable {error : BubbleError}

private theorem hasRecomputed_stop {other : Path} :
    HasRecomputed ⟨before, earlier ++ ⟨passed, [], .error error⟩ :: later⟩ other ↔
      HasRecomputed ⟨before, earlier ++ ⟨passed, path :: ahead, .ok ()⟩ :: later⟩ other := by
  unfold HasRecomputed
  rw [exists_middle, exists_middle]

theorem stop
    (consistent : Consistent tree starts
      ⟨before, earlier ++ ⟨passed, path :: ahead, .ok ()⟩ :: later⟩)
    (found : before.directories.obstacle? path = some error) :
    Consistent tree starts ⟨before, earlier ++ ⟨passed, [], .error error⟩ :: later⟩ where
  follows := by
    refine forall₂_replace consistent.follows fun start follows => ?_
    cases follows with
    | climbing clear way =>
        refine .stopped clear ?_ way
        rw [← consistent.obstacle?_eq]
        exact found
  contents := consistent.contents
  untouched := fun other fresh => consistent.untouched other (mt hasRecomputed_stop.mpr fresh)
  upToDate := by
    intro other done
    have doneBefore :
        HasRecomputed ⟨before, earlier ++ ⟨passed, path :: ahead, .ok ()⟩ :: later⟩ other :=
      hasRecomputed_stop.mp done
    have otherClear := consistent.clear doneBefore
    rcases consistent.upToDate other doneBefore with fresh | awaited
    · exact Or.inl fresh
    · unfold Awaits at awaited ⊢
      rw [exists_middle] at awaited ⊢
      rcases awaited with ⟨rest, next⟩ | elsewhere
      · cases next
        rw [← consistent.obstacle?_eq, found] at otherClear
        cases otherClear
      · exact Or.inr (Or.inr elsewhere)
  counted := by
    have counted := consistent.counted
    simp only [List.map_append, List.map_cons] at counted ⊢
    exact counted

end Stop

theorem step (consistent : Consistent tree starts state) (step : state.Step next) :
    Consistent tree starts next := by
  cases step with
  | recompute succeeded => exact consistent.recompute (Tree.recomputed_of_ok succeeded)
  | stop failed => exact consistent.stop (Tree.obstacle_of_error failed)

theorem of_runs (runs : Runs (Bubbling.start tree starts) state) :
    Consistent tree starts state := by
  induction runs with
  | refl => exact Consistent.start tree starts
  | tail _ last inductionHypothesis => exact inductionHypothesis.step last

/-- As long as a bubble is under way, some step can be made. -/
theorem exists_step (consistent : Consistent tree starts state) (unfinished : ¬state.Finished) :
    ∃ after, Step state after := by
  obtain ⟨current, climbs⟩ := state
  have unfinishedClimb : ∃ climb ∈ climbs, climb.ahead ≠ [] := by
    by_contra none
    apply unfinished
    intro climb member
    by_contra nonempty
    exact none ⟨climb, member, nonempty⟩
  obtain ⟨climb, member, nonempty⟩ := unfinishedClimb
  obtain ⟨start, _, follows⟩ := exists_of_forall₂ consistent.follows member
  obtain ⟨earlier, later, split⟩ := List.append_of_mem member
  rw [split]
  cases follows with
  | stopped _ _ _ => exact absurd rfl nonempty
  | @climbing passed ahead _ _ =>
      cases ahead with
      | nil => exact absurd rfl nonempty
      | cons path rest =>
          cases attempted : (current.recompute 0 path).value with
          | ok updated => exact ⟨_, .recompute attempted⟩
          | error error => exact ⟨_, .stop attempted⟩

/-! ### The end of all bubbles -/

theorem results_eq (consistent : Consistent tree starts state) (finished : state.Finished) :
    state.results = starts.map tree.directories.outcome :=
  map_eq_of_forall₂ consistent.follows fun _ climb member follows =>
    follows.result_eq (finished climb member)

theorem passed_eq (consistent : Consistent tree starts state) (finished : state.Finished) :
    state.climbs.map Climb.passed = starts.map tree.directories.reach :=
  map_eq_of_forall₂ consistent.follows fun _ climb member follows =>
    follows.passed_eq (finished climb member)

theorem recomputations_eq (consistent : Consistent tree starts state)
    (finished : state.Finished) :
    state.tree.recomputations =
      tree.recomputations + (starts.map fun start => (tree.directories.reach start).length).sum := by
  have same := congrArg (List.map List.length) (consistent.passed_eq finished)
  rw [List.map_map, List.map_map] at same
  rw [consistent.counted]
  exact congrArg (fun lengths => tree.recomputations + lengths.sum) same

theorem hasRecomputed_iff (consistent : Consistent tree starts state)
    (finished : state.Finished) (path : Path) :
    state.HasRecomputed path ↔ ∃ start ∈ starts, path ∈ tree.directories.reach start := by
  have same : (∃ way ∈ state.climbs.map Climb.passed, path ∈ way) ↔
      ∃ way ∈ starts.map tree.directories.reach, path ∈ way := by
    rw [consistent.passed_eq finished]
  simp only [List.mem_map, exists_exists_and_eq_and] at same
  exact same

/-- When every bubble has ended, what they reached is up to date. -/
theorem settled (consistent : Consistent tree starts state) (finished : state.Finished) :
    tree.directories.Settled state.HasRecomputed state.tree.directories where
  contents := consistent.contents
  untouched := consistent.untouched
  upToDate := by
    intro path recomputed
    rcases consistent.upToDate path recomputed with fresh | ⟨waiting, present, ahead, next⟩
    · exact fresh
    · rw [finished waiting present] at next
      cases next

end Consistent

/-! ### One bubble after the other -/

theorem runs_recomputeAll (clock : Clock) (earlier later : List Climb) (ahead passed : List Path)
    (tree : Tree) :
    ∃ reached, Runs ⟨tree, earlier ++ ⟨passed, ahead, .ok ()⟩ :: later⟩
      ⟨(tree.recomputeAll clock ahead).value.1,
        earlier ++ ⟨reached, [], (tree.recomputeAll clock ahead).value.2⟩ :: later⟩ := by
  induction ahead generalizing passed tree with
  | nil => exact ⟨passed, .refl⟩
  | cons path rest inductionHypothesis =>
      cases attempted : (tree.recompute (clock.reading tree.recomputations) path).value with
      | error error =>
          have ended : (tree.recomputeAll clock (path :: rest)).value = (tree, .error error) := by
            simp [Tree.recomputeAll, attempted]
          rw [ended]
          exact ⟨passed, .single (.stop attempted)⟩
      | ok updated =>
          have goesOn : (tree.recomputeAll clock (path :: rest)).value =
              (updated.recomputeAll clock rest).value := by
            simp [Tree.recomputeAll, attempted]
          rw [goesOn]
          obtain ⟨reached, runs⟩ := inductionHypothesis (passed ++ [path]) updated
          exact ⟨reached, .head (.recompute attempted) runs⟩

/-- Bubbling from one directory after the other is one of the interleavings. -/
theorem runs_bubbleEach (clock : Clock) (starts : List Path) (earlier : List Climb) (tree : Tree)
    (earlierFinished : ∀ climb ∈ earlier, climb.ahead = []) :
    ∃ climbs, Runs ⟨tree, earlier ++ starts.map Climb.start⟩
        ⟨(Tracker.bubbleEach (Tree.bubbleFrom clock) starts tree).value.1, earlier ++ climbs⟩ ∧
      (∀ climb ∈ earlier ++ climbs, climb.ahead = []) ∧
      (Tracker.bubbleEach (Tree.bubbleFrom clock) starts tree).value.2 =
        Tracker.failuresOf starts (climbs.map Climb.result) := by
  induction starts generalizing earlier tree with
  | nil =>
      refine ⟨[], .refl, ?_, rfl⟩
      rw [List.append_nil]
      exact earlierFinished
  | cons path rest inductionHypothesis =>
      obtain ⟨reached, first⟩ :=
        runs_recomputeAll clock earlier (rest.map Climb.start) path.chain [] tree
      let ended : Climb :=
        { passed := reached, ahead := [], result := (tree.bubbleFrom clock path).value.2 }
      have endedFinished : ∀ climb ∈ earlier ++ [ended], climb.ahead = [] := by
        intro climb member
        rcases List.mem_append.mp member with before | here
        · exact earlierFinished climb before
        · rw [List.mem_singleton.mp here]
      obtain ⟨climbs, others, finished, failures⟩ :=
        inductionHypothesis (earlier ++ [ended]) (tree.bubbleFrom clock path).value.1 endedFinished
      simp only [List.append_assoc, List.singleton_append] at others finished
      rw [Tracker.value_bubbleEach_cons, failures]
      exact ⟨ended :: climbs, first.trans others, finished, rfl⟩

theorem endsIn_bubbleEach (clock : Clock) (tree : Tree) (starts : List Path) :
    ∃ final, EndsIn tree starts final ∧
      (Tracker.bubbleEach (Tree.bubbleFrom clock) starts tree).value =
        (final.tree, Tracker.failuresOf starts final.results) := by
  obtain ⟨climbs, runs, finished, failures⟩ :=
    runs_bubbleEach clock starts [] tree (fun _ impossible => by cases impossible)
  exact ⟨_, ⟨runs, finished⟩, Prod.ext rfl failures⟩

/-- The recomputations that the bubbles may still make. -/
def remaining (state : Bubbling) : Nat := (state.climbs.map fun climb => climb.ahead.length).sum

theorem Step.remaining_lt {before after : Bubbling} (step : Step before after) :
    after.remaining < before.remaining := by
  cases step with
  | recompute _ =>
      simp only [remaining, List.map_append, List.map_cons, List.sum_append, List.sum_cons,
        List.length_cons]
      omega
  | stop _ =>
      simp only [remaining, List.map_append, List.map_cons, List.sum_append, List.sum_cons,
        List.length_cons, List.length_nil]
      omega

/-- However the bubbles went so far, they come to an end, and no order of their
steps goes on forever. -/
theorem exists_endsIn_of_runs {tree : Tree} {starts : List Path} {state : Bubbling}
    (runs : (start tree starts).Runs state) :
    ∃ final, state.Runs final ∧ EndsIn tree starts final := by
  induction ahead : state.remaining using Nat.strongRecOn generalizing state with
  | ind steps inductionHypothesis =>
      by_cases finished : state.Finished
      · exact ⟨state, .refl, runs, finished⟩
      · obtain ⟨after, step⟩ := (Consistent.of_runs runs).exists_step finished
        have fewer := step.remaining_lt
        rw [ahead] at fewer
        obtain ⟨final, rest, ends⟩ := inductionHypothesis _ fewer (runs.tail step) rfl
        exact ⟨final, .head step rest, ends⟩

namespace EndsIn

variable {tree : Tree} {starts : List Path} {final : Bubbling}

theorem consistent (ends : EndsIn tree starts final) : Consistent tree starts final :=
  Consistent.of_runs ends.runs

theorem results_eq (ends : EndsIn tree starts final) :
    final.results = starts.map tree.directories.outcome :=
  ends.consistent.results_eq ends.finished

theorem recomputations_eq (ends : EndsIn tree starts final) :
    final.tree.recomputations =
      tree.recomputations + (starts.map fun start => (tree.directories.reach start).length).sum :=
  ends.consistent.recomputations_eq ends.finished

theorem hasRecomputed_iff (ends : EndsIn tree starts final) (path : Path) :
    final.HasRecomputed path ↔ ∃ start ∈ starts, path ∈ tree.directories.reach start :=
  ends.consistent.hasRecomputed_iff ends.finished path

theorem settled (ends : EndsIn tree starts final) :
    tree.directories.Settled (fun path => ∃ start ∈ starts, path ∈ tree.directories.reach start)
      final.tree.directories :=
  (ends.consistent.settled ends.finished).congr ends.hasRecomputed_iff

end EndsIn

end Bubbling

namespace Tree

theorem value_bubbleEach (clock : Clock) (tree : Tree) (starts : List Path) :
    let sequential := (Tracker.bubbleEach (Tree.bubbleFrom clock) starts tree).value
    tree.directories.Settled (fun path => ∃ start ∈ starts, path ∈ tree.directories.reach start)
        sequential.1.directories ∧
      sequential.1.recomputations = tree.recomputations +
        (starts.map fun start => (tree.directories.reach start).length).sum ∧
      sequential.2 = Tracker.failuresOf starts (starts.map tree.directories.outcome) := by
  intro sequential
  obtain ⟨final, ends, same⟩ := Bubbling.endsIn_bubbleEach clock tree starts
  have sequentialEq : sequential = _ := same
  rw [sequentialEq]
  refine ⟨ends.settled, ends.recomputations_eq, ?_⟩
  rw [ends.results_eq]

theorem value_bubbleFrom (clock : Clock) (tree : Tree) (start : Path) :
    let bubbled := (tree.bubbleFrom clock start).value
    tree.directories.Settled (fun path => path ∈ tree.directories.reach start)
        bubbled.1.directories ∧
      bubbled.1.recomputations = tree.recomputations + (tree.directories.reach start).length ∧
      bubbled.2 = tree.directories.outcome start := by
  intro bubbled
  obtain ⟨reached, runs⟩ := Bubbling.runs_recomputeAll clock [] [] start.chain [] tree
  have ends : Bubbling.EndsIn tree [start] ⟨bubbled.1, [⟨reached, [], bubbled.2⟩]⟩ := by
    refine ⟨runs, fun climb member => ?_⟩
    rw [List.mem_singleton.mp member]
  refine ⟨ends.settled.congr (by simp), ?_, ?_⟩
  · have counted := ends.recomputations_eq
    rw [List.map_singleton, List.sum_singleton] at counted
    exact counted
  · exact (List.cons.inj ends.results_eq).1

end Tree

namespace Bubbling

/-- Bubbles at once end like bubbles one after the other, whatever the order of
their steps.  The totals they leave, but for the times, depend only on where
bubbles began, and the same bubbles change nothing when they run again. -/
theorem interleavings_agree {tree : Tree} {starts : List Path} {final : Bubbling}
    (ends : EndsIn tree starts final) :
    (∀ clock, final.results = starts.map fun start => (tree.bubbleFrom clock start).value.2) ∧
      (∀ clock, let sequential := (Tracker.bubbleEach (Tree.bubbleFrom clock) starts tree).value
        final.tree.directories.AgreeOn Directory.untimed sequential.1.directories ∧
          final.tree.recomputations = sequential.1.recomputations ∧
          Tracker.failuresOf starts final.results = sequential.2) ∧
      (∀ others otherFinal, (∀ path, path ∈ others ↔ path ∈ starts) →
        EndsIn tree others otherFinal →
        otherFinal.tree.directories.AgreeOn Directory.untimed final.tree.directories) ∧
      ∀ others again, (∀ path, path ∈ others ↔ path ∈ starts) →
        EndsIn final.tree others again →
        again.tree.directories.AgreeOn Directory.untimed final.tree.directories := by
  have sameReach (others : List Path) (same : ∀ path, path ∈ others ↔ path ∈ starts) (path : Path) :
      (∃ start ∈ others, path ∈ tree.directories.reach start) ↔
        ∃ start ∈ starts, path ∈ tree.directories.reach start := by
    simp only [same]
  refine ⟨fun clock => ?_, fun clock => ?_, ?_, ?_⟩
  · rw [ends.results_eq]
    exact List.map_congr_left fun start _ => (tree.value_bubbleFrom clock start).2.2.symm
  · obtain ⟨sequentialSettled, counted, failures⟩ := tree.value_bubbleEach clock starts
    refine ⟨ends.settled.unique sequentialSettled, ?_, ?_⟩
    · rw [counted, ends.recomputations_eq]
    · rw [failures, ends.results_eq]
  · intro others otherFinal same otherEnds
    exact (otherEnds.settled.congr (sameReach others same)).unique ends.settled
  · intro others again same againEnds
    have unchanged : final.tree.directories.reach = tree.directories.reach := by
      funext start
      unfold Directories.reach
      simp only [ends.consistent.obstacle?_eq]
    have againSettled := againEnds.settled
    rw [unchanged] at againSettled
    exact (againSettled.congr (sameReach others same)).unique ends.settled.again

/-- A tree with a listed directory that is missing and a directory whose parent
is missing. -/
private def gappedTree : Tree :=
  Tree.ofDirectories (OrderedMap.ofList
    [(Path.root, { Directory.empty with subdirs := OrderedSet.ofMembers ["a", "gone"] }),
      (⟨"a"⟩, Directory.empty.putFile "f" ⟨3, Binary64.zero, Binary64.one⟩),
      (⟨"b/c"⟩, Directory.empty)])

theorem interleavings_agree_gapped :
    ∃ final, EndsIn gappedTree [⟨"b/c"⟩, ⟨"a"⟩, ⟨"a"⟩] final ∧
      final.results = [.error (.unknownDirectory ⟨"b"⟩), .ok (), .ok ()] := by
  obtain ⟨final, ends, _⟩ := endsIn_bubbleEach (.still 0) gappedTree [⟨"b/c"⟩, ⟨"a"⟩, ⟨"a"⟩]
  refine ⟨final, ends, ?_⟩
  rw [(interleavings_agree ends).1 (.still 0)]
  decide

end Bubbling

end Rollup

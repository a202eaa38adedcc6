/-
Bubbles that are stopped on their way.

A bubble gets past a directory that is in the tree and lists segments only; this
is a matter of contents, so it can be read off the tree before the bubble starts.
What the bubble recomputed until then stays, each directory from the totals that
the nearer ones had just been given.
-/

import Rollup.Proofs.Interleaving
import Rollup.Proofs.TextOrder

namespace Rollup

/-- Of the names that are no segments, this one has the first bytes. -/
structure FirstNonSegment (names : OrderedSet String) (name : String) : Prop where
  listed : name ∈ names
  noSegment : ¬Path.IsSegment name
  first : ∀ other ∈ names, ¬Path.IsSegment other → other ≠ name → textBytes name < textBytes other

theorem FirstNonSegment.of_split {names : OrderedSet String} {earlier later : List String}
    {name : String} (split : names.members = earlier ++ name :: later)
    (segments : ∀ other ∈ earlier, Path.IsSegment other) (noSegment : ¬Path.IsSegment name) :
    FirstNonSegment names name where
  listed := by
    rw [← OrderedSet.mem_members_iff, split]
    exact List.mem_append_right earlier List.mem_cons_self
  noSegment := noSegment
  first := by
    intro other otherListed otherNoSegment different
    have ordered : names.members.Pairwise fun left right => compare left right = .lt :=
      List.pairwise_map.mpr names.ordered
    rw [split] at ordered
    rw [← OrderedSet.mem_members_iff, split, List.mem_append, List.mem_cons] at otherListed
    rcases otherListed with before | same | behind
    · exact absurd (segments other before) otherNoSegment
    · exact absurd same different
    · obtain ⟨_, fromName, _⟩ := List.pairwise_append.mp ordered
      exact textBytes_lt ((List.pairwise_cons.mp fromName).1 other behind)

namespace Directories

variable {directories : Directories} {path : Path}

/-- A bubble gets past the directories that are in the tree and list segments
only. -/
def passable (directories : Directories) (path : Path) : Bool :=
  match directories.get? path with
  | none => false
  | some node => node.subdirs.members.all fun name => Path.IsSegment name

theorem passable_iff {node : Directory} (found : directories.get? path = some node) :
    directories.passable path = true ↔ ∀ name ∈ node.subdirs.members, Path.IsSegment name := by
  simp only [passable, found, List.all_eq_true, decide_eq_true_eq]

theorem obstacle?_of_passable (passes : directories.passable path = true) :
    directories.obstacle? path = none := by
  unfold obstacle?
  cases found : directories.get? path with
  | none => simp [passable, found] at passes
  | some node =>
      obtain ⟨children, joined⟩ := Path.exists_joinAll ((passable_iff found).mp passes) path
      simp only [joined]

/-- What stops a bubble at a directory in the tree is the first name there that
is no segment. -/
theorem obstacle?_of_not_passable {node : Directory} (found : directories.get? path = some node)
    (stops : directories.passable path ≠ true) :
    ∃ name cause, FirstNonSegment node.subdirs name ∧ path.join name = .error cause ∧
      directories.obstacle? path = some (.malformedPath path cause) := by
  rcases path.joinAll_cases node.subdirs.members with
    ⟨segments, _⟩ | ⟨earlier, name, later, cause, split, segments, nameJoined, failed⟩
  · exact absurd ((passable_iff found).mpr segments) stops
  · refine ⟨name, cause, ?_, nameJoined, ?_⟩
    · exact .of_split split segments (Path.not_isSegment_of_join nameJoined)
    · rw [obstacle?, found]
      simp only [failed]

theorem obstacle?_eq_none_iff :
    directories.obstacle? path = none ↔ directories.passable path = true := by
  refine ⟨fun clear => ?_, obstacle?_of_passable⟩
  by_contra stops
  obtain ⟨node, found⟩ := OrderedMap.mem_iff_get?.mp (mem_of_obstacle?_eq_none clear)
  obtain ⟨name, cause, _, _, obstacle⟩ := obstacle?_of_not_passable found stops
  rw [clear] at obstacle
  cases obstacle

/-- No bubble gets past this directory: it is absent, or it lists a name that is no
segment. -/
def Obstructed (directories : Directories) (path : Path) : Prop :=
  path ∉ directories ∨
    ∃ node name, directories.get? path = some node ∧ name ∈ node.subdirs ∧
      ∃ cause, path.join name = .error cause

theorem obstructed_iff : directories.Obstructed path ↔ directories.obstacle? path ≠ none := by
  rw [ne_eq, obstacle?_eq_none_iff]
  constructor
  · rintro (absent | ⟨node, name, found, listed, cause, failed⟩) passes
    · exact absent (mem_of_obstacle?_eq_none (obstacle?_of_passable passes))
    · have segment := (passable_iff found).mp passes name (OrderedSet.mem_members_iff.mpr listed)
      exact Path.not_isSegment_of_join failed segment
  · intro stops
    by_cases present : path ∈ directories
    · obtain ⟨node, found⟩ := OrderedMap.mem_iff_get?.mp present
      obtain ⟨name, cause, first, failed, _⟩ := obstacle?_of_not_passable found stops
      exact Or.inr ⟨node, name, found, first.listed, cause, failed⟩
    · exact Or.inl present

theorem outcome_eq_ok_iff {start : Path} :
    directories.outcome start = .ok () ↔ ∀ path ∈ start.chain, ¬directories.Obstructed path := by
  simp only [obstructed_iff, not_not]
  rw [← List.findSome?_eq_none_iff, outcome]
  cases start.chain.findSome? directories.obstacle? <;> simp

theorem reach_eq_takeWhile (directories : Directories) (start : Path) :
    directories.reach start = start.chain.takeWhile directories.passable := by
  have same (path : Path) :
      (directories.obstacle? path).isNone = directories.passable path :=
    Bool.eq_iff_iff.mpr (Option.isNone_iff_eq_none.trans obstacle?_eq_none_iff)
  simp only [reach, same]

theorem clear_of_mem_takeWhile {start : Path}
    (member : path ∈ start.chain.takeWhile directories.passable) :
    directories.obstacle? path = none :=
  obstacle?_of_passable (List.mem_takeWhile_imp member)

theorem outcome_eq_ok_iff_takeWhile {start : Path} :
    directories.outcome start = .ok () ↔
      start.chain.takeWhile directories.passable = start.chain := by
  simp only [outcome_eq_ok_iff, obstructed_iff, not_not, obstacle?_eq_none_iff,
    List.takeWhile_eq_self_iff]

/-- The first directory that the bubble cannot get past decides the error. -/
theorem outcome_of_split {start stopped : Path} {rest : List Path}
    (split : start.chain = start.chain.takeWhile directories.passable ++ stopped :: rest) :
    (stopped ∉ directories → directories.outcome start = .error (.unknownDirectory stopped)) ∧
      ∀ node, directories.get? stopped = some node →
        ∃ name cause, FirstNonSegment node.subdirs name ∧ stopped.join name = .error cause ∧
          directories.outcome start = .error (.malformedPath stopped cause) := by
  have atObstacle {error : BubbleError} (found : directories.obstacle? stopped = some error) :
      directories.outcome start = .error error :=
    (reach_outcome_of_obstacle (fun _ => clear_of_mem_takeWhile) found split.symm).2
  have stops : directories.passable stopped ≠ true := by
    intro passes
    have longer := congrArg (List.takeWhile directories.passable) split
    rw [List.takeWhile_append_of_pos (fun _ => List.mem_takeWhile_imp),
      List.takeWhile_cons_of_pos passes, List.self_eq_append_right] at longer
    cases longer
  refine ⟨fun absent => ?_, fun node found => ?_⟩
  · exact atObstacle (obstacle?_of_not_mem absent)
  · obtain ⟨name, cause, first, failed, obstacle⟩ := obstacle?_of_not_passable found stops
    exact ⟨name, cause, first, failed, atObstacle obstacle⟩

end Directories

namespace Tree

variable {clock : Clock} {tree : Tree}

theorem get?_recomputeAll (clock : Clock) (tree : Tree) {paths : List Path} {path : Path}
    (elsewhere : path ∉ paths) :
    (tree.recomputeAll clock paths).value.1.directories.get? path = tree.directories.get? path := by
  induction paths generalizing tree with
  | nil => rfl
  | cons first rest inductionHypothesis =>
      obtain ⟨different, notInRest⟩ := List.ne_and_not_mem_of_not_mem_cons elsewhere
      rw [recomputeAll, Logged.value_bind]
      cases attempted : (tree.recompute (clock.reading tree.recomputations) first).value with
      | error error => rfl
      | ok updated =>
          have step := recomputed_of_ok attempted
          exact (inductionHypothesis updated notInRest).trans (step.others path different)

theorem recomputeAll_append {earlier : List Path} {midway : Tree}
    (succeeded : (tree.recomputeAll clock earlier).value = (midway, .ok ())) (later : List Path) :
    (tree.recomputeAll clock (earlier ++ later)).value =
      (midway.recomputeAll clock later).value := by
  induction earlier generalizing tree with
  | nil =>
      cases succeeded
      rfl
  | cons first rest inductionHypothesis =>
      rw [List.cons_append, recomputeAll, Logged.value_bind]
      rw [recomputeAll, Logged.value_bind] at succeeded
      cases attempted : (tree.recompute (clock.reading tree.recomputations) first).value with
      | error error =>
          rw [attempted] at succeeded
          cases succeeded
      | ok updated =>
          rw [attempted] at succeeded
          exact inductionHypothesis succeeded

theorem recomputeAll_of_clear {paths : List Path}
    (clear : ∀ path ∈ paths, tree.directories.obstacle? path = none) (clock : Clock) :
    ∃ midway, (tree.recomputeAll clock paths).value = (midway, .ok ()) ∧
      tree.directories.AgreeOn Directory.contents midway.directories := by
  induction paths generalizing tree with
  | nil => exact ⟨tree, rfl, .refl _⟩
  | cons first rest inductionHypothesis =>
      obtain ⟨here, later⟩ := List.forall_mem_cons.mp clear
      obtain ⟨updated, computed, step⟩ :=
        recompute_of_clear here (clock.reading tree.recomputations)
      have stillClear : ∀ path ∈ rest, updated.directories.obstacle? path = none := by
        intro path member
        rw [← Directories.obstacle?_congr step.contents path]
        exact later path member
      obtain ⟨midway, rest, contents⟩ := inductionHypothesis stillClear
      refine ⟨midway, ?_, step.contents.trans contents⟩
      rw [recomputeAll, Logged.value_bind, computed]
      exact rest

/-- A directory on the way gets its totals when those nearer to the start have
theirs, and keeps them while the bubble goes on. -/
theorem get?_recomputeAll_of_clear {nearer later : List Path} {path : Path} {node : Directory}
    (clear : ∀ passed ∈ nearer ++ [path], tree.directories.obstacle? passed = none)
    (distinct : (nearer ++ path :: later).Nodup) (found : tree.directories.get? path = some node)
    (clock : Clock) :
    ∃ midway, (tree.recomputeAll clock nearer).value = (midway, .ok ()) ∧
      (tree.recomputeAll clock (nearer ++ path :: later)).value.1.directories.get? path =
        some (node.setTotals (Totals.compute node.files.values
          (midway.directories.listedTotals path node) (clock.reading midway.recomputations))) := by
  obtain ⟨nearerClear, here⟩ := List.forall_mem_append.mp clear
  obtain ⟨midway, succeeded, contents⟩ := recomputeAll_of_clear nearerClear clock
  obtain ⟨fresh, _⟩ := List.nodup_cons.mp (List.perm_middle.nodup_iff.mp distinct)
  obtain ⟨notNearer, notLater⟩ := not_or.mp (mt List.mem_append.mpr fresh)
  have stillClear : midway.directories.obstacle? path = none := by
    rw [← Directories.obstacle?_congr contents path]
    exact here path (List.mem_singleton_self path)
  obtain ⟨updated, computed, step⟩ :=
    recompute_of_clear stillClear (clock.reading midway.recomputations)
  have midwayFound : midway.directories.get? path = some node := by
    have untouched := get?_recomputeAll clock tree notNearer
    rw [succeeded] at untouched
    rw [untouched, found]
  refine ⟨midway, succeeded, ?_⟩
  rw [recomputeAll_append succeeded, recomputeAll, Logged.value_bind, computed]
  exact (get?_recomputeAll clock updated notLater).trans (step.here node midwayFound)

/-- A bubble recomputes the directories on its way up to the first that it cannot
get past, and that one decides the error.  Each gets the totals of its files and
of what is stored, once the nearer ones are done, for those of its listed
subdirectories that exist; nothing else changes. -/
theorem bubbleFrom_stops_at_obstacle (tree : Tree) (start : Path) (clock : Clock) :
    let way := start.chain.takeWhile tree.directories.passable
    let bubbled := (tree.bubbleFrom clock start).value
    (bubbled.2 = .ok () ↔ way = start.chain) ∧
      (∀ stopped rest, start.chain = way ++ stopped :: rest →
        (stopped ∉ tree.directories → bubbled.2 = .error (.unknownDirectory stopped)) ∧
          ∀ node, tree.directories.get? stopped = some node →
            ∃ name cause, FirstNonSegment node.subdirs name ∧ stopped.join name = .error cause ∧
              bubbled.2 = .error (.malformedPath stopped cause)) ∧
      (∀ nearer path farther, way = nearer ++ path :: farther →
        ∃ node midway, tree.directories.get? path = some node ∧
          (tree.recomputeAll clock nearer).value = (midway, .ok ()) ∧
            bubbled.1.directories.get? path =
              some (node.setTotals (Totals.compute node.files.values
                (midway.directories.listedTotals path node)
                (clock.reading midway.recomputations)))) ∧
      bubbled.1.recomputations = tree.recomputations + way.length ∧
      ∀ path, path ∉ way → bubbled.1.directories.get? path = tree.directories.get? path := by
  intro way bubbled
  have wayEq : tree.directories.reach start = way := tree.directories.reach_eq_takeWhile start
  obtain ⟨settled, counted, result⟩ := tree.value_bubbleFrom clock start
  rw [wayEq] at settled counted
  refine ⟨?_, ?_, ?_, counted, settled.untouched⟩
  · rw [result]
    exact Directories.outcome_eq_ok_iff_takeWhile
  · intro stopped rest split
    rw [result]
    exact Directories.outcome_of_split split
  · intro nearer path farther split
    have whole : way ++ start.chain.dropWhile tree.directories.passable = start.chain :=
      List.takeWhile_append_dropWhile
    have clear : ∀ other ∈ nearer ++ [path], tree.directories.obstacle? other = none := by
      intro other member
      have onWay : other ∈ way := by
        rw [split, List.append_cons]
        exact List.mem_append_left farther member
      exact Directories.clear_of_mem_takeWhile onWay
    have here := clear path (List.mem_append_right nearer (List.mem_singleton_self path))
    obtain ⟨node, found⟩ := OrderedMap.mem_iff_get?.mp (Directories.mem_of_obstacle?_eq_none here)
    have distinct := start.nodup_chain
    rw [split, List.append_assoc, List.cons_append] at whole
    rw [← whole] at distinct
    obtain ⟨midway, succeeded, computed⟩ := get?_recomputeAll_of_clear clear distinct found clock
    rw [whole] at computed
    exact ⟨node, midway, found, succeeded, computed⟩

/-- Two listed names are no segments; the bubble is stopped by the one with the
smaller bytes. -/
example :
    let tree := Tree.ofDirectories (OrderedMap.ofList
      [(⟨"a"⟩, { Directory.empty with subdirs := OrderedSet.ofMembers ["b/c", "b", ".."] }),
        (⟨"a/b"⟩, Directory.empty)])
    let bubbled := (tree.bubbleFrom (.still 1) ⟨"a/b"⟩).value
    bubbled.2 = .error (.malformedPath ⟨"a"⟩ (.relativeSegment "a/.." "..")) ∧
      bubbled.1.recomputations = 1 := by
  decide

end Tree
end Rollup

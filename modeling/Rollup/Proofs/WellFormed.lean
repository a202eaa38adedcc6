/-
Well-formed trees.

In a well-formed tree the directories are closed under parents and every
directory lists exactly its children.  Creating the missing directories of a
well-formed path keeps a tree well formed, and a bubble in a well-formed tree
always arrives at the root.
-/

import Rollup.Proofs.Interleaving

namespace Rollup
namespace Directories

structure WellFormed (directories : Directories) : Prop where
  valid : ∀ path ∈ directories, path.Valid
  parents : ∀ path ∈ directories, ∀ above, path.parent = .ok above → above ∈ directories
  listed : ∀ path node, directories.get? path = some node →
    ∀ name, name ∈ node.subdirs ↔ ∃ child ∈ directories, path.join name = .ok child

namespace WellFormed

variable {directories other : Directories} {path : Path}

theorem ancestors (wellFormed : directories.WellFormed) {upper lower : Path}
    (member : lower ∈ directories) (below : upper ∈ lower.chain) : upper ∈ directories := by
  rcases Path.mem_chain_iff.mp below with rfl | above
  · exact member
  · induction above with
    | single step => exact wellFormed.parents lower member _ step
    | tail earlier step inductionHypothesis =>
        exact wellFormed.parents _ (inductionHypothesis (Path.IsAncestorOf.mem_chain earlier)) _ step

/-- Only the directories and the names they list matter. -/
theorem of_agreeOn (wellFormed : directories.WellFormed)
    (agree : directories.AgreeOn Directory.subdirs other) : other.WellFormed where
  valid := fun path member => wellFormed.valid path ((agree.mem_iff path).mpr member)
  parents := by
    intro path member above step
    have present := wellFormed.parents path ((agree.mem_iff path).mpr member) above step
    exact (agree.mem_iff above).mp present
  listed := by
    intro path node found name
    obtain ⟨before, foundBefore, subdirs⟩ := agree.symm.exists_get? found
    rw [← subdirs, wellFormed.listed path before foundBefore name]
    simp only [agree.mem_iff]

theorem joinAll (wellFormed : directories.WellFormed) {node : Directory}
    (found : directories.get? path = some node) :
    ∃ children, path.joinAll node.subdirs.members = .ok children ∧
      ∀ child, child ∈ children ↔ child ∈ directories ∧ child.parent = .ok path := by
  have segments : ∀ name ∈ node.subdirs.members, Path.IsSegment name := by
    intro name member
    obtain ⟨_, _, joined⟩ :=
      (wellFormed.listed path node found name).mp (OrderedSet.mem_members_iff.mp member)
    exact (Path.join_eq_ok_iff.mp joined).1
  obtain ⟨children, joined⟩ := Path.exists_joinAll segments path
  refine ⟨children, joined, fun child => ?_⟩
  rw [Path.mem_joinAll joined]
  constructor
  · intro ⟨name, member, childJoined⟩
    obtain ⟨present, presentMember, presentJoined⟩ :=
      (wellFormed.listed path node found name).mp (OrderedSet.mem_members_iff.mp member)
    rw [childJoined] at presentJoined
    cases presentJoined
    exact ⟨presentMember, Path.parent_of_join childJoined⟩
  · intro ⟨member, step⟩
    obtain ⟨notRoot, same⟩ := Path.parent_eq_ok_iff.mp step
    obtain ⟨name, _, joined⟩ := (wellFormed.valid child member).join_name notRoot
    rw [same] at joined
    have isListed := (wellFormed.listed path node found name).mpr ⟨child, member, joined⟩
    exact ⟨name, OrderedSet.mem_members_iff.mpr isListed, joined⟩

theorem obstacle?_eq_none (wellFormed : directories.WellFormed) (member : path ∈ directories) :
    directories.obstacle? path = none := by
  obtain ⟨node, found⟩ := OrderedMap.mem_iff_get?.mp member
  obtain ⟨children, joined, _⟩ := wellFormed.joinAll found
  unfold obstacle?
  simp only [found, joined]

private theorem chain_clear (wellFormed : directories.WellFormed) (member : path ∈ directories) :
    ∀ upper ∈ path.chain, directories.obstacle? upper = none := by
  intro upper inChain
  exact wellFormed.obstacle?_eq_none (wellFormed.ancestors member inChain)

theorem reach_eq (wellFormed : directories.WellFormed) (member : path ∈ directories) :
    directories.reach path = path.chain :=
  reach_of_clear (wellFormed.chain_clear member)

theorem outcome_eq (wellFormed : directories.WellFormed) (member : path ∈ directories) :
    directories.outcome path = .ok () :=
  outcome_of_clear (wellFormed.chain_clear member)

/-- In a well-formed tree bubbles from directories of the tree cover exactly
these and their ancestors. -/
theorem exists_reach_iff (wellFormed : directories.WellFormed) {starts : List Path}
    (present : ∀ start ∈ starts, start ∈ directories) (path : Path) :
    (∃ start ∈ starts, path ∈ directories.reach start) ↔ ∃ start ∈ starts, path ∈ start.chain := by
  constructor
  · intro ⟨start, member, reached⟩
    rw [wellFormed.reach_eq (present start member)] at reached
    exact ⟨start, member, reached⟩
  · intro ⟨start, member, inChain⟩
    rw [← wellFormed.reach_eq (present start member)] at inChain
    exact ⟨start, member, inChain⟩

theorem outcomes_eq (wellFormed : directories.WellFormed) {starts : List Path}
    (present : ∀ start ∈ starts, start ∈ directories) :
    ∀ result ∈ starts.map directories.outcome, result = .ok () := by
  intro result member
  obtain ⟨start, startMember, same⟩ := List.mem_map.mp member
  rw [← same]
  exact wellFormed.outcome_eq (present start startMember)

end WellFormed

/-! ### Creating directories -/

theorem get?_create {directories : Directories} {path : Path} {name : String}
    (named : path.name? = some name) (other : Path) :
    (directories.create path).get? other =
      if other = path then some Directory.empty
      else if other = path.parentOfNonRoot then
        (directories.get? other).map fun node => node.listSubdirectory name
      else directories.get? other := by
  unfold create
  rw [named]
  dsimp only
  rw [OrderedMap.get?_insert, OrderedMap.get?_modify]

theorem mem_create {directories : Directories} {path other : Path} :
    other ∈ directories.create path ↔ other = path ∨ other ∈ directories := by
  rw [← OrderedMap.contains_eq_true_iff, contains_create, Bool.or_eq_true, decide_eq_true_iff,
    OrderedMap.contains_eq_true_iff]

/-- The new directory is a child of its parent, and the other children stay. -/
private theorem exists_child_create_iff {directories : Directories} {path other : Path}
    {name segment : String} (joined : path.parentOfNonRoot.join name = .ok path) :
    (∃ child ∈ directories.create path, other.join segment = .ok child) ↔
      other = path.parentOfNonRoot ∧ segment = name ∨
        ∃ child ∈ directories, other.join segment = .ok child := by
  constructor
  · intro ⟨child, member, childJoined⟩
    rcases mem_create.mp member with same | old
    · rw [same] at childJoined
      have above := (Path.parent_eq_ok_iff.mp (Path.parent_of_join childJoined)).2
      rw [above] at joined
      exact Or.inl ⟨above.symm, Path.join_injective childJoined joined⟩
    · exact Or.inr ⟨child, old, childJoined⟩
  · intro origin
    rcases origin with ⟨same, sameName⟩ | ⟨child, old, childJoined⟩
    · rw [same, sameName]
      exact ⟨path, mem_create.mpr (Or.inl rfl), joined⟩
    · exact ⟨child, mem_create.mpr (Or.inr old), childJoined⟩

theorem WellFormed.create {directories : Directories} {path : Path}
    (wellFormed : directories.WellFormed) (valid : path.Valid) (notRoot : path ≠ Path.root)
    (absent : path ∉ directories) (parentPresent : path.parentOfNonRoot ∈ directories) :
    (directories.create path).WellFormed := by
  obtain ⟨name, named, joined⟩ := valid.join_name notRoot
  constructor
  · intro other member
    rcases mem_create.mp member with rfl | old
    · exact valid
    · exact wellFormed.valid other old
  · intro other member above step
    apply mem_create.mpr
    apply Or.inr
    rcases mem_create.mp member with rfl | old
    · obtain ⟨_, rfl⟩ := Path.parent_eq_ok_iff.mp step
      exact parentPresent
    · exact wellFormed.parents other old above step
  · intro other node found segment
    rw [exists_child_create_iff joined]
    rw [get?_create named] at found
    by_cases isNew : other = path
    · rw [if_pos isNew] at found
      cases found
      rw [isNew]
      constructor
      · intro listed
        exact absurd listed (OrderedMap.not_mem_empty segment)
      · intro origin
        -- a child of the new directory would have had it as its parent before
        rcases origin with ⟨loop, _⟩ | ⟨child, old, childJoined⟩
        · have inChain : path ∈ path.parentOfNonRoot.chain := by
            rw [← loop]
            exact path.self_mem_chain
          exact absurd inChain (Path.not_mem_chain_parent notRoot)
        · exact absurd (wellFormed.parents child old path (Path.parent_of_join childJoined)) absent
    · rw [if_neg isNew] at found
      by_cases isParent : other = path.parentOfNonRoot
      · rw [if_pos isParent] at found
        obtain ⟨before, foundBefore, rfl⟩ := Option.map_eq_some_iff.mp found
        rw [Directory.listSubdirectory, OrderedSet.mem_add,
          wellFormed.listed other before foundBefore segment, and_iff_right isParent]
      · rw [if_neg isParent] at found
        rw [wellFormed.listed other node found segment]
        constructor
        · exact Or.inr
        · intro origin
          exact origin.resolve_left fun atParent => isParent atParent.1

theorem ensure_of_mem {directories : Directories} {path : Path} (member : path ∈ directories) :
    directories.ensure path = directories := by
  have none : directories.missing path.chain = [] := by
    rw [missing, Path.chain, List.takeWhile_cons, OrderedMap.contains_eq_true_iff.mpr member]
    rfl
  rw [ensure, none]
  rfl

/-- A missing directory is created below its parent, which is ensured first. -/
theorem ensure_of_not_mem {directories : Directories} {path : Path} (absent : path ∉ directories)
    (notRoot : path ≠ Path.root) :
    directories.ensure path = (directories.ensure path.parentOfNonRoot).create path := by
  have first : directories.missing path.chain =
      path :: directories.missing path.parentOfNonRoot.chain := by
    rw [missing, Path.chain_of_ne_root notRoot, List.takeWhile_cons, if_pos]
    · rfl
    · rw [OrderedMap.contains_eq_false_iff.mpr absent]
      rfl
  rw [ensure, first, List.reverse_cons, List.foldl_append]
  rfl

theorem mem_ensure_self {directories : Directories} {path : Path}
    (rootPresent : Path.root ∈ directories) : path ∈ directories.ensure path := by
  by_cases member : path ∈ directories
  · rw [ensure_of_mem member]
    exact member
  · have notRoot : path ≠ Path.root := by
      intro same
      rw [same] at member
      exact member rootPresent
    rw [ensure_of_not_mem member notRoot]
    exact mem_create.mpr (Or.inl rfl)

theorem get?_ensure_of_not_mem_chain {directories : Directories} {path other : Path}
    (rootPresent : Path.root ∈ directories) (outside : other ∉ path.chain) :
    (directories.ensure path).get? other = directories.get? other := by
  induction path using Path.parentInduction with
  | atRoot => rw [ensure_of_mem rootPresent]
  | below path notRoot inductionHypothesis =>
      by_cases member : path ∈ directories
      · rw [ensure_of_mem member]
      · rw [Path.chain_of_ne_root notRoot, List.mem_cons, not_or] at outside
        rw [ensure_of_not_mem member notRoot, ← inductionHypothesis outside.2]
        have notParent : other ≠ path.parentOfNonRoot := by
          intro same
          subst same
          exact outside.2 (Path.self_mem_chain _)
        cases named : path.name? with
        | none =>
            unfold create
            rw [named]
            exact (OrderedMap.get?_insert _ _ _ _).trans (if_neg outside.1)
        | some name => rw [get?_create named, if_neg outside.1, if_neg notParent]

/-- Ensuring a well-formed path keeps a tree well formed and makes the whole
chain of the path present. -/
theorem WellFormed.ensure {directories : Directories} {path : Path}
    (wellFormed : directories.WellFormed) (rootPresent : Path.root ∈ directories)
    (valid : path.Valid) :
    (directories.ensure path).WellFormed ∧
      ∀ other, other ∈ directories.ensure path ↔ other ∈ directories ∨ other ∈ path.chain := by
  induction path using Path.parentInduction with
  | atRoot =>
      rw [ensure_of_mem rootPresent]
      refine ⟨wellFormed, fun other => ⟨Or.inl, ?_⟩⟩
      intro position
      rcases position with member | inChain
      · exact member
      · rw [Path.chain_root, List.mem_singleton] at inChain
        rw [inChain]
        exact rootPresent
  | below path notRoot inductionHypothesis =>
      by_cases member : path ∈ directories
      · rw [ensure_of_mem member]
        refine ⟨wellFormed, fun other => ⟨Or.inl, ?_⟩⟩
        intro position
        rcases position with present | inChain
        · exact present
        · exact wellFormed.ancestors member inChain
      · have step : path.parent = .ok path.parentOfNonRoot :=
          Path.parent_eq_ok_iff.mpr ⟨notRoot, rfl⟩
        obtain ⟨ensured, present⟩ := inductionHypothesis (valid.parent step)
        have parentPresent : path.parentOfNonRoot ∈ directories.ensure path.parentOfNonRoot :=
          (present _).mpr (Or.inr (Path.self_mem_chain _))
        have absent : path ∉ directories.ensure path.parentOfNonRoot := by
          rw [present, not_or]
          exact ⟨member, Path.not_mem_chain_parent notRoot⟩
        rw [ensure_of_not_mem member notRoot]
        refine ⟨ensured.create valid notRoot absent parentPresent, fun other => ?_⟩
        rw [mem_create, present, Path.chain_of_ne_root notRoot, List.mem_cons]
        exact or_left_comm

end Directories
end Rollup

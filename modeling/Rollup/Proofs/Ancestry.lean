/-
The order of directory paths.

One directory is an ancestor of another when taking parents again and again
leads from the lower one up to it.  The listed ancestors of a path are exactly
these, the order is strict, and the ancestors of one path form a chain.  All
of this holds of every text; only well-formed paths are reached from the root
by joining segments.
-/

import Mathlib.Algebra.Order.BigOperators.Group.List
import Mathlib.Algebra.Order.Group.Nat
import Mathlib.Logic.Relation
import Rollup.Path

namespace Rollup
namespace Path

/-! ### Parents -/

theorem isRoot_iff (path : Path) : path.isRoot = true ↔ path = root := by
  cases path with
  | mk text => simp [isRoot, root]

theorem isRoot_eq_false_iff (path : Path) : path.isRoot = false ↔ path ≠ root := by
  rw [← Bool.not_eq_true, isRoot_iff]

theorem parent_eq_ok_iff {path above : Path} :
    path.parent = .ok above ↔ path ≠ root ∧ path.parentOfNonRoot = above := by
  unfold parent
  cases atRoot : path.isRoot with
  | true => simp [(isRoot_iff path).mp atRoot]
  | false => simp [(isRoot_eq_false_iff path).mp atRoot]

theorem parentOfNonRoot_length_lt {path : Path} (notRoot : path ≠ root) :
    path.parentOfNonRoot.chars.length < path.chars.length := by
  have nonempty : path.chars ≠ [] := by
    intro empty
    exact notRoot ((isRoot_iff path).mp ((isRoot_iff_chars path).mpr empty))
  have kept : (path.chars.reverse.dropWhile (· != separator)).length ≤ path.chars.length := by
    have sublist := (List.dropWhile_sublist (l := path.chars.reverse) (· != separator)).length_le
    simpa only [List.length_reverse] using sublist
  have positive := List.length_pos_iff.mpr nonempty
  simp only [parentOfNonRoot, chars_ofChars, List.length_reverse, List.length_drop]
  omega

/-! ### The ancestor relation -/

/-- Taking parents leads from the lower directory up to the upper one. -/
def IsAncestorOf (upper lower : Path) : Prop :=
  Relation.TransGen (fun below above => below.parent = .ok above) lower upper

theorem IsAncestorOf.trans {upper middle lower : Path}
    (first : upper.IsAncestorOf middle) (second : middle.IsAncestorOf lower) :
    upper.IsAncestorOf lower :=
  Relation.TransGen.trans second first

theorem IsAncestorOf.of_parent {path above : Path} (step : path.parent = .ok above) :
    above.IsAncestorOf path :=
  Relation.TransGen.single step

theorem IsAncestorOf.length_lt {upper lower : Path} (below : upper.IsAncestorOf lower) :
    upper.chars.length < lower.chars.length := by
  have shorter {path above : Path} (step : path.parent = .ok above) :
      above.chars.length < path.chars.length := by
    obtain ⟨notRoot, same⟩ := parent_eq_ok_iff.mp step
    rw [← same]
    exact parentOfNonRoot_length_lt notRoot
  induction below with
  | single step => exact shorter step
  | tail _ step inductionHypothesis => exact Nat.lt_trans (shorter step) inductionHypothesis

theorem not_isAncestorOf_self (path : Path) : ¬path.IsAncestorOf path :=
  fun below => Nat.lt_irrefl _ below.length_lt

theorem IsAncestorOf.asymm {upper lower : Path} (below : upper.IsAncestorOf lower) :
    ¬lower.IsAncestorOf upper :=
  fun above => upper.not_isAncestorOf_self (below.trans above)

theorem IsAncestorOf.lower_ne_root {upper lower : Path} (below : upper.IsAncestorOf lower) :
    lower ≠ root := by
  intro same
  subst same
  have shorter := below.length_lt
  simp [root, chars] at shorter

/-- An ancestor is the parent or an ancestor of the parent. -/
theorem isAncestorOf_iff_parent {upper lower : Path} :
    upper.IsAncestorOf lower ↔
      lower ≠ root ∧
        (upper = lower.parentOfNonRoot ∨ upper.IsAncestorOf lower.parentOfNonRoot) := by
  constructor
  · intro below
    refine ⟨below.lower_ne_root, ?_⟩
    rcases Relation.TransGen.head'_iff.mp below with ⟨above, step, rest⟩
    obtain ⟨_, same⟩ := parent_eq_ok_iff.mp step
    rw [same]
    rcases Relation.reflTransGen_iff_eq_or_transGen.mp rest with equal | further
    · exact Or.inl equal
    · exact Or.inr further
  · intro ⟨notRoot, position⟩
    rcases position with here | further
    · exact IsAncestorOf.of_parent (parent_eq_ok_iff.mpr ⟨notRoot, here.symm⟩)
    · exact further.trans (IsAncestorOf.of_parent (parent_eq_ok_iff.mpr ⟨notRoot, rfl⟩))

/-! ### The listed ancestors -/

@[simp] theorem ancestors_root : root.ancestors = [] := rfl

theorem ancestors_of_ne_root {path : Path} (notRoot : path ≠ root) :
    path.ancestors = path.parentOfNonRoot.chain :=
  ancestors_eq_cons ((isRoot_eq_false_iff path).mpr notRoot)

theorem chain_of_ne_root {path : Path} (notRoot : path ≠ root) :
    path.chain = path :: path.parentOfNonRoot.chain := by
  rw [chain, ancestors_of_ne_root notRoot]

@[simp] theorem chain_root : root.chain = [root] := rfl

/-- Proves a property of a path from that of its parent, starting at the root. -/
theorem parentInduction {motive : Path → Prop} (atRoot : motive root)
    (below : ∀ path, path ≠ root → motive path.parentOfNonRoot → motive path) (path : Path) :
    motive path := by
  induction size : path.chars.length using Nat.strongRecOn generalizing path with
  | ind length inductionHypothesis =>
      by_cases isRoot : path = root
      · rw [isRoot]
        exact atRoot
      · have shorter := parentOfNonRoot_length_lt isRoot
        rw [size] at shorter
        exact below path isRoot (inductionHypothesis _ shorter _ rfl)

/-- Proves a property of a path from that of the paths below it in a list. -/
theorem belowInduction (paths : List Path) {motive : Path → Prop}
    (step : ∀ path, (∀ lower ∈ paths, path.IsAncestorOf lower → motive lower) → motive path)
    (path : Path) : motive path := by
  have bounded {lower : Path} (member : lower ∈ paths) :
      lower.chars.length ≤ (paths.map fun lower => lower.chars.length).sum :=
    List.single_le_sum (fun _ _ => Nat.zero_le _) _ (List.mem_map_of_mem member)
  generalize (paths.map fun lower => lower.chars.length).sum = bound at bounded
  induction height : bound - path.chars.length using Nat.strongRecOn generalizing path with
  | ind height inductionHypothesis =>
      refine step path fun lower member below => ?_
      have longer := below.length_lt
      have short := bounded member
      exact inductionHypothesis (bound - lower.chars.length) (by omega) lower rfl

theorem mem_ancestors_iff {upper lower : Path} :
    upper ∈ lower.ancestors ↔ upper.IsAncestorOf lower := by
  induction lower using parentInduction with
  | atRoot =>
      simp only [ancestors_root, List.not_mem_nil, false_iff]
      intro below
      exact below.lower_ne_root rfl
  | below path notRoot inductionHypothesis =>
      rw [ancestors_of_ne_root notRoot, chain, List.mem_cons, inductionHypothesis]
      have upward : upper.IsAncestorOf path ↔ _ := isAncestorOf_iff_parent
      rw [upward, and_iff_right notRoot]

instance (upper lower : Path) : Decidable (upper.IsAncestorOf lower) :=
  decidable_of_iff _ mem_ancestors_iff

theorem mem_chain_iff {upper lower : Path} :
    upper ∈ lower.chain ↔ upper = lower ∨ upper.IsAncestorOf lower := by
  rw [chain, List.mem_cons, mem_ancestors_iff]

theorem self_mem_chain (path : Path) : path ∈ path.chain := List.mem_cons_self

theorem IsAncestorOf.mem_chain {upper lower : Path} (below : upper.IsAncestorOf lower) :
    upper ∈ lower.chain :=
  mem_chain_iff.mpr (Or.inr below)

theorem mem_chain_trans {upper middle lower : Path} (first : upper ∈ middle.chain)
    (second : middle ∈ lower.chain) : upper ∈ lower.chain := by
  rcases mem_chain_iff.mp first with rfl | above
  · exact second
  · rcases mem_chain_iff.mp second with rfl | further
    · exact first
    · exact (above.trans further).mem_chain

theorem IsAncestorOf.of_mem_chain {upper middle lower : Path} (first : upper.IsAncestorOf middle)
    (second : middle ∈ lower.chain) : upper.IsAncestorOf lower := by
  rcases mem_chain_iff.mp second with rfl | further
  · exact first
  · exact first.trans further

theorem not_mem_chain_parent {path : Path} (notRoot : path ≠ root) :
    path ∉ path.parentOfNonRoot.chain := by
  intro inChain
  have above := IsAncestorOf.of_parent (parent_eq_ok_iff.mpr ⟨notRoot, rfl⟩)
  exact not_isAncestorOf_self _ (above.of_mem_chain inChain)

theorem nodup_chain (path : Path) : path.chain.Nodup := by
  induction path using parentInduction with
  | atRoot => exact List.pairwise_singleton _ _
  | below path notRoot inductionHypothesis =>
      rw [chain_of_ne_root notRoot]
      exact List.nodup_cons.mpr ⟨not_mem_chain_parent notRoot, inductionHypothesis⟩

/-- What follows a directory in a chain are its own ancestors. -/
theorem chain_of_append {lower path : Path} {below above : List Path}
    (split : below ++ path :: above = lower.chain) : path.chain = path :: above := by
  induction lower using parentInduction generalizing below with
  | atRoot =>
      rw [chain_root, List.append_eq_singleton_iff] at split
      rcases split with ⟨_, same⟩ | ⟨_, impossible⟩
      · cases same
        exact chain_root
      · cases impossible
  | below lower notRoot inductionHypothesis =>
      rw [chain_of_ne_root notRoot] at split
      cases below with
      | nil =>
          cases split
          exact chain_of_ne_root notRoot
      | cons first rest =>
          rw [List.cons_append, List.cons.injEq] at split
          exact inductionHypothesis split.2

/-- Of two directories on the way from one path to the root, one is above the
other. -/
theorem mem_chain_or_mem_chain {left right lower : Path} (leftMember : left ∈ lower.chain)
    (rightMember : right ∈ lower.chain) : left ∈ right.chain ∨ right ∈ left.chain := by
  induction lower using parentInduction with
  | atRoot =>
      simp only [chain_root, List.mem_singleton] at leftMember rightMember
      rw [leftMember, rightMember]
      exact Or.inl (self_mem_chain root)
  | below path notRoot inductionHypothesis =>
      rcases mem_chain_iff.mp leftMember with rfl | leftAbove
      · exact Or.inr rightMember
      · rcases mem_chain_iff.mp rightMember with rfl | rightAbove
        · exact Or.inl leftMember
        · have upward {upper : Path} (above : upper.IsAncestorOf path) :
              upper ∈ path.parentOfNonRoot.chain :=
            mem_chain_iff.mpr (isAncestorOf_iff_parent.mp above).2
          exact inductionHypothesis (upward leftAbove) (upward rightAbove)

/-- Two directories with the same parent cannot both lie on the way from one
path to the root. -/
theorem eq_of_parent_eq {left right lower above : Path} (leftMember : left ∈ lower.chain)
    (rightMember : right ∈ lower.chain) (leftParent : left.parent = .ok above)
    (rightParent : right.parent = .ok above) : left = right := by
  have noLoop {first second : Path} (firstParent : first.parent = .ok above)
      (secondParent : second.parent = .ok above) : ¬first.IsAncestorOf second := by
    intro below
    obtain ⟨_, secondSame⟩ := parent_eq_ok_iff.mp secondParent
    have upward := (isAncestorOf_iff_parent.mp below).2
    rw [secondSame] at upward
    rcases upward with rfl | further
    · exact first.not_isAncestorOf_self (IsAncestorOf.of_parent firstParent)
    · exact further.asymm (IsAncestorOf.of_parent firstParent)
  rcases mem_chain_or_mem_chain leftMember rightMember with inRight | inLeft
  · rcases mem_chain_iff.mp inRight with same | below
    · exact same
    · exact absurd below (noLoop leftParent rightParent)
  · rcases mem_chain_iff.mp inLeft with same | below
    · exact same.symm
    · exact absurd below (noLoop rightParent leftParent)

/-! ### Joining a segment -/

/-- The names that can follow a directory in a path. -/
def IsSegment (name : String) : Prop :=
  name ≠ "" ∧ name ≠ "." ∧ name ≠ ".." ∧ separator ∉ name.toList

instance (name : String) : Decidable (IsSegment name) :=
  inferInstanceAs (Decidable (name ≠ "" ∧ name ≠ "." ∧ name ≠ ".." ∧ separator ∉ name.toList))

theorem checkSegment_eq_ok_iff {source segment : String} :
    checkSegment source segment = .ok () ↔ IsSegment segment := by
  unfold checkSegment IsSegment
  split
  · rename_i empty
    simp [empty]
  · rename_i nonempty
    split
    · rename_i relative
      rcases relative with same | same <;> simp [same]
    · rename_i named
      have ⟨notDot, notDots⟩ := not_or.mp named
      split <;> simp_all

theorem join_eq_ok_iff {path child : Path} {name : String} :
    path.join name = .ok child ↔
      IsSegment name ∧ child = ⟨if path.isRoot then name else path.text ++ "/" ++ name⟩ := by
  rw [← @checkSegment_eq_ok_iff (if path.isRoot then name else path.text ++ "/" ++ name)]
  unfold join
  dsimp only
  split
  · rename_i cause failed
    simp [failed]
  · rename_i passed
    rw [passed, and_iff_right rfl, Except.ok.injEq, eq_comm]

theorem not_isSegment_of_join {path : Path} {name : String} {cause : PathError}
    (failed : path.join name = .error cause) : ¬IsSegment name := by
  intro segment
  rw [join_eq_ok_iff.mpr ⟨segment, rfl⟩] at failed
  cases failed

/-- The text of a child ends with its name, after a separator unless the
directory is the root. -/
theorem chars_of_join {path child : Path} {name : String} (joined : path.join name = .ok child) :
    child.chars =
      (if path = root then [] else path.chars ++ [separator]) ++ name.toList := by
  obtain ⟨_, rfl⟩ := join_eq_ok_iff.mp joined
  by_cases atRoot : path = root
  · simp [chars, atRoot, (isRoot_iff root).mpr rfl]
  · have notRoot := (isRoot_eq_false_iff path).mpr atRoot
    simp [chars, atRoot, notRoot, separator]

private theorem backwards_of_join {path child : Path} {name : String}
    (joined : path.join name = .ok child) :
    child.chars.reverse =
      name.toList.reverse ++ (if path = root then [] else separator :: path.chars.reverse) := by
  rw [chars_of_join joined]
  split <;> simp

private theorem name_reversed_all {path child : Path} {name : String}
    (joined : path.join name = .ok child) :
    ∀ char ∈ name.toList.reverse, (char != separator) = true := by
  obtain ⟨⟨_, _, _, noSeparator⟩, _⟩ := join_eq_ok_iff.mp joined
  intro char member
  rw [bne_iff_ne]
  intro same
  subst same
  exact noSeparator (List.mem_reverse.mp member)

theorem ne_root_of_join {path child : Path} {name : String}
    (joined : path.join name = .ok child) : child ≠ root := by
  intro same
  subst same
  obtain ⟨⟨nonempty, _⟩, _⟩ := join_eq_ok_iff.mp joined
  have text := chars_of_join joined
  simp [root, chars, nonempty] at text

theorem parent_of_join {path child : Path} {name : String}
    (joined : path.join name = .ok child) : child.parent = .ok path := by
  refine parent_eq_ok_iff.mpr ⟨ne_root_of_join joined, ?_⟩
  have dropped : child.chars.reverse.dropWhile (· != separator) =
      if path = root then [] else separator :: path.chars.reverse := by
    rw [backwards_of_join joined, List.dropWhile_append_of_pos (name_reversed_all joined)]
    split <;> simp
  unfold parentOfNonRoot
  rw [dropped]
  split
  · rename_i atRoot
    rw [atRoot]
    rfl
  · simp [ofChars, chars]

theorem name?_of_join {path child : Path} {name : String}
    (joined : path.join name = .ok child) : child.name? = some name := by
  have notRoot := (isRoot_eq_false_iff child).mpr (ne_root_of_join joined)
  have taken : child.chars.reverse.takeWhile (· != separator) = name.toList.reverse := by
    rw [backwards_of_join joined, List.takeWhile_append_of_pos (name_reversed_all joined)]
    split <;> simp
  simp [name?, notRoot, taken]

/-- The names under which a directory lists its children tell them apart. -/
theorem join_injective {path child : Path} {left right : String}
    (leftJoined : path.join left = .ok child) (rightJoined : path.join right = .ok child) :
    left = right :=
  Option.some.inj ((name?_of_join leftJoined).symm.trans (name?_of_join rightJoined))

/-! ### Well-formed paths -/

/-- A path reached from the root by joining one segment after another. -/
inductive Valid : Path → Prop
  | atRoot : Valid root
  | child {path child : Path} {name : String} (above : Valid path)
      (joined : path.join name = .ok child) : Valid child

theorem Valid.parent {path above : Path} (valid : path.Valid) (step : path.parent = .ok above) :
    above.Valid := by
  cases valid with
  | atRoot => cases step
  | child higher joined =>
      rw [parent_of_join joined] at step
      cases step
      exact higher

/-- A well-formed path other than the root is its parent joined with its name. -/
theorem Valid.join_name {path : Path} (valid : path.Valid) (notRoot : path ≠ root) :
    ∃ name, path.name? = some name ∧ path.parentOfNonRoot.join name = .ok path := by
  cases valid with
  | atRoot => exact absurd rfl notRoot
  | child above joined =>
      obtain ⟨_, same⟩ := parent_eq_ok_iff.mp (parent_of_join joined)
      rw [same]
      exact ⟨_, name?_of_join joined, joined⟩

/-! ### Reading gives well-formed paths -/

private theorem checkSegments_append (source : String) (left right : List (List Char)) :
    checkSegments source (left ++ right) = .ok () ↔
      checkSegments source left = .ok () ∧ checkSegments source right = .ok () := by
  induction left with
  | nil => simp [checkSegments]
  | cons segment rest inductionHypothesis =>
      simp only [List.cons_append, checkSegments]
      split
      · simp
      · exact inductionHypothesis

private theorem checkSegments_singleton (source : String) (segment : List Char) :
    checkSegments source [segment] = checkSegment source (String.ofList segment) := by
  simp only [checkSegments]
  split <;> simp_all

/-- Text is free of separators, or ends in a separator and a part that is. -/
private theorem last_segment (text : List Char) :
    separator ∉ text ∨ ∃ above name, text = above ++ separator :: name ∧ separator ∉ name := by
  induction text with
  | nil => exact Or.inl (List.not_mem_nil)
  | cons char rest inductionHypothesis =>
      rcases inductionHypothesis with free | ⟨above, name, same, free⟩
      · by_cases atSeparator : char = separator
        · exact Or.inr ⟨[], rest, by rw [atSeparator, List.nil_append], free⟩
        · exact Or.inl (List.not_mem_cons_of_ne_of_not_mem (Ne.symm atSeparator) free)
      · exact Or.inr ⟨char :: above, name, by rw [same, List.cons_append], free⟩

private theorem valid_of_checkSegments {source : String} (text : List Char)
    (checked : checkSegments source (text.splitOn separator) = .ok ()) : (ofChars text).Valid := by
  have segment {name : List Char} (passed : checkSegments source [name] = .ok ()) :
      IsSegment (String.ofList name) := by
    rw [checkSegments_singleton, checkSegment_eq_ok_iff] at passed
    exact passed
  induction size : text.length using Nat.strongRecOn generalizing text with
  | ind length inductionHypothesis =>
      rcases last_segment text with free | ⟨above, name, same, free⟩
      · rw [List.splitOn_eq_singleton free] at checked
        have joined : root.join (String.ofList text) = .ok (ofChars text) :=
          join_eq_ok_iff.mpr ⟨segment checked, rfl⟩
        exact Valid.child Valid.atRoot joined
      · rw [same, List.splitOn_append_cons_self, List.splitOn_eq_singleton free,
          checkSegments_append] at checked
        have aboveValid : (ofChars above).Valid := by
          refine inductionHypothesis above.length ?_ above checked.1 rfl
          rw [← size, same, List.length_append, List.length_cons]
          omega
        have aboveNonempty : above ≠ [] := by
          intro same
          subst same
          rw [List.splitOn_nil, checkSegments_singleton, checkSegment_eq_ok_iff] at checked
          exact checked.1.1 rfl
        have joined : (ofChars above).join (String.ofList name) = .ok (ofChars text) := by
          refine join_eq_ok_iff.mpr ⟨segment checked.2, ?_⟩
          rw [isRoot_ofChars, List.isEmpty_eq_false_iff.mpr aboveNonempty, same]
          simp [ofChars, separator, String.ofList_append, String.append_assoc]
        exact Valid.child aboveValid joined

theorem valid_of_parse {source : String} {path : Path} (read : parse source = .ok path) :
    path.Valid := by
  unfold parse at read
  dsimp only at read
  split at read
  · cases read
    exact Valid.atRoot
  · split at read
    · cases read
    · rename_i checked
      cases read
      exact valid_of_checkSegments _ checked

/-- The directory of a file path is well formed, and the file is not the root. -/
theorem valid_of_splitFile {file name : String} {directory : Path}
    (read : splitFile file = .ok (directory, name)) : directory.Valid := by
  unfold splitFile at read
  split at read
  · cases read
  · rename_i full parsed
    have fullValid := valid_of_parse parsed
    split at read
    · cases read
    · rename_i found
      cases read
      have notRoot : full ≠ root := by
        intro same
        subst same
        cases found
      exact fullValid.parent (parent_eq_ok_iff.mpr ⟨notRoot, rfl⟩)

end Path
end Rollup

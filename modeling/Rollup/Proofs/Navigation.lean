/-
Moving between directories, by their segments.

A path that was read has a list of segments.  Joining a name puts it behind them,
the parent leaves out the last one and the name is that one, and the ancestors are
the paths of the shorter beginnings of the list, so that one path is above another
exactly when its segments begin the other's.  The text of a file is split at the
last of its segments.
-/

import Mathlib.Data.List.Infix
import Rollup.Proofs.Placement
import Rollup.Proofs.Segments

namespace Rollup
namespace Path

/-- A path is written with these segments, and each of them is one. -/
structure HasSegments (path : Path) (segments : List String) : Prop where
  written : path = ofSegments segments
  named : ∀ name ∈ segments, IsSegment name

namespace HasSegments

variable {path : Path} {segments : List String}

theorem ofParse {source : String} (spelled : Spells source segments)
    (read : parse source = .ok path) : path.HasSegments segments := by
  obtain ⟨named, written⟩ := (parse_eq_ok_iff spelled).mp read
  exact ⟨written, named⟩

theorem spells_display (has : path.HasSegments segments) : Spells path.display segments := by
  have nonempty : "" ∉ segments := fun member => (has.named "" member).1 rfl
  exact
    { framed := ⟨1, 0, by simp [display, chars, separator, has.written]⟩
      free := fun name member => (has.named name member).2.2.2
      opened := fun first => nonempty (List.mem_of_head? first)
      closed := fun last => nonempty (List.mem_of_getLast? last) }

theorem unique {others : List String} (has : path.HasSegments segments)
    (hasOthers : path.HasSegments others) : segments = others :=
  has.spells_display.unique hasOthers.spells_display

theorem eq_root_iff (has : path.HasSegments segments) : path = root ↔ segments = [] := by
  constructor
  · intro same
    subst same
    exact has.unique ⟨rfl, nofun⟩
  · intro none
    rw [has.written, none, ofSegments_nil]

theorem of_isPrefix {front : List String} (has : path.HasSegments segments)
    (begins : front <+: segments) : (ofSegments front).HasSegments front :=
  ⟨rfl, fun name member => has.named name (begins.subset member)⟩

/-- The text of a child is its directory's text with the name behind it. -/
theorem join {child : Path} {name : String} (has : path.HasSegments segments)
    (joined : path.join name = .ok child) : child.HasSegments (segments ++ [name]) := by
  obtain ⟨segment, written⟩ := join_eq_ok_iff.mp joined
  refine ⟨?_, ?_⟩
  · by_cases none : segments = []
    · have atRoot := (isRoot_iff path).mpr (has.eq_root_iff.mpr none)
      rw [written, atRoot, none]
      simp
    · have notRoot := (isRoot_eq_false_iff path).mpr (has.eq_root_iff.not.mpr none)
      rw [written, notRoot, has.written]
      simp [ofSegments, String.intercalate_append_of_ne_nil none]
  · intro other member
    rcases List.mem_append.mp member with inside | last
    · exact has.named other inside
    · rw [List.mem_singleton.mp last]
      exact segment

theorem join_last {front : List String} {name : String}
    (has : path.HasSegments (front ++ [name])) : (ofSegments front).join name = .ok path := by
  have above : (ofSegments front).HasSegments front := has.of_isPrefix (List.prefix_append _ _)
  have segment := has.named name (List.mem_append_right _ List.mem_cons_self)
  obtain ⟨child, joined⟩ : ∃ child, (ofSegments front).join name = .ok child :=
    ⟨_, join_eq_ok_iff.mpr ⟨segment, rfl⟩⟩
  rw [joined, (above.join joined).written, has.written]

theorem chain_eq (has : path.HasSegments segments) :
    path.chain = segments.inits.reverse.map ofSegments := by
  induction segments using List.reverseRecOn generalizing path with
  | nil =>
      rw [has.written]
      rfl
  | append_singleton front name inductionHypothesis =>
      have joined := has.join_last
      obtain ⟨notRoot, same⟩ := parent_eq_ok_iff.mp (parent_of_join joined)
      rw [chain_of_ne_root notRoot, same,
        inductionHypothesis (has.of_isPrefix (List.prefix_append _ _)), has.written]
      simp [List.inits_append]

theorem ancestors_eq (has : path.HasSegments segments) :
    path.ancestors = segments.inits.dropLast.reverse.map ofSegments := by
  have tail : path.ancestors = path.chain.tail := rfl
  rw [tail, has.chain_eq, ← List.map_tail, List.tail_reverse]

theorem mem_chain_iff_isPrefix {lower : Path} {lowerSegments : List String}
    (has : path.HasSegments segments) (lowerHas : lower.HasSegments lowerSegments) :
    path ∈ lower.chain ↔ segments <+: lowerSegments := by
  rw [lowerHas.chain_eq, List.mem_map]
  constructor
  · intro ⟨front, member, same⟩
    have begins := (List.mem_inits _ _).mp (List.mem_reverse.mp member)
    have frontHas := lowerHas.of_isPrefix begins
    rw [same] at frontHas
    rw [has.unique frontHas]
    exact begins
  · intro begins
    refine ⟨segments, List.mem_reverse.mpr ((List.mem_inits _ _).mpr begins), has.written.symm⟩

theorem mem_ancestors_iff_isPrefix {lower : Path} {lowerSegments : List String}
    (has : path.HasSegments segments) (lowerHas : lower.HasSegments lowerSegments) :
    path ∈ lower.ancestors ↔ segments <+: lowerSegments ∧ segments ≠ lowerSegments := by
  have different : path ≠ lower ↔ segments ≠ lowerSegments := by
    refine not_congr ⟨fun same => ?_, fun same => ?_⟩
    · subst same
      exact has.unique lowerHas
    · rw [has.written, lowerHas.written, same]
  rw [← has.mem_chain_iff_isPrefix lowerHas, ← different, mem_ancestors_iff, mem_chain_iff]
  constructor
  · intro above
    refine ⟨Or.inr above, fun same => ?_⟩
    subst same
    exact path.not_isAncestorOf_self above
  · intro ⟨position, apart⟩
    exact position.resolve_left apart

theorem forall₂_ancestors (has : path.HasSegments segments) :
    List.Forall₂ HasSegments path.ancestors segments.inits.dropLast.reverse := by
  rw [has.ancestors_eq, List.forall₂_map_left_iff, List.forall₂_same]
  intro front member
  have listed := List.dropLast_subset _ (List.mem_reverse.mp member)
  exact has.of_isPrefix ((List.mem_inits _ _).mp listed)

theorem getLast?_ancestors (has : path.HasSegments segments) (notRoot : path ≠ root) :
    path.ancestors.getLast? = some root := by
  rw [has.ancestors_eq, List.getLast?_map, List.getLast?_reverse]
  rcases List.eq_nil_or_concat segments with none | ⟨front, name, rfl⟩
  · exact absurd (has.eq_root_iff.mpr none) notRoot
  · have beginnings : (front.concat name).inits.dropLast = front.inits := by
      rw [List.concat_eq_append, List.inits_append]
      exact List.dropLast_concat
    rw [beginnings]
    cases front <;> rfl

theorem exists_parent (has : path.HasSegments segments) (notRoot : path ≠ root) :
    ∃ above name, path.parent = .ok above ∧ above.HasSegments segments.dropLast ∧
      path.name? = some name ∧ segments.getLast? = some name ∧ above.join name = .ok path := by
  rcases List.eq_nil_or_concat segments with none | ⟨front, name, rfl⟩
  · exact absurd (has.eq_root_iff.mpr none) notRoot
  · rw [List.concat_eq_append] at *
    have joined := has.join_last
    refine ⟨ofSegments front, name, parent_of_join joined, ?_, name?_of_join joined, ?_, joined⟩
    · rw [List.dropLast_concat]
      exact has.of_isPrefix (List.prefix_append _ _)
    · exact List.getLast?_concat

end HasSegments

/-! ### Files -/

theorem ofFile_eq_ok_iff {source : String} {path : Path} :
    ofFile source = .ok path ↔ parse source = .ok path ∧ path ≠ root := by
  unfold ofFile
  cases parse source with
  | error cause => simp
  | ok read => by_cases atRoot : read = root <;> grind

theorem ofFile_eq_error_iff {source : String} {cause : PathError} :
    ofFile source = .error cause ↔
      (parse source = .ok root ∧ cause = .fileAtRoot source) ∨ parse source = .error cause := by
  unfold ofFile
  cases parse source with
  | error other => simp
  | ok read => by_cases atRoot : read = root <;> grind

theorem splitFile_eq_ok_iff_join {source name : String} {directory : Path} :
    splitFile source = .ok (directory, name) ↔
      ∃ path, parse source = .ok path ∧ path ≠ root ∧ directory.join name = .ok path := by
  rw [splitFile_eq_ok_iff]
  refine exists_congr fun path => ?_
  rw [ofFile_eq_ok_iff, and_assoc]
  refine and_congr_right fun read => and_congr_right fun notRoot => ?_
  constructor
  · intro ⟨step, named⟩
    obtain ⟨other, otherNamed, joined⟩ := (valid_of_parse read).join_name notRoot
    rw [named] at otherNamed
    cases otherNamed
    rw [(parent_eq_ok_iff.mp step).2] at joined
    exact joined
  · exact fun joined => ⟨parent_of_join joined, name?_of_join joined⟩

theorem splitFile_eq_error_iff {source : String} {cause : PathError} :
    splitFile source = .error cause ↔
      ((∀ char ∈ source.toList, char = separator) ∧ cause = .fileAtRoot source) ∨
        parse source = .error cause := by
  rw [← parse_eq_root_iff, ← ofFile_eq_error_iff]
  cases read : ofFile source with
  | error other => rw [splitFile_of_error read]; simp
  | ok path =>
      obtain ⟨name, _, split⟩ := splitFile_of_ok read
      simp [split]

/-- Only the root is refused as the place of a file; a text that is no path is refused
for another reason. -/
theorem splitFile_eq_fileAtRoot_iff {source : String} :
    (∃ text, splitFile source = .error (.fileAtRoot text)) ↔
      ∀ char ∈ source.toList, char = separator := by
  constructor
  · intro ⟨text, refused⟩
    rcases splitFile_eq_error_iff.mp refused with ⟨all, _⟩ | unread
    · exact all
    · obtain ⟨segments, spelled⟩ := exists_spells source
      obtain ⟨_, segment, _, split, _, failed⟩ := (parse_eq_error_iff spelled).mp unread
      have free : separator ∉ segment.toList := by
        apply spelled.free
        rw [split]
        exact List.mem_append_right _ List.mem_cons_self
      rcases (checkSegment_eq_error_iff_of_free free).mp failed with ⟨_, same⟩ | ⟨_, same⟩ <;>
        cases same
  · exact fun all => ⟨source, splitFile_eq_error_iff.mpr (Or.inl ⟨all, rfl⟩)⟩

/-! ### Navigation and segments -/

/-- A path that was read has the segments of its text.  A name can be joined exactly
when it is a segment, and then stands behind them; parent and name take the last one
off again; the ancestors have the proper beginnings of the segments, longest first,
and so lie above just the paths whose segments go on behind theirs.  The text of a
file is split where its directory and its name are joined. -/
theorem navigation_follows_segments :
    (∀ source path, parse source = .ok path →
      ∃ segments, Spells source segments ∧ path.HasSegments segments ∧
        (∀ name, (∃ child, path.join name = .ok child) ↔
          name ≠ "" ∧ name ≠ "." ∧ name ≠ ".." ∧ separator ∉ name.toList) ∧
        (∀ name child, path.join name = .ok child →
          child.HasSegments (segments ++ [name]) ∧ child.parent = .ok path ∧
            child.name? = some name) ∧
        (path ≠ root → ∃ above name, path.parent = .ok above ∧
          above.HasSegments segments.dropLast ∧ path.name? = some name ∧
            segments.getLast? = some name ∧ above.join name = .ok path) ∧
        List.Forall₂ HasSegments path.ancestors segments.inits.dropLast.reverse ∧
        (path ≠ root → path.ancestors.getLast? = some root) ∧
        (∀ other lower lowerSegments, parse other = .ok lower → Spells other lowerSegments →
          (path ∈ lower.ancestors ↔ segments <+: lowerSegments ∧ segments ≠ lowerSegments))) ∧
    (∀ source,
      (∀ directory name, splitFile source = .ok (directory, name) ↔
        ∃ path, parse source = .ok path ∧ path ≠ root ∧ directory.join name = .ok path) ∧
      ((∃ text, splitFile source = .error (.fileAtRoot text)) ↔
        ∀ char ∈ source.toList, char = separator) ∧
      (∀ cause, splitFile source = .error cause ↔
        ((∀ char ∈ source.toList, char = separator) ∧ cause = .fileAtRoot source) ∨
          parse source = .error cause)) := by
  constructor
  · intro source path read
    obtain ⟨segments, spelled⟩ := exists_spells source
    have has : path.HasSegments segments := HasSegments.ofParse spelled read
    refine ⟨segments, spelled, has, fun name => ?_, fun name child joined => ?_,
      has.exists_parent, has.forall₂_ancestors, has.getLast?_ancestors, ?_⟩
    · constructor
      · exact fun ⟨_, joined⟩ => (join_eq_ok_iff.mp joined).1
      · exact fun segment => ⟨_, join_eq_ok_iff.mpr ⟨segment, rfl⟩⟩
    · exact ⟨has.join joined, parent_of_join joined, name?_of_join joined⟩
    · intro other lower lowerSegments lowerRead lowerSpelled
      exact has.mem_ancestors_iff_isPrefix (HasSegments.ofParse lowerSpelled lowerRead)
  · intro source
    exact ⟨fun _ _ => splitFile_eq_ok_iff_join, splitFile_eq_fileAtRoot_iff,
      fun _ => splitFile_eq_error_iff⟩

end Path
end Rollup

/-
Reading paths by their segments.

A text spells out segments when it is these, each free of separators, with one
separator between each two, and with any number of separators at its ends; the
first and the last of them are not empty.  Every text spells out exactly one list
of segments.  Reading accepts a text exactly when none of its segments is empty
or relative, and reports the first one that is.
-/

import Rollup.Proofs.Ancestry

namespace Rollup
namespace Path

/-- The path written with these segments. -/
def ofSegments (segments : List String) : Path := ⟨"/".intercalate segments⟩

/-- Between the separators at its ends, a text consists of these segments. -/
structure Spells (source : String) (segments : List String) : Prop where
  framed : ∃ before after, source.toList =
    List.replicate before separator ++ (ofSegments segments).chars ++
      List.replicate after separator
  free : ∀ segment ∈ segments, separator ∉ segment.toList
  opened : segments.head? ≠ some ""
  closed : segments.getLast? ≠ some ""

/-! ### Trimming -/

/-- Separators that are dropped off the front were all that stood before the rest. -/
private theorem dropSeparators_eq_iff {text rest : List Char} :
    text.dropWhile (· == separator) = rest ↔
      (∃ count, text = List.replicate count separator ++ rest) ∧
        rest.head? ≠ some separator := by
  constructor
  · intro dropped
    rw [← dropped]
    refine ⟨⟨(text.takeWhile (· == separator)).length, ?_⟩, fun atSeparator => ?_⟩
    · have taken : text.takeWhile (· == separator) =
          List.replicate (text.takeWhile (· == separator)).length separator := by
        refine List.eq_replicate_of_mem fun char member => ?_
        exact beq_iff_eq.mp (List.all_eq_true.mp List.all_takeWhile char member)
      rw [← taken, List.takeWhile_append_dropWhile]
    · have stopped := List.head?_dropWhile_not (· == separator) text
      rw [atSeparator] at stopped
      simp at stopped
  · intro ⟨⟨count, framed⟩, stops⟩
    rw [framed, List.dropWhile_append_of_pos (by simp)]
    cases rest with
    | nil => rfl
    | cons char rest =>
        rw [List.dropWhile_cons_of_neg]
        simpa using stops

/-- What trimming takes away are separators, and what it leaves has none at its ends. -/
theorem trimSeparators_eq_iff {text core : List Char} :
    trimSeparators text = core ↔
      (∃ before after, text =
        List.replicate before separator ++ core ++ List.replicate after separator) ∧
      core.head? ≠ some separator ∧ core.getLast? ≠ some separator := by
  rw [trimSeparators, List.reverse_eq_iff, dropSeparators_eq_iff, List.head?_reverse]
  constructor
  · intro ⟨⟨after, atEnd⟩, closed⟩
    have rest : text.dropWhile (· == separator) = core ++ List.replicate after separator := by
      rw [List.reverse_eq_iff] at atEnd
      simpa using atEnd
    obtain ⟨⟨before, framed⟩, opened⟩ := dropSeparators_eq_iff.mp rest
    refine ⟨⟨before, after, by rw [framed, List.append_assoc]⟩, ?_, closed⟩
    cases core with
    | nil => exact nofun
    | cons char core => exact opened
  · intro ⟨⟨before, after, framed⟩, opened, closed⟩
    refine ⟨?_, closed⟩
    cases core with
    | nil =>
        have all : text.dropWhile (· == separator) = [] := by
          rw [framed]
          simp
        exact ⟨0, by rw [all]; rfl⟩
    | cons char core =>
        have rest : text.dropWhile (· == separator) =
            (char :: core) ++ List.replicate after separator :=
          dropSeparators_eq_iff.mpr ⟨⟨before, by rw [framed, List.append_assoc]⟩, opened⟩
        exact ⟨after, by rw [rest]; simp⟩

theorem trimSeparators_eq_nil_iff {text : List Char} :
    trimSeparators text = [] ↔ ∀ char ∈ text, char = separator := by
  rw [trimSeparators_eq_iff]
  constructor
  · intro ⟨⟨before, after, framed⟩, _⟩ char member
    rw [framed] at member
    simp only [List.append_nil, List.mem_append, List.mem_replicate] at member
    exact member.elim And.right And.right
  · intro all
    refine ⟨⟨text.length, 0, ?_⟩, nofun, nofun⟩
    simpa using List.eq_replicate_of_mem all

/-! ### Writing segments -/

@[simp] theorem ofChars_chars (path : Path) : ofChars path.chars = path := by
  simp [ofChars, chars]

@[simp] theorem ofSegments_nil : ofSegments [] = root := rfl

@[simp] theorem ofSegments_singleton (segment : String) : ofSegments [segment] = ⟨segment⟩ := by
  simp [ofSegments]

theorem chars_ofSegments (segments : List String) :
    (ofSegments segments).chars = [separator].intercalate (segments.map String.toList) := by
  simp [chars, ofSegments, String.toList_intercalate, separator]

theorem chars_ofSegments_cons (first : String) {rest : List String} (more : rest ≠ []) :
    (ofSegments (first :: rest)).chars =
      first.toList ++ separator :: (ofSegments rest).chars := by
  simp [chars, ofSegments, String.intercalate_cons_of_ne_nil more, separator]

theorem chars_ofSegments_concat {front : List String} (more : front ≠ []) (last : String) :
    (ofSegments (front ++ [last])).chars =
      (ofSegments front).chars ++ separator :: last.toList := by
  simp [chars, ofSegments, String.intercalate_append_of_ne_nil more, separator]

theorem head?_ofSegments {segments : List String}
    (free : ∀ segment ∈ segments, separator ∉ segment.toList) (named : segments ≠ [""]) :
    (ofSegments segments).chars.head? = some separator ↔ segments.head? = some "" := by
  have inner {segment : String} (member : segment ∈ segments) :
      segment.toList.head? ≠ some separator :=
    fun opened => free segment member (List.mem_of_mem_head? opened)
  rcases segments with _ | ⟨first, _ | ⟨second, rest⟩⟩
  · simp [root, chars]
  · have nonempty : first ≠ "" := by simpa using named
    simpa [chars, nonempty] using inner List.mem_cons_self
  · rw [chars_ofSegments_cons first (List.cons_ne_nil _ _)]
    by_cases empty : first = ""
    · simp [empty]
    · have char : first.toList ≠ [] := by simpa using empty
      rw [List.head?_append_of_ne_nil _ char]
      simpa [empty] using inner List.mem_cons_self

theorem getLast?_ofSegments {segments : List String}
    (free : ∀ segment ∈ segments, separator ∉ segment.toList) (named : segments ≠ [""]) :
    (ofSegments segments).chars.getLast? = some separator ↔ segments.getLast? = some "" := by
  have inner {segment : String} (member : segment ∈ segments) :
      segment.toList.getLast? ≠ some separator :=
    fun closed => free segment member (List.mem_of_getLast? closed)
  rcases List.eq_nil_or_concat segments with rfl | ⟨front, last, rfl⟩
  · simp [root, chars]
  · rw [List.concat_eq_append] at *
    by_cases only : front = []
    · subst only
      have nonempty : last ≠ "" := by simpa using named
      simpa [chars, nonempty] using inner List.mem_cons_self
    · rw [chars_ofSegments_concat only]
      by_cases empty : last = ""
      · simp [empty]
      · have char : last.toList ≠ [] := by simpa using empty
        rw [List.getLast?_append_of_ne_nil _ (List.cons_ne_nil _ _), List.getLast?_cons_of_ne_nil char]
        simpa [empty] using inner (List.mem_append_right _ List.mem_cons_self)

/-- Segments are read back from the path written with them. -/
theorem eq_segments_of_free {segments : List String}
    (free : ∀ segment ∈ segments, separator ∉ segment.toList) (named : segments ≠ [""]) :
    segments =
      if (ofSegments segments).chars = [] then []
      else ((ofSegments segments).chars.splitOn separator).map String.ofList := by
  by_cases none : segments = []
  · subst none
    rfl
  · have split : (ofSegments segments).chars.splitOn separator = segments.map String.toList := by
      rw [chars_ofSegments, List.splitOn_intercalate _ _ (by simpa using none)]
      simpa using free
    have nonempty : (ofSegments segments).chars ≠ [] := by
      intro empty
      rw [empty, List.splitOn_nil] at split
      have injective : Function.Injective String.toList := fun _ _ => String.toList_injective
      exact named (List.map_injective_iff.mpr injective split.symm)
    rw [if_neg nonempty, split, List.map_map]
    simp [Function.comp_def]

theorem not_mem_of_mem_splitOn {text part : List Char} (member : part ∈ text.splitOn separator) :
    separator ∉ part := by
  induction text generalizing part with
  | nil => simp_all
  | cons char rest inductionHypothesis =>
      rw [List.splitOn_cons_eq_if_modifyHead] at member
      obtain ⟨first, others, split⟩ := List.exists_cons_of_ne_nil (List.splitOn_ne_nil separator rest)
      rw [split] at member inductionHypothesis
      split at member
      · rcases List.mem_cons.mp member with rfl | further
        · exact List.not_mem_nil
        · exact inductionHypothesis further
      · rename_i different
        rcases List.mem_cons.mp member with rfl | further
        · have other : char ≠ separator := by simpa using different
          have free := inductionHypothesis List.mem_cons_self
          exact List.not_mem_cons_of_ne_of_not_mem other.symm free
        · exact inductionHypothesis (List.mem_cons_of_mem _ further)

/-! ### Every text spells out one list of segments -/

theorem spells_iff {source : String} {segments : List String} :
    Spells source segments ↔
      trimSeparators source.toList = (ofSegments segments).chars ∧
        (∀ segment ∈ segments, separator ∉ segment.toList) ∧ segments ≠ [""] := by
  constructor
  · intro spelled
    have named : segments ≠ [""] := by
      intro same
      subst same
      exact spelled.opened rfl
    refine ⟨trimSeparators_eq_iff.mpr ⟨spelled.framed, ?_, ?_⟩, spelled.free, named⟩
    · exact (head?_ofSegments spelled.free named).not.mpr spelled.opened
    · exact (getLast?_ofSegments spelled.free named).not.mpr spelled.closed
  · intro ⟨trimmed, free, named⟩
    obtain ⟨framed, opened, closed⟩ := trimSeparators_eq_iff.mp trimmed
    exact
      { framed := framed
        free := free
        opened := (head?_ofSegments free named).not.mp opened
        closed := (getLast?_ofSegments free named).not.mp closed }

theorem exists_spells (source : String) : ∃ segments, Spells source segments := by
  by_cases empty : trimSeparators source.toList = []
  · exact ⟨[], spells_iff.mpr ⟨empty, by simp, by simp⟩⟩
  · let parts := (trimSeparators source.toList).splitOn separator
    have trimmed : trimSeparators source.toList = (ofSegments (parts.map String.ofList)).chars := by
      rw [chars_ofSegments, List.map_map]
      simp [Function.comp_def, parts, List.intercalate_splitOn]
    refine ⟨parts.map String.ofList, spells_iff.mpr ⟨trimmed, ?_, ?_⟩⟩
    · intro segment member
      obtain ⟨part, isPart, same⟩ := List.mem_map.mp member
      rw [← same, String.toList_ofList]
      exact not_mem_of_mem_splitOn isPart
    · intro single
      rw [single] at trimmed
      exact empty trimmed

theorem Spells.unique {source : String} {left right : List String} (leftSpelled : Spells source left)
    (rightSpelled : Spells source right) : left = right := by
  obtain ⟨leftTrimmed, leftFree, leftNamed⟩ := spells_iff.mp leftSpelled
  obtain ⟨rightTrimmed, rightFree, rightNamed⟩ := spells_iff.mp rightSpelled
  rw [eq_segments_of_free leftFree leftNamed, eq_segments_of_free rightFree rightNamed,
    ← leftTrimmed, ← rightTrimmed]

/-! ### Reading -/

theorem checkSegments_eq_ok_iff {source : String} {segments : List String} :
    checkSegments source (segments.map String.toList) = .ok () ↔
      ∀ segment ∈ segments, IsSegment segment := by
  induction segments with
  | nil => simp [checkSegments]
  | cons segment rest inductionHypothesis =>
      rw [List.forall_mem_cons, ← inductionHypothesis, ← @checkSegment_eq_ok_iff source]
      simp only [List.map_cons, checkSegments, String.ofList_toList]
      split <;> simp_all

/-- The first segment that is refused is the one that is reported. -/
theorem checkSegments_eq_error_iff {source : String} {segments : List String} {cause : PathError} :
    checkSegments source (segments.map String.toList) = .error cause ↔
      ∃ earlier segment later, segments = earlier ++ segment :: later ∧
        (∀ good ∈ earlier, IsSegment good) ∧ checkSegment source segment = .error cause := by
  induction segments with
  | nil => simp [checkSegments]
  | cons first rest inductionHypothesis =>
      simp only [List.map_cons, checkSegments, String.ofList_toList]
      cases checked : checkSegment source first with
      | error other =>
          constructor
          · intro same
            cases same
            exact ⟨[], first, rest, rfl, List.forall_mem_nil _, checked⟩
          · rintro ⟨earlier, segment, later, split, good, failed⟩
            cases earlier with
            | nil =>
                cases split
                rw [← failed, checked]
            | cons front earlier =>
                cases split
                have passed : checkSegment source first = .ok () :=
                  checkSegment_eq_ok_iff.mpr (good first List.mem_cons_self)
                rw [checked] at passed
                cases passed
      | ok _ =>
          rw [inductionHypothesis]
          constructor
          · rintro ⟨earlier, segment, later, split, good, failed⟩
            refine ⟨first :: earlier, segment, later, by rw [split, List.cons_append], ?_, failed⟩
            exact List.forall_mem_cons.mpr ⟨checkSegment_eq_ok_iff.mp checked, good⟩
          · rintro ⟨earlier, segment, later, split, good, failed⟩
            cases earlier with
            | nil =>
                cases split
                rw [checked] at failed
                cases failed
            | cons front earlier =>
                cases split
                exact ⟨earlier, segment, later, rfl, (List.forall_mem_cons.mp good).2, failed⟩

theorem isSegment_iff_of_free {segment : String} (free : separator ∉ segment.toList) :
    IsSegment segment ↔ segment ≠ "" ∧ segment ≠ "." ∧ segment ≠ ".." := by
  simp [IsSegment, free]

theorem checkSegment_eq_error_iff_of_free {source segment : String} {cause : PathError}
    (free : separator ∉ segment.toList) :
    checkSegment source segment = .error cause ↔
      (segment = "" ∧ cause = .emptySegment source) ∨
        ((segment = "." ∨ segment = "..") ∧ cause = .relativeSegment source segment) := by
  unfold checkSegment
  by_cases empty : segment = ""
  · rw [if_pos empty, Except.error.injEq, eq_comm]
    simp [empty]
  · rw [if_neg empty]
    by_cases relative : segment = "." ∨ segment = ".."
    · rw [if_pos relative, Except.error.injEq, eq_comm]
      simp [empty, relative]
    · simp [empty, relative, free]

theorem parse_of_spells {source : String} {segments : List String}
    (spelled : Spells source segments) :
    parse source =
      (checkSegments source (segments.map String.toList)).map fun _ => ofSegments segments := by
  obtain ⟨trimmed, free, named⟩ := spells_iff.mp spelled
  have readBack := eq_segments_of_free free named
  rw [← trimmed] at readBack
  unfold parse
  dsimp only
  by_cases empty : trimSeparators source.toList = []
  · rw [if_pos empty] at readBack ⊢
    rw [readBack]
    rfl
  · rw [if_neg empty] at readBack ⊢
    have split : segments.map String.toList = (trimSeparators source.toList).splitOn separator := by
      rw [readBack, List.map_map]
      simp [Function.comp_def]
    rw [split, trimmed, ofChars_chars]
    cases checkSegments source ((ofSegments segments).chars.splitOn separator) <;> rfl

theorem parse_eq_ok_iff {source : String} {segments : List String}
    (spelled : Spells source segments) {path : Path} :
    parse source = .ok path ↔
      (∀ segment ∈ segments, IsSegment segment) ∧ path = ofSegments segments := by
  rw [parse_of_spells spelled, ← @checkSegments_eq_ok_iff source]
  cases checkSegments source (segments.map String.toList) with
  | error cause => simp [Except.map]
  | ok _ => simp [Except.map, eq_comm]

theorem parse_eq_error_iff {source : String} {segments : List String}
    (spelled : Spells source segments) {cause : PathError} :
    parse source = .error cause ↔
      ∃ earlier segment later, segments = earlier ++ segment :: later ∧
        (∀ good ∈ earlier, IsSegment good) ∧ checkSegment source segment = .error cause := by
  rw [parse_of_spells spelled, ← checkSegments_eq_error_iff]
  cases checkSegments source (segments.map String.toList) with
  | error other => simp [Except.map]
  | ok _ => simp [Except.map]

theorem parse_eq_root_iff {source : String} :
    parse source = .ok root ↔ ∀ char ∈ source.toList, char = separator := by
  rw [← trimSeparators_eq_nil_iff]
  obtain ⟨segments, spelled⟩ := exists_spells source
  constructor
  · intro read
    have written := ((parse_eq_ok_iff spelled).mp read).2
    rw [(spells_iff.mp spelled).1, ← written]
    rfl
  · intro trimmed
    have nothing : Spells source [] := spells_iff.mpr ⟨trimmed, nofun, nofun⟩
    exact (parse_eq_ok_iff nothing).mpr ⟨nofun, rfl⟩

/-- The display of a path spells out the segments it is written with. -/
theorem Spells.display {source : String} {segments : List String} (spelled : Spells source segments) :
    Spells (ofSegments segments).display segments :=
  { spelled with framed := ⟨1, 0, by simp [Path.display, chars, separator]⟩ }

theorem Spells.ofSegments_inj {source other : String} {left right : List String}
    (leftSpelled : Spells source left) (rightSpelled : Spells other right) :
    ofSegments left = ofSegments right ↔ left = right := by
  constructor
  · intro same
    have leftDisplay := leftSpelled.display
    rw [same] at leftDisplay
    exact leftDisplay.unique rightSpelled.display
  · exact congrArg ofSegments

/-- A text has one list of segments, and it is read as these: as the root when it holds
nothing but separators, as the path written with its segments when none of them is
empty or relative, and otherwise it is refused for the first that is.  A path is read
back from its display, and two texts are read as the same path exactly when they have
the same segments. -/
theorem parse_reads_segments (source : String) :
    ∃ segments, (∀ other, Spells source other ↔ other = segments) ∧
      (parse source = .ok root ↔ ∀ char ∈ source.toList, char = separator) ∧
      (∀ path, parse source = .ok path ↔
        (∀ segment ∈ segments, segment ≠ "" ∧ segment ≠ "." ∧ segment ≠ "..") ∧
          path = ofSegments segments) ∧
      (∀ cause, parse source = .error cause ↔
        ∃ earlier segment later, segments = earlier ++ segment :: later ∧
          (∀ good ∈ earlier, good ≠ "" ∧ good ≠ "." ∧ good ≠ "..") ∧
          ((segment = "" ∧ cause = .emptySegment source) ∨
            ((segment = "." ∨ segment = "..") ∧ cause = .relativeSegment source segment))) ∧
      (∀ path, parse source = .ok path → parse path.display = .ok path) ∧
      (∀ other otherSegments left right, Spells other otherSegments →
        parse source = .ok left → parse other = .ok right →
          (left = right ↔ segments = otherSegments)) := by
  obtain ⟨segments, spelled⟩ := exists_spells source
  refine ⟨segments, fun other => ⟨fun otherSpelled => otherSpelled.unique spelled, ?_⟩,
    parse_eq_root_iff, fun path => ?_, fun cause => ?_, fun path read => ?_, ?_⟩
  · intro same
    rw [same]
    exact spelled
  · rw [parse_eq_ok_iff spelled]
    refine and_congr_left fun _ => forall₂_congr fun segment member => ?_
    exact isSegment_iff_of_free (spelled.free segment member)
  · rw [parse_eq_error_iff spelled]
    refine exists₃_congr fun earlier segment later => and_congr_right fun split => ?_
    have free : ∀ part ∈ earlier ++ segment :: later, separator ∉ part.toList := by
      rw [← split]
      exact spelled.free
    refine and_congr ?_ ?_
    · refine forall₂_congr fun good member => ?_
      exact isSegment_iff_of_free (free good (List.mem_append_left _ member))
    · apply checkSegment_eq_error_iff_of_free
      exact free segment (List.mem_append_right _ List.mem_cons_self)
  · obtain ⟨good, written⟩ := (parse_eq_ok_iff spelled).mp read
    rw [written]
    exact (parse_eq_ok_iff spelled.display).mpr ⟨good, rfl⟩
  · intro other otherSegments left right otherSpelled leftRead rightRead
    rw [((parse_eq_ok_iff spelled).mp leftRead).2, ((parse_eq_ok_iff otherSpelled).mp rightRead).2]
    exact spelled.ofSegments_inj otherSpelled

example : parse "//a/./../b" = .error (.relativeSegment "//a/./../b" ".") := by decide

end Path
end Rollup

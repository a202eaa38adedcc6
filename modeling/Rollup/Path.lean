/-
Directory paths of the remote tree.

A path is its segments joined by separators, without a separator at either
end; the root is the empty text and is displayed as a single separator.  A
stored snapshot may hold any text as a path, so the text is the key of a
directory and only `Path.parse` and `Path.join` promise well-formed segments.
-/

import Rollup.OrderedMap

namespace Rollup

/-- A directory, named by its text. -/
structure Path where
  text : String
  deriving DecidableEq

/-- Why a text is no path, or why a path has no further step. -/
inductive PathError where
  | emptySegment (path : String)
  | relativeSegment (path segment : String)
  | separatorInSegment (path segment : String)
  | noParent (path : String)
  | fileAtRoot (path : String)
  deriving DecidableEq

def PathError.message : PathError → String
  | .emptySegment path => s!"Path '{path}' contains an empty segment"
  | .relativeSegment path segment =>
      s!"Path '{path}' contains the relative segment '{segment}'"
  | .separatorInSegment path segment =>
      s!"Segment '{segment}' of path '{path}' contains a separator"
  | .noParent path => s!"The root directory '{path}' has no parent"
  | .fileAtRoot path => s!"Path '{path}' names the root, not a file"

namespace Path

/-! ### Order -/

/-- Paths are ordered by their text, code point by code point. -/
instance : Ord Path := ⟨fun left right => compare left.text right.text⟩

instance : Std.TransOrd Path where
  eq_swap := fun {left right} =>
    @Std.OrientedCmp.eq_swap String compare _ left.text right.text
  isLE_trans := fun {left middle right} =>
    @Std.TransCmp.isLE_trans String compare _ left.text middle.text right.text

instance : Std.LawfulEqOrd Path where
  compare_self := fun {path} => @Std.ReflCmp.compare_self String compare _ path.text
  eq_of_compare := fun {left right} equal =>
    congrArg Path.mk (@Std.LawfulEqCmp.eq_of_compare String compare _ left.text right.text equal)

/-! ### Segments -/

def separator : Char := '/'

/-- Drops every separator at both ends. -/
def trimSeparators (text : List Char) : List Char :=
  ((text.dropWhile (· == separator)).reverse.dropWhile (· == separator)).reverse

/-- Checks one segment, reporting the text it came from. -/
def checkSegment (source segment : String) : Except PathError Unit :=
  if segment = "" then .error (.emptySegment source)
  else if segment = "." ∨ segment = ".." then .error (.relativeSegment source segment)
  else if separator ∈ segment.toList then .error (.separatorInSegment source segment)
  else .ok ()

/-- Checks segments from left to right; the first bad one is reported. -/
def checkSegments (source : String) : List (List Char) → Except PathError Unit
  | [] => .ok ()
  | segment :: rest =>
      match checkSegment source (String.ofList segment) with
      | .error error => .error error
      | .ok () => checkSegments source rest

/-! ### Reading and writing -/

def root : Path := ⟨""⟩

def isRoot (path : Path) : Bool := path.text == ""

def chars (path : Path) : List Char := path.text.toList

def ofChars (text : List Char) : Path := ⟨String.ofList text⟩

/-- Reads a path; separators at the ends do not count. -/
def parse (source : String) : Except PathError Path :=
  let trimmed := trimSeparators source.toList
  if trimmed = [] then .ok root
  else
    match checkSegments source (trimmed.splitOn separator) with
    | .error error => .error error
    | .ok () => .ok (ofChars trimmed)

def display (path : Path) : String := "/" ++ path.text

/-! ### Steps in the tree -/

/-- The last segment; the root has none. -/
def name? (path : Path) : Option String :=
  if path.isRoot then none
  else some (String.ofList (path.chars.reverse.takeWhile (· != separator)).reverse)

/-- The text before the last separator, or the root when there is none. -/
def parentOfNonRoot (path : Path) : Path :=
  ofChars ((path.chars.reverse.dropWhile (· != separator)).drop 1).reverse

def parent (path : Path) : Except PathError Path :=
  if path.isRoot then .error (.noParent path.display) else .ok path.parentOfNonRoot

/-- The directory called `name` directly below. -/
def join (path : Path) (name : String) : Except PathError Path :=
  let joined := if path.isRoot then name else path.text ++ "/" ++ name
  match checkSegment joined name with
  | .error error => .error error
  | .ok () => .ok ⟨joined⟩

/-- The directory that holds a file, and the file's name in it. -/
def splitFile (source : String) : Except PathError (Path × String) :=
  match parse source with
  | .error error => .error error
  | .ok full =>
      match full.name? with
      | none => .error (.fileAtRoot source)
      | some name => .ok (full.parentOfNonRoot, name)

/-- The texts of all proper ancestors, nearest first, from a text read
backwards: what is left after each separator, and at last the root. -/
def ancestorTexts : List Char → List (List Char)
  | [] => [[]]
  | char :: rest =>
      if char = separator then
        if rest = [] then [[]] else rest.reverse :: ancestorTexts rest
      else ancestorTexts rest

/-- Every proper ancestor, nearest first, ending with the root. -/
def ancestors (path : Path) : List Path :=
  if path.isRoot then [] else (ancestorTexts path.chars.reverse).map ofChars

/-- A directory followed by its ancestors: what a bubble from it visits. -/
def chain (path : Path) : List Path := path :: path.ancestors

/-! ### Ancestors are the parent taken again and again -/

@[simp] theorem chars_ofChars (text : List Char) : (ofChars text).chars = text :=
  String.toList_ofList

theorem isRoot_iff_chars (path : Path) : path.isRoot = true ↔ path.chars = [] := by
  simp [isRoot, chars]

theorem isRoot_ofChars (text : List Char) : (ofChars text).isRoot = text.isEmpty := by
  rw [Bool.eq_iff_iff, isRoot_iff_chars]
  simp

theorem ancestorTexts_step (backwards : List Char) (nonempty : backwards ≠ []) :
    (ancestorTexts backwards).map ofChars =
      (ofChars ((backwards.dropWhile (· != separator)).drop 1).reverse) ::
        (ofChars ((backwards.dropWhile (· != separator)).drop 1).reverse).ancestors := by
  induction backwards with
  | nil => contradiction
  | cons char rest inductionHypothesis =>
      by_cases atSeparator : char = separator
      · subst atSeparator
        by_cases last : rest = []
        · subst last
          simp [ancestorTexts, ancestors, isRoot_ofChars]
        · simp [ancestorTexts, ancestors, isRoot_ofChars, last]
      · by_cases last : rest = []
        · subst last
          simp [ancestorTexts, ancestors, isRoot_ofChars, atSeparator]
        · have step := inductionHypothesis last
          simpa [ancestorTexts, atSeparator] using step

theorem ancestors_eq_cons {path : Path} (notRoot : path.isRoot = false) :
    path.ancestors = path.parentOfNonRoot :: path.parentOfNonRoot.ancestors := by
  have nonempty : path.chars.reverse ≠ [] := by
    intro empty
    have isRoot := (isRoot_iff_chars path).mpr (List.reverse_eq_nil_iff.mp empty)
    simp [notRoot] at isRoot
  have step := ancestorTexts_step path.chars.reverse nonempty
  simpa [ancestors, notRoot, parentOfNonRoot] using step

end Path

end Rollup

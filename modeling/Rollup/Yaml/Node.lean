/-
The nodes of a document.

A mapping keeps its entries in order; storing a key again drops its earlier
entry.  A scalar that its tag does not fit is a `bad` node: as a key it is
passed over, so that the nodes behind it take its place.
-/

import Rollup.Yaml.Scalar

namespace Rollup.Yaml

/-- A tag with its handle written out. -/
structure Tag where
  expansion : String
  suffix : String
  deriving DecidableEq

/-- A tag as a notice names it. -/
def Tag.describe (tag : Tag) : String :=
  "Tag \x7b handle: " ++ quoted tag.expansion ++ ", suffix: " ++ quoted tag.suffix ++
    " \x7d"

inductive Node where
  | scalar (value : Scalar)
  | sequence (items : List Node)
  | mapping (entries : List (Node × Node))
  | tagged (tag : Tag) (content : Node)
  | bad

namespace Node

instance : Inhabited Node := ⟨bad⟩

def isBad : Node → Bool
  | bad => true
  | _ => false

/-! ### Sameness of keys -/

mutual

/-- Two nodes are the same key. -/
def same : Node → Node → Bool
  | .scalar left, .scalar right => left.same right
  | .sequence left, .sequence right => sameItems left right
  | .mapping left, .mapping right => sameEntries left right
  | .tagged leftTag left, .tagged rightTag right => leftTag = rightTag && left.same right
  | .bad, .bad => true
  | _, _ => false

def sameItems : List Node → List Node → Bool
  | [], [] => true
  | left :: lefts, right :: rights => left.same right && sameItems lefts rights
  | _, _ => false

def sameEntries : List (Node × Node) → List (Node × Node) → Bool
  | [], [] => true
  | (leftKey, left) :: lefts, (rightKey, right) :: rights =>
      leftKey.same rightKey && left.same right && sameEntries lefts rights
  | _, _ => false

end

/-! ### Mappings -/

/-- Stores an entry behind the others. -/
def putEntry (entries : List (Node × Node)) (key value : Node) : List (Node × Node) :=
  entries.filter (fun entry => !entry.1.same key) ++ [(key, value)]

/-- Takes a node as a key, or as the value of the key that waits for one. -/
def addChild (state : List (Node × Node) × Option Node) (node : Node) :
    List (Node × Node) × Option Node :=
  match state.2 with
  | none => if node.isBad then state else (state.1, some node)
  | some key => (putEntry state.1 key node, none)

/-- The mapping of alternating keys and values. -/
def ofChildren (children : List Node) : Node :=
  .mapping (children.foldl addChild ([], none)).1

/-- The value of a textual key. -/
def lookup (entries : List (Node × Node)) (key : String) : Option Node :=
  (entries.find? fun entry => entry.1.same (.scalar (.text key))).map Prod.snd

/-! ### Parts of nodes -/

def asMapping : Node → Option (List (Node × Node))
  | .mapping entries => some entries
  | _ => none

def asSequence : Node → Option (List Node)
  | .sequence items => some items
  | _ => none

def asText : Node → Option String
  | .scalar (.text value) => some value
  | _ => none

def asInteger : Node → Option Int
  | .scalar (.integer value) => some value
  | _ => none

/-- A number of either kind, as a floating-point value. -/
def asNumber : Node → Option Binary64
  | .scalar (.float value) => some value
  | .scalar (.integer value) => some (Binary64.ofInt value)
  | _ => none

/-! ### Notices -/

mutual

/-- A node as a notice names it, with the kinds of all its parts. -/
def describe : Node → String
  | .scalar value => s!"Value({value.describe})"
  | .sequence items => s!"Sequence([{describeItems items}])"
  | .mapping entries => "Mapping(\x7b" ++ describeEntries entries ++ "\x7d)"
  | .tagged tag content => s!"Tagged({tag.describe}, {content.describe})"
  | .bad => "BadValue"

def describeItems : List Node → String
  | [] => ""
  | [item] => item.describe
  | item :: items => item.describe ++ ", " ++ describeItems items

def describeEntries : List (Node × Node) → String
  | [] => ""
  | [(key, value)] => key.describe ++ ": " ++ value.describe
  | (key, value) :: entries =>
      key.describe ++ ": " ++ value.describe ++ ", " ++ describeEntries entries

end

end Node

end Rollup.Yaml

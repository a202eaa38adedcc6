/-
From tokens to documents.

Each construct is read by a function of its own, which answers the nodes it
holds and what follows it.  Anchors keep the nodes they name; an alias inside
of the node that its anchor names stands for nothing.
-/

import Rollup.Yaml.Token
import Rollup.Yaml.Node

namespace Rollup.Yaml

/-- The tokens ahead, and what the ones behind have declared. -/
structure Reading where
  ahead : List Token
  /-- what the handles of the current document stand for -/
  handles : List (String × String)
  /-- the anchors of the current document, each with its number -/
  anchors : List (String × Nat)
  /-- the nodes of finished anchors by their numbers -/
  finished : List (Nat × Node)
  nextAnchor : Nat

namespace Reading

def start (tokens : List Token) : Reading :=
  { ahead := tokens, handles := [], anchors := [], finished := [], nextAnchor := 0 }

def next? (reading : Reading) : Option Token := reading.ahead.head?

def skip (reading : Reading) : Reading := { reading with ahead := reading.ahead.tail }

def nextIsOneOf (reading : Reading) (tokens : List Token) : Bool :=
  match reading.next? with
  | none => false
  | some token => tokens.contains token

/-! ### Anchors and tags -/

def openAnchor (name : String) (reading : Reading) : Nat × Reading :=
  (reading.nextAnchor,
    { reading with
      anchors := (name, reading.nextAnchor) :: reading.anchors
      nextAnchor := reading.nextAnchor + 1 })

def closeAnchor (anchor : Option Nat) (node : Node) (reading : Reading) : Reading :=
  match anchor with
  | none => reading
  | some number => { reading with finished := (number, node) :: reading.finished }

/-- The node that an alias stands for; an unknown name is refused. -/
def resolveAlias (name : String) (reading : Reading) : Option Node :=
  (reading.anchors.lookup name).map fun number => (reading.finished.lookup number).getD .bad

/-- Writes out the handle of a tag.  A handle with a name has to be declared. -/
def resolveTag (handle suffix : String) (reading : Reading) : Option Tag :=
  match reading.handles.lookup handle with
  | some expansion => some { expansion := expansion, suffix := suffix }
  | none =>
      if handle = "!!" then some { expansion := "tag:yaml.org,2002:", suffix := suffix }
      else if handle = "" ∨ handle = "!" then some { expansion := handle, suffix := suffix }
      else none

structure Properties where
  anchor : Option Nat
  tag : Option Tag

/-- Takes an anchor and a tag off the front, in either order and each at most
once. -/
def takeProperties (reading : Reading) : Option (Properties × Reading) :=
  match reading.ahead with
  | .anchor name :: .tag handle suffix :: _ =>
      let (number, opened) := reading.skip.skip.openAnchor name
      (opened.resolveTag handle suffix).map fun tag =>
        ({ anchor := some number, tag := some tag }, opened)
  | .tag handle suffix :: .anchor name :: _ =>
      let (number, opened) := reading.skip.skip.openAnchor name
      (opened.resolveTag handle suffix).map fun tag =>
        ({ anchor := some number, tag := some tag }, opened)
  | .anchor name :: _ =>
      let (number, opened) := reading.skip.openAnchor name
      some ({ anchor := some number, tag := none }, opened)
  | .tag handle suffix :: _ =>
      (reading.resolveTag handle suffix).map fun tag =>
        ({ anchor := none, tag := some tag }, reading.skip)
  | _ => some ({ anchor := none, tag := none }, reading)

end Reading

/-! ### Nodes under a tag -/

def isCoreTag (tag : Tag) : Bool := tag.expansion = "tag:yaml.org,2002:"

/-- A tag outside of the core ones is kept with its node. -/
def applyTag (tag : Option Tag) (node : Node) : Node :=
  match tag with
  | none => node
  | some tag => if isCoreTag tag then node else .tagged tag node

def scalarNode (tag : Option Tag) (plain : Bool) (text : String) : Node :=
  if !plain then .scalar (.text text)
  else
    match tag with
    | none => .scalar (Scalar.guess text)
    | some tag =>
        if isCoreTag tag then ((Scalar.ofTag tag.suffix text).map Node.scalar).getD .bad
        else .scalar (Scalar.guess text)

def absent : Node := .scalar .null

/-! ### Nodes and collections -/

open Reading

mutual

/-- Reads a node.  In brackets there are no blocks, and only as a part of a
block mapping may a sequence go without an indentation of its own. -/
def readNode (inBlock mayHang : Bool) : Nat → Reading → Option (Node × Reading)
  | 0, _ => none
  | fuel + 1, reading =>
      match reading.next? with
      | some (.alias name) =>
          (reading.resolveAlias name).map fun node => (node, reading.skip)
      | _ =>
          match reading.takeProperties with
          | none => none
          | some (properties, body) =>
              match readContent inBlock mayHang fuel properties body with
              | none => none
              | some (content, after) =>
                  let node := applyTag properties.tag content
                  some (node, after.closeAnchor properties.anchor node)

def readContent (inBlock mayHang : Bool) :
    Nat → Properties → Reading → Option (Node × Reading)
  | 0, _, _ => none
  | fuel + 1, properties, reading =>
      let sequence := fun (found : Option (List Node × Reading)) =>
        found.map fun (items, after) => (Node.sequence items, after)
      let mapping := fun (found : Option (List Node × Reading)) =>
        found.map fun (children, after) => (Node.ofChildren children, after)
      match reading.next? with
      | some (.scalar plain text) =>
          some (scalarNode properties.tag plain text, reading.skip)
      | some .flowSequenceStart => sequence (readFlowSequence true fuel reading.skip)
      | some .flowMappingStart => mapping (readFlowMapping true fuel reading.skip)
      | other =>
          if other = some .blockEntry ∧ mayHang then sequence (readHanging fuel reading)
          else if other = some .blockSequenceStart ∧ inBlock then
            sequence (readBlockSequence fuel reading.skip)
          else if other = some .blockMappingStart ∧ inBlock then
            mapping (readBlockMapping fuel reading.skip)
          else if properties.tag.isSome ∨ properties.anchor.isSome then
            some (scalarNode properties.tag true "", reading)
          else none

def readPart (inBlock mayHang : Bool) (stops : List Token) :
    Nat → Reading → Option (Node × Reading)
  | 0, _ => none
  | fuel + 1, reading =>
      if reading.nextIsOneOf stops then some (absent, reading)
      else readNode inBlock mayHang fuel reading

def readBlockSequence : Nat → Reading → Option (List Node × Reading)
  | 0, _ => none
  | fuel + 1, reading =>
      match reading.next? with
      | some .blockEnd => some ([], reading.skip)
      | some .blockEntry =>
          match readPart true false [.blockEntry, .blockEnd] fuel reading.skip with
          | none => none
          | some (item, after) =>
              (readBlockSequence fuel after).map fun (items, rest) => (item :: items, rest)
      | _ => none

/-- Reads the entries of a sequence that has no indentation of its own; it ends
before whatever is no entry. -/
def readHanging : Nat → Reading → Option (List Node × Reading)
  | 0, _ => none
  | fuel + 1, reading =>
      match reading.next? with
      | some .blockEntry =>
          match readPart true false [.blockEntry, .key, .value, .blockEnd] fuel
              reading.skip with
          | none => none
          | some (item, after) =>
              (readHanging fuel after).map fun (items, rest) => (item :: items, rest)
      | _ => some ([], reading)

def readBlockMapping : Nat → Reading → Option (List Node × Reading)
  | 0, _ => none
  | fuel + 1, reading =>
      match reading.next? with
      | some .blockEnd => some ([], reading.skip)
      | some .key =>
          match readPart true true [.key, .value, .blockEnd] fuel reading.skip with
          | none => none
          | some (key, after) => readBlockValue key fuel after
      | some .value => readBlockValue absent fuel reading
      | _ => none

def readBlockValue (key : Node) : Nat → Reading → Option (List Node × Reading)
  | 0, _ => none
  | fuel + 1, reading =>
      let found :=
        if reading.next? = some .value then
          readPart true true [.key, .value, .blockEnd] fuel reading.skip
        else some (absent, reading)
      match found with
      | none => none
      | some (value, after) =>
          (readBlockMapping fuel after).map fun (children, rest) =>
            (key :: value :: children, rest)

def readFlowSequence (isFirst : Bool) : Nat → Reading → Option (List Node × Reading)
  | 0, _ => none
  | fuel + 1, reading =>
      if reading.next? = some .flowSequenceEnd then some ([], reading.skip)
      else if isFirst then readFlowItem fuel reading
      else if reading.next? = some .flowEntry then readFlowItem fuel reading.skip
      else none

def readFlowItem : Nat → Reading → Option (List Node × Reading)
  | 0, _ => none
  | fuel + 1, reading =>
      match reading.next? with
      | some .flowSequenceEnd => some ([], reading.skip)
      | some .key =>
          match readPair fuel reading.skip with
          | none => none
          | some (pair, after) =>
              (readFlowSequence false fuel after).map fun (items, rest) =>
                (pair :: items, rest)
      | _ =>
          match readNode false false fuel reading with
          | none => none
          | some (item, after) =>
              (readFlowSequence false fuel after).map fun (items, rest) =>
                (item :: items, rest)

/-- Reads a single pair as an entry of a sequence in brackets.  Where its key is
left out, the token that stands in its place is passed over. -/
def readPair : Nat → Reading → Option (Node × Reading)
  | 0, _ => none
  | fuel + 1, reading =>
      let found :=
        if reading.nextIsOneOf [.value, .flowEntry, .flowSequenceEnd] then
          some (absent, reading.skip)
        else readNode false false fuel reading
      match found with
      | none => none
      | some (key, afterKey) =>
          let foundValue :=
            if afterKey.next? = some .value then
              readPart false false [.flowEntry, .flowSequenceEnd] fuel afterKey.skip
            else some (absent, afterKey)
          foundValue.map fun (value, after) => (Node.ofChildren [key, value], after)

def readFlowMapping (isFirst : Bool) : Nat → Reading → Option (List Node × Reading)
  | 0, _ => none
  | fuel + 1, reading =>
      if reading.next? = some .flowMappingEnd then some ([], reading.skip)
      else if isFirst then readFlowKey fuel reading
      else if reading.next? = some .flowEntry then readFlowKey fuel reading.skip
      else none

/-- Reads a key in braces, if there is one, its value, and what follows.  A node
without a key mark has no value. -/
def readFlowKey : Nat → Reading → Option (List Node × Reading)
  | 0, _ => none
  | fuel + 1, reading =>
      match reading.next? with
      | some .flowMappingEnd => some ([], reading.skip)
      | some .key =>
          match readPart false false [.value, .flowEntry, .flowMappingEnd] fuel
              reading.skip with
          | none => none
          | some (key, after) => readFlowValue key fuel after
      | some .value => readFlowValue absent fuel reading
      | _ =>
          match readNode false false fuel reading with
          | none => none
          | some (key, after) =>
              (readFlowMapping false fuel after).map fun (children, rest) =>
                (key :: absent :: children, rest)

def readFlowValue (key : Node) : Nat → Reading → Option (List Node × Reading)
  | 0, _ => none
  | fuel + 1, reading =>
      let found :=
        if reading.next? = some .value then
          readPart false false [.flowEntry, .flowMappingEnd] fuel reading.skip
        else some (absent, reading)
      match found with
      | none => none
      | some (value, after) =>
          (readFlowMapping false fuel after).map fun (children, rest) =>
            (key :: value :: children, rest)

end

/-! ### Documents -/

/-- Steps that suffice for a document: every token is looked at by at most
four functions, one inside of the other. -/
def stepsFor (reading : Reading) : Nat := 4 * reading.ahead.length + 8

/-- Reads the directives before a document.  There is at most one version, and
no handle is declared twice. -/
def readDirectives (hasVersion : Bool) (handles : List (String × String)) :
    List Token → Option (List (String × String) × List Token)
  | .versionDirective :: rest =>
      if hasVersion then none else readDirectives true handles rest
  | .tagDirective handle expansion :: rest =>
      if (handles.lookup handle).isSome then none
      else readDirectives hasVersion ((handle, expansion) :: handles) rest
  | tokens => some (handles, tokens)

def endsContent (token : Token) : Bool :=
  match token with
  | .versionDirective | .tagDirective _ _ | .documentStart | .documentEnd | .streamEnd => true
  | _ => false

def readExplicit (reading : Reading) : Option (Node × Reading) :=
  match readDirectives false [] reading.ahead with
  | some (handles, .documentStart :: rest) =>
      let body := { reading with ahead := rest, handles := handles }
      if (body.next?.map endsContent).getD true then some (absent, body)
      else readNode true false (stepsFor body) body
  | _ => none

/-- Ends a document: forgets its names and handles.  Answers whether it was
ended by a mark; without one no directive may follow. -/
def leaveDocument (reading : Reading) : Option (Bool × Reading) :=
  let cleared := { reading with anchors := [], handles := [] }
  match reading.next? with
  | some .documentEnd => some (true, cleared.skip)
  | some .versionDirective | some (.tagDirective _ _) => none
  | _ => some (false, cleared)

def skipEnds (reading : Reading) : Reading :=
  { reading with ahead := reading.ahead.dropWhile (· = .documentEnd) }

/-- Reads one document.  Only behind an end mark, and at the start, may a
document begin without a mark of its own. -/
def readDocument (mayBeImplicit : Bool) (reading : Reading) : Option (Node × Reading) :=
  match reading.next? with
  | some .versionDirective | some (.tagDirective _ _) | some .documentStart =>
      readExplicit reading
  | _ => if mayBeImplicit then readNode true false (stepsFor reading) reading else none

def readDocuments : Nat → Bool → Reading → Option (List Node)
  | 0, _, _ => none
  | fuel + 1, mayBeImplicit, reading =>
      let body := skipEnds reading
      if body.next? = some .streamEnd then some []
      else
        match readDocument mayBeImplicit body with
        | none => none
        | some (node, after) =>
            match leaveDocument after with
            | none => none
            | some (ended, rest) => (readDocuments fuel ended rest).map (node :: ·)

def documentsOf (tokens : List Token) : Option (List Node) :=
  readDocuments (tokens.length + 1) true (Reading.start tokens)

end Rollup.Yaml

/-
What every loaded document keeps.

However it is written, the integers in a document are 64-bit words with a sign, and
no mapping in it has a key twice.  Scalars are resolved that way, a mapping is built
that way from its children, and an alias brings back a node that was loaded before;
so each of the functions that read a construct keeps it, and with them the documents
of a text.
-/

import Mathlib.Data.List.Basic
import Rollup.Manifest

namespace Rollup.Yaml

/-! ### Scalars -/

namespace Scalar

/-- An integer is a 64-bit word with a sign. -/
def InRange (scalar : Scalar) : Prop :=
  ∀ value, scalar = .integer value → minInteger ≤ value ∧ value ≤ maxInteger

theorem bounds_of_readInteger {base : Nat} {text : List Char} {value : Int}
    (read : readInteger base text = some value) : minInteger ≤ value ∧ value ≤ maxInteger := by
  unfold readInteger at read
  dsimp only at read
  split at read
  · cases read
  · split at read
    · cases read
    · obtain ⟨bounded, same⟩ := Option.ite_none_right_eq_some.mp read
      rw [← Option.some.inj same]
      exact bounded

theorem bounds_of_readMarkedInteger {text : List Char} {value : Int}
    (read : readMarkedInteger text = some value) : minInteger ≤ value ∧ value ≤ maxInteger := by
  unfold readMarkedInteger at read
  split at read
  · exact bounds_of_readInteger read
  · exact bounds_of_readInteger read
  · exact bounds_of_readInteger read
  · cases read

theorem inRange_guess (text : String) : (guess text).InRange := by
  intro value same
  unfold guess at same
  split at same
  · rename_i marked
    cases same
    exact bounds_of_readMarkedInteger marked
  · repeat' split at same
    all_goals cases same
    rename_i plain
    exact bounds_of_readInteger plain

theorem inRange_ofTag {suffix text : String} {scalar : Scalar}
    (read : ofTag suffix text = some scalar) : scalar.InRange := by
  intro value same
  subst same
  unfold ofTag at read
  split at read
  · repeat' split at read
    all_goals cases read
  · split at read
    · obtain ⟨other, plain, same⟩ := Option.map_eq_some_iff.mp read
      cases same
      exact bounds_of_readInteger plain
    · split at read
      · obtain ⟨_, _, same⟩ := Option.map_eq_some_iff.mp read
        cases same
      · repeat' split at read
        all_goals cases read

end Scalar

/-! ### Nodes -/

namespace Node

/-- Every integer is a 64-bit word, and no mapping has a key twice. -/
inductive Regular : Node → Prop
  | scalar {value : Scalar} (inRange : value.InRange) : Regular (.scalar value)
  | sequence {items : List Node} (regular : ∀ item ∈ items, Regular item) :
      Regular (.sequence items)
  | mapping {entries : List (Node × Node)} (keys : ∀ entry ∈ entries, Regular entry.1)
      (values : ∀ entry ∈ entries, Regular entry.2)
      (distinct : entries.Pairwise fun earlier later => earlier.1.same later.1 = false) :
      Regular (.mapping entries)
  | tagged {tag : Tag} {content : Node} (regular : Regular content) :
      Regular (.tagged tag content)
  | bad : Regular .bad

theorem regular_absent : Regular absent := Regular.scalar nofun

theorem regular_text (text : String) : Regular (.scalar (.text text)) := Regular.scalar nofun

/-- The entries of a mapping that is being built, and the key that waits for its
value. -/
structure RegularState (state : List (Node × Node) × Option Node) : Prop where
  entries : Regular (.mapping state.1)
  waiting : ∀ key, state.2 = some key → Regular key

theorem RegularState.addChild {state : List (Node × Node) × Option Node} {node : Node}
    (invariant : RegularState state) (regular : node.Regular) :
    RegularState (Node.addChild state node) := by
  obtain ⟨entries, waiting⟩ := state
  cases waiting with
  | none =>
      simp only [Node.addChild]
      split
      · exact invariant
      · refine ⟨invariant.entries, fun key same => ?_⟩
        cases same
        exact regular
  | some key =>
      have keyRegular : key.Regular := invariant.waiting key rfl
      have before : Regular (.mapping entries) := invariant.entries
      cases before with
      | mapping keys values distinct =>
          have kept {entry : Node × Node}
              (member : entry ∈ entries.filter fun entry => !entry.1.same key) : entry ∈ entries :=
            (List.mem_filter.mp member).1
          refine ⟨Regular.mapping ?_ ?_ ?_, nofun⟩
          · intro entry member
            rcases List.mem_append.mp member with earlier | last
            · exact keys entry (kept earlier)
            · rw [List.mem_singleton.mp last]
              exact keyRegular
          · intro entry member
            rcases List.mem_append.mp member with earlier | last
            · exact values entry (kept earlier)
            · rw [List.mem_singleton.mp last]
              exact regular
          · refine List.pairwise_append.mpr ⟨distinct.filter _, List.pairwise_singleton _ _, ?_⟩
            intro earlier member later last
            rw [List.mem_singleton.mp last]
            simpa using (List.mem_filter.mp member).2

theorem regular_ofChildren {children : List Node} (regular : ∀ child ∈ children, child.Regular) :
    (ofChildren children).Regular := by
  have start : RegularState ([], none) := ⟨Regular.mapping nofun nofun List.Pairwise.nil, nofun⟩
  have built : RegularState (children.foldl addChild ([], none)) := by
    refine List.foldlRecOn children addChild start fun state invariant child member => ?_
    exact invariant.addChild (regular child member)
  exact built.entries

theorem regular_applyTag {tag : Option Tag} {node : Node} (regular : node.Regular) :
    (applyTag tag node).Regular := by
  cases tag with
  | none => exact regular
  | some tag =>
      unfold applyTag
      dsimp only
      split
      · exact regular
      · exact Regular.tagged regular

theorem regular_scalarNode (tag : Option Tag) (plain : Bool) (text : String) :
    (scalarNode tag plain text).Regular := by
  unfold scalarNode
  split
  · exact regular_text text
  · cases tag with
    | none => exact Regular.scalar (Scalar.inRange_guess text)
    | some tag =>
        dsimp only
        split
        · cases read : Scalar.ofTag tag.suffix text with
          | none => exact Regular.bad
          | some value => exact Regular.scalar (Scalar.inRange_ofTag read)
        · exact Regular.scalar (Scalar.inRange_guess text)

end Node

/-! ### What readers keep -/

namespace Reading

/-- The nodes of finished anchors are regular. -/
def Keeps (reading : Reading) : Prop := ∀ entry ∈ reading.finished, entry.2.Regular

theorem keeps_start (tokens : List Token) : (start tokens).Keeps := nofun

theorem Keeps.skip {reading : Reading} (keeps : reading.Keeps) : reading.skip.Keeps := keeps

theorem Keeps.closeAnchor {reading : Reading} {anchor : Option Nat} {node : Node}
    (keeps : reading.Keeps) (regular : node.Regular) :
    (reading.closeAnchor anchor node).Keeps := by
  cases anchor with
  | none => exact keeps
  | some number => exact List.forall_mem_cons.mpr ⟨regular, keeps⟩

theorem Keeps.resolveAlias {reading : Reading} {name : String} {node : Node}
    (keeps : reading.Keeps) (resolved : reading.resolveAlias name = some node) :
    node.Regular := by
  obtain ⟨number, _, same⟩ := Option.map_eq_some_iff.mp resolved
  rw [← same]
  cases found : reading.finished.lookup number with
  | none => exact Node.Regular.bad
  | some content =>
      obtain ⟨before, after, split, _⟩ := List.lookup_eq_some_iff.mp found
      exact keeps (number, content) (by rw [split]; simp)

theorem Keeps.takeProperties {reading body : Reading} {properties : Properties}
    (keeps : reading.Keeps) (taken : reading.takeProperties = some (properties, body)) :
    body.Keeps := by
  unfold Reading.takeProperties at taken
  split at taken
  case h_1 | h_2 | h_4 =>
    obtain ⟨_, _, same⟩ := Option.map_eq_some_iff.mp taken
    cases same
    exact keeps
  case h_3 | h_5 =>
    cases taken
    exact keeps

end Reading

/-! ### Reading nodes and collections -/

/-- What a reader finds is of the right kind, and it keeps the finished nodes regular. -/
def Finds {α : Type} (right : α → Prop) (found : Option (α × Reading)) : Prop :=
  ∀ result after, found = some (result, after) → right result ∧ after.Keeps

namespace Finds

variable {α β : Type} {right : α → Prop} {rightThen : β → Prop} {found : Option (α × Reading)}

theorem nothing : Finds right none := nofun

theorem done {result : α} {after : Reading} (isRight : right result) (keeps : after.Keeps) :
    Finds right (some (result, after)) := by
  intro other rest same
  cases same
  exact ⟨isRight, keeps⟩

theorem map {change : α → β} (finds : Finds right found)
    (step : ∀ result, right result → rightThen (change result)) :
    Finds rightThen (found.map fun (result, after) => (change result, after)) := by
  intro other final same
  obtain ⟨⟨result, after⟩, isFound, changed⟩ := Option.map_eq_some_iff.mp same
  obtain ⟨isRight, keeps⟩ := finds result after isFound
  cases changed
  exact ⟨step result isRight, keeps⟩

end Finds

/-- Every node of a list is regular. -/
def AllRegular (nodes : List Node) : Prop := ∀ node ∈ nodes, node.Regular

theorem AllRegular.cons {node : Node} {nodes : List Node} (regular : node.Regular)
    (others : AllRegular nodes) : AllRegular (node :: nodes) :=
  List.forall_mem_cons.mpr ⟨regular, others⟩

/-- With this much fuel every reader finds regular nodes. -/
structure ReadsRegular (fuel : Nat) : Prop where
  node : ∀ inBlock mayHang reading, reading.Keeps →
    Finds Node.Regular (readNode inBlock mayHang fuel reading)
  content : ∀ inBlock mayHang properties reading, reading.Keeps →
    Finds Node.Regular (readContent inBlock mayHang fuel properties reading)
  part : ∀ inBlock mayHang stops reading, reading.Keeps →
    Finds Node.Regular (readPart inBlock mayHang stops fuel reading)
  blockSequence : ∀ reading, reading.Keeps → Finds AllRegular (readBlockSequence fuel reading)
  hanging : ∀ reading, reading.Keeps → Finds AllRegular (readHanging fuel reading)
  blockMapping : ∀ reading, reading.Keeps → Finds AllRegular (readBlockMapping fuel reading)
  blockValue : ∀ key reading, key.Regular → reading.Keeps →
    Finds AllRegular (readBlockValue key fuel reading)
  flowSequence : ∀ isFirst reading, reading.Keeps →
    Finds AllRegular (readFlowSequence isFirst fuel reading)
  flowItem : ∀ reading, reading.Keeps → Finds AllRegular (readFlowItem fuel reading)
  pair : ∀ reading, reading.Keeps → Finds Node.Regular (readPair fuel reading)
  flowMapping : ∀ isFirst reading, reading.Keeps →
    Finds AllRegular (readFlowMapping isFirst fuel reading)
  flowKey : ∀ reading, reading.Keeps → Finds AllRegular (readFlowKey fuel reading)
  flowValue : ∀ key reading, key.Regular → reading.Keeps →
    Finds AllRegular (readFlowValue key fuel reading)

namespace ReadsRegular

variable {fuel : Nat}

/-- The value of a key, or what stands where it is left out. -/
theorem value (below : ReadsRegular fuel) (inBlock mayHang : Bool) (stops : List Token)
    {reading : Reading} (keeps : reading.Keeps) :
    Finds Node.Regular
      (if reading.next? = some .value then readPart inBlock mayHang stops fuel reading.skip
      else some (absent, reading)) := by
  split
  · exact below.part _ _ _ _ keeps.skip
  · exact Finds.done Node.regular_absent keeps

theorem node_step (below : ReadsRegular fuel) (inBlock mayHang : Bool) (reading : Reading)
    (keeps : reading.Keeps) : Finds Node.Regular (readNode inBlock mayHang (fuel + 1) reading) := by
  rw [readNode]
  split
  · intro node after same
    obtain ⟨content, resolved, isAfter⟩ := Option.map_eq_some_iff.mp same
    cases isAfter
    exact ⟨keeps.resolveAlias resolved, keeps⟩
  · split
    · exact Finds.nothing
    · rename_i taken
      split
      · exact Finds.nothing
      · rename_i found
        obtain ⟨regular, kept⟩ := below.content _ _ _ _ (keeps.takeProperties taken) _ _ found
        exact Finds.done (Node.regular_applyTag regular)
          (kept.closeAnchor (Node.regular_applyTag regular))

theorem part_step (below : ReadsRegular fuel) (inBlock mayHang : Bool) (stops : List Token)
    (reading : Reading) (keeps : reading.Keeps) :
    Finds Node.Regular (readPart inBlock mayHang stops (fuel + 1) reading) := by
  rw [readPart]
  split
  · exact Finds.done Node.regular_absent keeps
  · exact below.node inBlock mayHang reading keeps

theorem content_step (below : ReadsRegular fuel) (inBlock mayHang : Bool)
    (properties : Reading.Properties) (reading : Reading) (keeps : reading.Keeps) :
    Finds Node.Regular (readContent inBlock mayHang (fuel + 1) properties reading) := by
  rw [readContent]
  dsimp only
  split
  · exact Finds.done (Node.regular_scalarNode _ _ _) keeps
  · exact (below.flowSequence true _ keeps.skip).map fun _ => Node.Regular.sequence
  · exact (below.flowMapping true _ keeps.skip).map fun _ => Node.regular_ofChildren
  · split
    · exact (below.hanging _ keeps).map fun _ => Node.Regular.sequence
    · split
      · exact (below.blockSequence _ keeps.skip).map fun _ => Node.Regular.sequence
      · split
        · exact (below.blockMapping _ keeps.skip).map fun _ => Node.regular_ofChildren
        · split
          · exact Finds.done (Node.regular_scalarNode _ _ _) keeps
          · exact Finds.nothing

theorem blockSequence_step (below : ReadsRegular fuel) (reading : Reading) (keeps : reading.Keeps) :
    Finds AllRegular (readBlockSequence (fuel + 1) reading) := by
  rw [readBlockSequence]
  split
  · exact Finds.done nofun keeps
  · split
    · exact Finds.nothing
    · rename_i found
      obtain ⟨regular, kept⟩ := below.part _ _ _ _ keeps.skip _ _ found
      exact (below.blockSequence _ kept).map fun _ others => others.cons regular
  · exact Finds.nothing

theorem hanging_step (below : ReadsRegular fuel) (reading : Reading) (keeps : reading.Keeps) :
    Finds AllRegular (readHanging (fuel + 1) reading) := by
  rw [readHanging]
  split
  · split
    · exact Finds.nothing
    · rename_i found
      obtain ⟨regular, kept⟩ := below.part _ _ _ _ keeps.skip _ _ found
      exact (below.hanging _ kept).map fun _ others => others.cons regular
  · exact Finds.done nofun keeps

theorem blockMapping_step (below : ReadsRegular fuel) (reading : Reading) (keeps : reading.Keeps) :
    Finds AllRegular (readBlockMapping (fuel + 1) reading) := by
  rw [readBlockMapping]
  split
  · exact Finds.done nofun keeps
  · split
    · exact Finds.nothing
    · rename_i found
      obtain ⟨regular, kept⟩ := below.part _ _ _ _ keeps.skip _ _ found
      exact below.blockValue _ _ regular kept
  · exact below.blockValue _ _ Node.regular_absent keeps
  · exact Finds.nothing

theorem blockValue_step (below : ReadsRegular fuel) (key : Node) (reading : Reading)
    (keyRegular : key.Regular) (keeps : reading.Keeps) :
    Finds AllRegular (readBlockValue key (fuel + 1) reading) := by
  rw [readBlockValue]
  dsimp only
  split
  · exact Finds.nothing
  · rename_i found
    obtain ⟨regular, kept⟩ := below.value _ _ _ keeps _ _ found
    exact (below.blockMapping _ kept).map fun _ others => (others.cons regular).cons keyRegular

theorem flowSequence_step (below : ReadsRegular fuel) (isFirst : Bool) (reading : Reading)
    (keeps : reading.Keeps) : Finds AllRegular (readFlowSequence isFirst (fuel + 1) reading) := by
  rw [readFlowSequence]
  split
  · exact Finds.done nofun keeps
  · split
    · exact below.flowItem _ keeps
    · split
      · exact below.flowItem _ keeps.skip
      · exact Finds.nothing

theorem flowItem_step (below : ReadsRegular fuel) (reading : Reading) (keeps : reading.Keeps) :
    Finds AllRegular (readFlowItem (fuel + 1) reading) := by
  rw [readFlowItem]
  split
  · exact Finds.done nofun keeps
  · split
    · exact Finds.nothing
    · rename_i found
      obtain ⟨regular, kept⟩ := below.pair _ keeps.skip _ _ found
      exact (below.flowSequence _ _ kept).map fun _ others => others.cons regular
  · split
    · exact Finds.nothing
    · rename_i found
      obtain ⟨regular, kept⟩ := below.node _ _ _ keeps _ _ found
      exact (below.flowSequence _ _ kept).map fun _ others => others.cons regular

theorem pair_step (below : ReadsRegular fuel) (reading : Reading) (keeps : reading.Keeps) :
    Finds Node.Regular (readPair (fuel + 1) reading) := by
  have key (stops : List Token) : Finds Node.Regular
      (if reading.nextIsOneOf stops then some (absent, reading.skip)
      else readNode false false fuel reading) := by
    split
    · exact Finds.done Node.regular_absent keeps.skip
    · exact below.node _ _ _ keeps
  rw [readPair]
  dsimp only
  split
  · exact Finds.nothing
  · rename_i keyNode _ found
    obtain ⟨keyRegular, kept⟩ := key _ _ _ found
    have pair (value : Node) (regular : value.Regular) :
        (Node.ofChildren [keyNode, value]).Regular :=
      Node.regular_ofChildren (AllRegular.cons keyRegular (AllRegular.cons regular nofun))
    exact (below.value _ _ _ kept).map pair

theorem flowMapping_step (below : ReadsRegular fuel) (isFirst : Bool) (reading : Reading)
    (keeps : reading.Keeps) : Finds AllRegular (readFlowMapping isFirst (fuel + 1) reading) := by
  rw [readFlowMapping]
  split
  · exact Finds.done nofun keeps
  · split
    · exact below.flowKey _ keeps
    · split
      · exact below.flowKey _ keeps.skip
      · exact Finds.nothing

theorem flowKey_step (below : ReadsRegular fuel) (reading : Reading) (keeps : reading.Keeps) :
    Finds AllRegular (readFlowKey (fuel + 1) reading) := by
  rw [readFlowKey]
  split
  · exact Finds.done nofun keeps
  · split
    · exact Finds.nothing
    · rename_i found
      obtain ⟨regular, kept⟩ := below.part _ _ _ _ keeps.skip _ _ found
      exact below.flowValue _ _ regular kept
  · exact below.flowValue _ _ Node.regular_absent keeps
  · split
    · exact Finds.nothing
    · rename_i found
      obtain ⟨regular, kept⟩ := below.node _ _ _ keeps _ _ found
      exact (below.flowMapping _ _ kept).map fun _ others =>
        (others.cons Node.regular_absent).cons regular

theorem flowValue_step (below : ReadsRegular fuel) (key : Node) (reading : Reading)
    (keyRegular : key.Regular) (keeps : reading.Keeps) :
    Finds AllRegular (readFlowValue key (fuel + 1) reading) := by
  rw [readFlowValue]
  dsimp only
  split
  · exact Finds.nothing
  · rename_i found
    obtain ⟨regular, kept⟩ := below.value _ _ _ keeps _ _ found
    exact (below.flowMapping _ _ kept).map fun _ others => (others.cons regular).cons keyRegular

theorem zero : ReadsRegular 0 where
  node _ _ _ _ := Finds.nothing
  content _ _ _ _ _ := Finds.nothing
  part _ _ _ _ _ := Finds.nothing
  blockSequence _ _ := Finds.nothing
  hanging _ _ := Finds.nothing
  blockMapping _ _ := Finds.nothing
  blockValue _ _ _ _ := Finds.nothing
  flowSequence _ _ _ := Finds.nothing
  flowItem _ _ := Finds.nothing
  pair _ _ := Finds.nothing
  flowMapping _ _ _ := Finds.nothing
  flowKey _ _ := Finds.nothing
  flowValue _ _ _ _ := Finds.nothing

theorem step (below : ReadsRegular fuel) : ReadsRegular (fuel + 1) where
  node := below.node_step
  content := below.content_step
  part := below.part_step
  blockSequence := below.blockSequence_step
  hanging := below.hanging_step
  blockMapping := below.blockMapping_step
  blockValue := below.blockValue_step
  flowSequence := below.flowSequence_step
  flowItem := below.flowItem_step
  pair := below.pair_step
  flowMapping := below.flowMapping_step
  flowKey := below.flowKey_step
  flowValue := below.flowValue_step

end ReadsRegular

theorem readsRegular (fuel : Nat) : ReadsRegular fuel := by
  induction fuel with
  | zero => exact ReadsRegular.zero
  | succ fuel inductionHypothesis => exact inductionHypothesis.step

/-! ### Documents -/

theorem finds_readDocument {mayBeImplicit : Bool} {reading : Reading} (keeps : reading.Keeps) :
    Finds Node.Regular (readDocument mayBeImplicit reading) := by
  have explicit : Finds Node.Regular (readExplicit reading) := by
    unfold readExplicit
    split
    · dsimp only
      split
      · exact Finds.done Node.regular_absent keeps
      · exact (readsRegular _).node _ _ _ keeps
    · exact Finds.nothing
  unfold readDocument
  split
  case h_4 =>
    split
    · exact (readsRegular _).node _ _ _ keeps
    · exact Finds.nothing
  all_goals exact explicit

theorem Reading.Keeps.leaveDocument {reading rest : Reading} {ended : Bool}
    (keeps : reading.Keeps) (left : leaveDocument reading = some (ended, rest)) : rest.Keeps := by
  unfold Yaml.leaveDocument at left
  dsimp only at left
  split at left
  case h_1 | h_4 =>
    cases left
    exact keeps
  all_goals cases left

theorem regular_of_readDocuments {fuel : Nat} {mayBeImplicit : Bool} {reading : Reading}
    {nodes : List Node} (keeps : reading.Keeps)
    (read : readDocuments fuel mayBeImplicit reading = some nodes) : AllRegular nodes := by
  induction fuel generalizing mayBeImplicit reading nodes with
  | zero => cases read
  | succ fuel inductionHypothesis =>
      have bodyKeeps : (skipEnds reading).Keeps := keeps
      unfold readDocuments at read
      dsimp only at read
      split at read
      · cases read
        exact nofun
      · split at read
        · cases read
        · rename_i found
          obtain ⟨regular, kept⟩ := finds_readDocument bodyKeeps _ _ found
          split at read
          · cases read
          · rename_i left
            obtain ⟨others, further, same⟩ := Option.map_eq_some_iff.mp read
            rw [← same]
            exact (inductionHypothesis (kept.leaveDocument left) further).cons regular

end Rollup.Yaml

namespace Rollup.Manifest

open Yaml

/-- However a text is written, the documents in it are regular. -/
theorem regular_of_documents {text : String} {nodes : List Node}
    (loaded : documents text = some nodes) : AllRegular nodes := by
  obtain ⟨tokens, _, read⟩ := Option.bind_eq_some_iff.mp loaded
  exact regular_of_readDocuments (Reading.keeps_start tokens) read

end Rollup.Manifest

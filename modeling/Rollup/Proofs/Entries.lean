/-
The mutations of a manifest.

What a loaded document stands for is told by its entries alone: which section is
there and of which kind, which entry under `files` has a textual name and a record
whose fields are absent or of their kind, and which item under `removed` is textual.
Each of these gives its mutation, in the order of the document; any other entry
gives none and leaves the rest as it is.
-/

import Rollup.Proofs.Loading
import Rollup.Proofs.Recomputation

namespace Rollup

/-! ### Nodes by their kind -/

namespace Yaml.Node

theorem asText_eq_some_iff {node : Node} {text : String} :
    node.asText = some text ↔ node = .scalar (.text text) := by
  unfold asText
  split <;> simp_all

theorem asMapping_eq_some_iff {node : Node} {entries : List (Node × Node)} :
    node.asMapping = some entries ↔ node = .mapping entries := by
  unfold asMapping
  split <;> simp_all

theorem asSequence_eq_some_iff {node : Node} {items : List Node} :
    node.asSequence = some items ↔ node = .sequence items := by
  unfold asSequence
  split <;> simp_all

theorem asInteger_eq_some_iff {node : Node} {value : Int} :
    node.asInteger = some value ↔ node = .scalar (.integer value) := by
  unfold asInteger
  split <;> simp_all

theorem asNumber_eq_some_iff {node : Node} {value : Binary64} :
    node.asNumber = some value ↔
      node = .scalar (.float value) ∨
        ∃ number, node = .scalar (.integer number) ∧ Binary64.ofInt number = value := by
  unfold asNumber
  split <;> simp_all

theorem same_text_iff {node : Node} {text : String} :
    node.same (.scalar (.text text)) = true ↔ node = .scalar (.text text) := by
  cases node with
  | scalar value => cases value <;> simp [same, Scalar.same]
  | _ => simp [same]

/-! ### Fields of a mapping -/

/-- The mapping has this value under a textual key. -/
def HasField (entries : List (Node × Node)) (key : String) (value : Node) : Prop :=
  (.scalar (.text key), value) ∈ entries

/-- The mapping has no value under a textual key. -/
def Lacks (entries : List (Node × Node)) (key : String) : Prop :=
  ∀ value, ¬HasField entries key value

theorem lookup_eq_none_iff {entries : List (Node × Node)} {key : String} :
    lookup entries key = none ↔ Lacks entries key := by
  simp only [lookup, Option.map_eq_none_iff, List.find?_eq_none, same_text_iff]
  constructor
  · exact fun missing value found => missing _ found rfl
  · intro lacks entry member same
    apply lacks entry.2
    rw [HasField, ← same]
    exact member

theorem lookup_eq_some_iff {entries : List (Node × Node)} {key : String} {value : Node}
    (regular : (Node.mapping entries).Regular) :
    lookup entries key = some value ↔ HasField entries key value := by
  cases regular with
  | mapping _ _ distinct =>
      simp only [lookup, Option.map_eq_some_iff, List.find?_eq_some_iff_append, same_text_iff]
      constructor
      · intro ⟨entry, ⟨isKey, before, after, split, _⟩, isValue⟩
        rw [HasField, ← isKey, ← isValue, split]
        exact List.mem_append_right _ List.mem_cons_self
      · intro found
        obtain ⟨before, after, split⟩ := List.append_of_mem found
        refine ⟨_, ⟨rfl, before, after, split, fun earlier member => ?_⟩, rfl⟩
        rw [split] at distinct
        have apart := (List.pairwise_append.mp distinct).2.2 earlier member _ List.mem_cons_self
        simpa using apart

theorem HasField.regular {entries : List (Node × Node)} {key : String} {value : Node}
    (found : HasField entries key value) (regular : (Node.mapping entries).Regular) :
    value.Regular := by
  cases regular with
  | mapping _ values _ => exact values _ found

theorem HasField.unique {entries : List (Node × Node)} {key : String} {left right : Node}
    (hasLeft : HasField entries key left) (hasRight : HasField entries key right)
    (regular : (Node.mapping entries).Regular) : left = right := by
  have looked := (lookup_eq_some_iff regular).mpr hasLeft
  rw [(lookup_eq_some_iff regular).mpr hasRight] at looked
  exact (Option.some.inj looked).symm

end Yaml.Node

namespace Manifest

open Yaml Node

variable {fields top : List (Node × Node)}

/-! ### Records -/

/-- The size of a record: zero, or an integer that a 64-bit word with a sign can hold
and that is not negative. -/
inductive SizeField (fields : List (Node × Node)) : UInt64 → Prop
  | absent (lacks : Lacks fields "size") : SizeField fields 0
  | given {size : Nat} (found : HasField fields "size" (.scalar (.integer size)))
      (fits : size < 2 ^ 63) : SizeField fields (UInt64.ofNat size)

/-- A number of a record: its default, or a floating-point value or an integer. -/
inductive NumberField (fields : List (Node × Node)) (name : String) (default : Binary64) :
    Binary64 → Prop
  | absent (lacks : Lacks fields name) : NumberField fields name default default
  | float {value : Binary64} (found : HasField fields name (.scalar (.float value))) :
      NumberField fields name default value
  | integer {value : Int} (found : HasField fields name (.scalar (.integer value))) :
      NumberField fields name default (Binary64.ofInt value)

/-- A record that a mapping describes. -/
structure Describes (fields : List (Node × Node)) (record : FileRecord) : Prop where
  size : SizeField fields record.size
  health : NumberField fields "health" Binary64.zero record.health
  redundancy : NumberField fields "redundancy" Binary64.one record.redundancy

theorem readSize_eq_some_iff (regular : (Node.mapping fields).Regular) {size : UInt64} :
    readSize fields = some size ↔ SizeField fields size := by
  constructor
  · intro read
    unfold readSize at read
    split at read
    · rename_i missing
      cases read
      exact SizeField.absent (lookup_eq_none_iff.mp missing)
    · rename_i node looked
      split at read
      · rename_i value isInteger
        cases read
        have found := (lookup_eq_some_iff regular).mp looked
        rw [asInteger_eq_some_iff.mp isInteger] at found
        refine SizeField.given found ?_
        cases found.regular regular with
        | scalar inRange =>
            have bound : (value : Int) ≤ Scalar.maxInteger := (inRange value rfl).2
            rw [Scalar.maxInteger] at bound
            omega
      · cases read
  · intro field
    cases field with
    | absent lacks => rw [readSize, lookup_eq_none_iff.mpr lacks]
    | given found _ =>
        rw [readSize, (lookup_eq_some_iff regular).mpr found]
        rfl

theorem readNumber_eq_some_iff (regular : (Node.mapping fields).Regular) {name : String}
    {default value : Binary64} :
    readNumber fields name default = some value ↔ NumberField fields name default value := by
  constructor
  · intro read
    unfold readNumber at read
    split at read
    · rename_i missing
      cases read
      exact NumberField.absent (lookup_eq_none_iff.mp missing)
    · rename_i node looked
      have found := (lookup_eq_some_iff regular).mp looked
      rcases asNumber_eq_some_iff.mp read with isFloat | ⟨number, isInteger, same⟩
      · rw [isFloat] at found
        exact NumberField.float found
      · rw [isInteger] at found
        rw [← same]
        exact NumberField.integer found
  · intro field
    cases field with
    | absent lacks => rw [readNumber, lookup_eq_none_iff.mpr lacks]
    | float found =>
        rw [readNumber, (lookup_eq_some_iff regular).mpr found]
        rfl
    | integer found =>
        rw [readNumber, (lookup_eq_some_iff regular).mpr found]
        rfl

theorem readRecord_eq_some_iff (regular : (Node.mapping fields).Regular) {record : FileRecord} :
    readRecord fields = some record ↔ Describes fields record := by
  simp only [readRecord, Option.bind_eq_bind, Option.bind_eq_some_iff,
    readSize_eq_some_iff regular, readNumber_eq_some_iff regular]
  constructor
  · intro ⟨size, sizeField, health, healthField, redundancy, redundancyField, same⟩
    cases same
    exact ⟨sizeField, healthField, redundancyField⟩
  · intro describes
    exact ⟨_, describes.size, _, describes.health, _, describes.redundancy, rfl⟩

/-! ### Entries -/

/-- The mutation of an entry under `files`. -/
inductive EntryGives : Node × Node → Mutation → Prop
  | upsert {file : String} {fields : List (Node × Node)} {record : FileRecord}
      (describes : Describes fields record) :
      EntryGives (.scalar (.text file), .mapping fields) (.upsert file record)

/-- The mutation of an item under `removed`. -/
inductive ItemGives : Node → Mutation → Prop
  | removal {file : String} : ItemGives (.scalar (.text file)) (.remove file)

/-- The mutations of the elements that give one, in their order. -/
inductive Selects {α : Type} (gives : α → Mutation → Prop) : List α → List Mutation → Prop
  | nil : Selects gives [] []
  | given {element : α} {rest : List α} {mutation : Mutation} {others : List Mutation}
      (gave : gives element mutation) (further : Selects gives rest others) :
      Selects gives (element :: rest) (mutation :: others)
  | passed {element : α} {rest : List α} {others : List Mutation}
      (nothing : ∀ mutation, ¬gives element mutation) (further : Selects gives rest others) :
      Selects gives (element :: rest) others

theorem value_readFileEntry {entry : Node × Node} {mutation : Mutation}
    (regular : entry.2.Regular) :
    (readFileEntry entry).value = some mutation ↔ EntryGives entry mutation := by
  obtain ⟨key, value⟩ := entry
  constructor
  · intro read
    unfold readFileEntry at read
    split at read
    · rename_i file fields isText isMapping
      obtain ⟨record, recorded, same⟩ := Option.map_eq_some_iff.mp read
      have isKey : key = .scalar (.text file) := asText_eq_some_iff.mp isText
      have isValue : value = .mapping fields := asMapping_eq_some_iff.mp isMapping
      subst isKey isValue same
      exact EntryGives.upsert ((readRecord_eq_some_iff regular).mp recorded)
    · cases read
  · intro gave
    cases gave with
    | upsert describes =>
        have recorded := (readRecord_eq_some_iff regular).mpr describes
        simp [readFileEntry, asText, asMapping, recorded]

theorem value_readRemovedItem {item : Node} {mutation : Mutation} :
    (readRemovedItem item).value = some mutation ↔ ItemGives item mutation := by
  constructor
  · intro read
    unfold readRemovedItem at read
    split at read
    · rename_i file isText
      cases read
      rw [asText_eq_some_iff.mp isText]
      exact ItemGives.removal
    · cases read
  · intro gave
    cases gave
    rfl

theorem readSection_cons {α : Type} (read : α → Logged (Option Mutation)) (element : α)
    (rest : List α) :
    readSection read (element :: rest) =
      { value := (read element).value.toList ++ (readSection read rest).value
        notices := (read element).notices ++ (readSection read rest).notices } := by
  simp [readSection, bind, Logged.bind, pure]

theorem value_readSection {α : Type} (read : α → Logged (Option Mutation)) (elements : List α) :
    (readSection read elements).value = elements.filterMap fun element => (read element).value := by
  induction elements with
  | nil => rfl
  | cons element rest inductionHypothesis =>
      rw [readSection_cons, List.filterMap_cons, inductionHypothesis]
      cases (read element).value <;> rfl

theorem selects_iff {α : Type} {gives : α → Mutation → Prop} {select : α → Option Mutation}
    {elements : List α} (spec : ∀ element ∈ elements, ∀ mutation,
      select element = some mutation ↔ gives element mutation) {mutations : List Mutation} :
    Selects gives elements mutations ↔ elements.filterMap select = mutations := by
  induction elements generalizing mutations with
  | nil =>
      constructor
      · intro selects
        cases selects
        rfl
      · intro same
        rw [← same]
        exact Selects.nil
  | cons element rest inductionHypothesis =>
      obtain ⟨here, elsewhere⟩ := List.forall_mem_cons.mp spec
      have further {others : List Mutation} :
          Selects gives rest others ↔ rest.filterMap select = others :=
        inductionHypothesis elsewhere
      cases found : select element with
      | none =>
          have nothing (mutation : Mutation) : ¬gives element mutation := by
            rw [← here, found]
            exact nofun
          rw [List.filterMap_cons_none found, ← further]
          constructor
          · intro selects
            cases selects with
            | given gave _ => exact absurd gave (nothing _)
            | passed _ selects => exact selects
          · exact Selects.passed nothing
      | some mutation =>
          have gave := (here mutation).mp found
          rw [List.filterMap_cons_some found]
          constructor
          · intro selects
            cases selects with
            | given other selects =>
                have same := (here _).mpr other
                rw [found] at same
                rw [further.mp selects, Option.some.inj same]
            | passed nothing _ => exact absurd gave (nothing _)
          · intro same
            rw [← same]
            exact Selects.given gave (further.mpr rfl)

/-! ### Sections -/

/-- The contents of a section, which may be left out. -/
inductive Section {α : Type} (top : List (Node × Node)) (key : String) (kind : List α → Node) :
    List α → Prop
  | absent (lacks : Lacks top key) : Section top key kind []
  | present {contents : List α} (found : HasField top key (kind contents)) :
      Section top key kind contents

/-- A section is there and is not of its kind. -/
def Misplaced {α : Type} (top : List (Node × Node)) (key : String) (kind : List α → Node) : Prop :=
  ∃ value, HasField top key value ∧ ∀ contents, value ≠ kind contents

/-- Reads the section under a key, whose contents are those of one kind of node. -/
def readNamed {α : Type} (ofKind : Node → Option (List α)) (misplaced : ManifestError)
    (read : α → Logged (Option Mutation)) (key : String) (top : List (Node × Node)) :
    Logged (Except ManifestError (List Mutation)) :=
  match Node.lookup top key with
  | none => pure (.ok [])
  | some node =>
      match ofKind node with
      | none => pure (.error misplaced)
      | some elements => do
          let mutations ← readSection read elements
          pure (.ok mutations)

theorem readFiles_eq : readFiles top =
    readNamed Node.asMapping .filesNotMapping readFileEntry "files" top := by
  rw [readFiles, readNamed]
  cases lookup top "files" with
  | none => rfl
  | some node =>
      dsimp only
      cases node.asMapping <;> rfl

theorem readRemoved_eq : readRemoved top =
    readNamed Node.asSequence .removedNotSequence readRemovedItem "removed" top := by
  rw [readRemoved, readNamed]
  cases lookup top "removed" with
  | none => rfl
  | some node =>
      dsimp only
      cases node.asSequence <;> rfl

section

variable {α : Type} {kind : List α → Node} {ofKind : Node → Option (List α)}
  {misplaced : ManifestError} {read : α → Logged (Option Mutation)} {key : String}

/-- A section is absent, of its kind, or misplaced, and is read accordingly. -/
theorem readNamed_cases (regular : (Node.mapping top).Regular)
    (spec : ∀ node contents, ofKind node = some contents ↔ node = kind contents) :
    (∃ contents, Section top key kind contents ∧
      readNamed ofKind misplaced read key top =
        { value := .ok (readSection read contents).value
          notices := (readSection read contents).notices }) ∨
      (Misplaced top key kind ∧
        readNamed ofKind misplaced read key top = { value := .error misplaced, notices := [] }) := by
  cases looked : lookup top key with
  | none =>
      refine Or.inl ⟨[], Section.absent (lookup_eq_none_iff.mp looked), ?_⟩
      rw [readNamed, looked]
      rfl
  | some node =>
      have found := (lookup_eq_some_iff regular).mp looked
      cases isKind : ofKind node with
      | none =>
          refine Or.inr ⟨⟨node, found, fun contents same => ?_⟩, ?_⟩
          · rw [(spec node contents).mpr same] at isKind
            cases isKind
          · rw [readNamed, looked]
            dsimp only
            rw [isKind]
            rfl
      | some contents =>
          rw [(spec node contents).mp isKind] at found
          refine Or.inl ⟨contents, Section.present found, ?_⟩
          rw [readNamed, looked]
          dsimp only
          rw [isKind]
          simp [bind, Logged.bind, pure]

theorem Section.unique {left right : List α} (regular : (Node.mapping top).Regular)
    (injective : Function.Injective kind) (isLeft : Section top key kind left)
    (isRight : Section top key kind right) : left = right := by
  cases isLeft with
  | absent lacks =>
      cases isRight with
      | absent _ => rfl
      | present found => exact absurd found (lacks _)
  | present leftFound =>
      cases isRight with
      | absent lacks => exact absurd leftFound (lacks _)
      | present rightFound => exact injective (leftFound.unique rightFound regular)

theorem Misplaced.not_section {contents : List α} (regular : (Node.mapping top).Regular)
    (wrong : Misplaced top key kind) : ¬Section top key kind contents := by
  obtain ⟨value, found, other⟩ := wrong
  intro isSection
  cases isSection with
  | absent lacks => exact lacks _ found
  | present ofKind => exact other _ (found.unique ofKind regular)

end

theorem readFiles_cases (regular : (Node.mapping top).Regular) :
    (∃ entries, Section top "files" Node.mapping entries ∧
      readFiles top =
        { value := .ok (readSection readFileEntry entries).value
          notices := (readSection readFileEntry entries).notices }) ∨
      (Misplaced top "files" Node.mapping ∧
        readFiles top = { value := .error .filesNotMapping, notices := [] }) := by
  rw [readFiles_eq]
  exact readNamed_cases regular fun _ _ => asMapping_eq_some_iff

theorem readRemoved_cases (regular : (Node.mapping top).Regular) :
    (∃ items, Section top "removed" Node.sequence items ∧
      readRemoved top =
        { value := .ok (readSection readRemovedItem items).value
          notices := (readSection readRemovedItem items).notices }) ∨
      (Misplaced top "removed" Node.sequence ∧
        readRemoved top = { value := .error .removedNotSequence, notices := [] }) := by
  rw [readRemoved_eq]
  exact readNamed_cases regular fun _ _ => asSequence_eq_some_iff

/-! ### Documents -/

/-- What a document stands for: its mutations, or the first of its sections that is of
the wrong kind. -/
inductive Answers (document : Node) : Except ManifestError (List Mutation) → Prop
  | topLevel (other : ∀ top, document ≠ .mapping top) :
      Answers document (.error .topLevelNotMapping)
  | files {top : List (Node × Node)} (isTop : document = .mapping top)
      (misplaced : Misplaced top "files" Node.mapping) :
      Answers document (.error .filesNotMapping)
  | removed {top entries : List (Node × Node)} (isTop : document = .mapping top)
      (files : Section top "files" Node.mapping entries)
      (misplaced : Misplaced top "removed" Node.sequence) :
      Answers document (.error .removedNotSequence)
  | mutations {top entries : List (Node × Node)} {items : List Node}
      {upserts removals : List Mutation} (isTop : document = .mapping top)
      (files : Section top "files" Node.mapping entries)
      (removed : Section top "removed" Node.sequence items)
      (selectsUpserts : Selects EntryGives entries upserts)
      (selectsRemovals : Selects ItemGives items removals) :
      Answers document (.ok (upserts ++ removals))

theorem Section.entries_regular {entries : List (Node × Node)}
    (regular : (Node.mapping top).Regular) (files : Section top "files" Node.mapping entries) :
    ∀ entry ∈ entries, entry.2.Regular := by
  cases files with
  | absent _ => exact nofun
  | present found =>
      cases found.regular regular with
      | mapping _ values _ => exact values

theorem selects_readFileEntry {entries : List (Node × Node)} {mutations : List Mutation}
    (regular : ∀ entry ∈ entries, entry.2.Regular) :
    Selects EntryGives entries mutations ↔
      (readSection readFileEntry entries).value = mutations := by
  rw [value_readSection]
  exact selects_iff fun entry member _ => value_readFileEntry (regular entry member)

theorem selects_readRemovedItem {items : List Node} {mutations : List Mutation} :
    Selects ItemGives items mutations ↔
      (readSection readRemovedItem items).value = mutations := by
  rw [value_readSection]
  exact selects_iff fun _ _ _ => value_readRemovedItem

theorem Answers.unique {document : Node} {left right : Except ManifestError (List Mutation)}
    (regular : document.Regular) (isLeft : Answers document left)
    (isRight : Answers document right) : left = right := by
  cases isLeft with
  | topLevel other =>
      cases isRight with
      | topLevel _ => rfl
      | files isTop _ => exact absurd isTop (other _)
      | removed isTop _ _ => exact absurd isTop (other _)
      | mutations isTop _ _ _ _ => exact absurd isTop (other _)
  | files isTop misplaced =>
      subst isTop
      cases isRight with
      | topLevel other => exact absurd rfl (other _)
      | files _ _ => rfl
      | removed isTop files _ =>
          cases isTop
          exact absurd files (misplaced.not_section regular)
      | mutations isTop files _ _ _ =>
          cases isTop
          exact absurd files (misplaced.not_section regular)
  | removed isTop files misplaced =>
      subst isTop
      cases isRight with
      | topLevel other => exact absurd rfl (other _)
      | files isTop wrong =>
          cases isTop
          exact absurd files (wrong.not_section regular)
      | removed _ _ _ => rfl
      | mutations isTop _ removed _ _ =>
          cases isTop
          exact absurd removed (misplaced.not_section regular)
  | mutations isTop files removed selectsUpserts selectsRemovals =>
      subst isTop
      cases isRight with
      | topLevel other => exact absurd rfl (other _)
      | files isTop wrong =>
          cases isTop
          exact absurd files (wrong.not_section regular)
      | removed isTop _ wrong =>
          cases isTop
          exact absurd removed (wrong.not_section regular)
      | mutations isTop otherFiles otherRemoved otherUpserts otherRemovals =>
          cases isTop
          have entriesRegular := files.entries_regular regular
          have sameEntries := files.unique regular (fun _ _ => Node.mapping.inj) otherFiles
          have sameItems := removed.unique regular (fun _ _ => Node.sequence.inj) otherRemoved
          subst sameEntries sameItems
          rw [← (selects_readFileEntry entriesRegular).mp selectsUpserts,
            ← (selects_readFileEntry entriesRegular).mp otherUpserts,
            ← selects_readRemovedItem.mp selectsRemovals,
            ← selects_readRemovedItem.mp otherRemovals]

/-- Reading a document ends at the first thing of the wrong kind, or with all mutations
and a notice of their number behind the notices of the sections. -/
theorem ofNode_cases {document : Node} (regular : document.Regular) :
    ((∀ top, document ≠ .mapping top) ∧
      ofNode document = { value := .error .topLevelNotMapping, notices := [] }) ∨
    ∃ top, document = .mapping top ∧
      ((Misplaced top "files" Node.mapping ∧
        ofNode document = { value := .error .filesNotMapping, notices := [] }) ∨
      ∃ entries, Section top "files" Node.mapping entries ∧
        ((Misplaced top "removed" Node.sequence ∧
          ofNode document =
            { value := .error .removedNotSequence
              notices := (readSection readFileEntry entries).notices }) ∨
        ∃ items, Section top "removed" Node.sequence items ∧
          let upserts := readSection readFileEntry entries
          let removals := readSection readRemovedItem items
          ofNode document =
            { value := .ok (upserts.value ++ removals.value)
              notices := upserts.notices ++ (removals.notices ++
                [.manifestParsed (upserts.value ++ removals.value).length]) })) := by
  cases isMapping : document.asMapping with
  | none =>
      refine Or.inl ⟨fun top same => ?_, ?_⟩
      · rw [asMapping_eq_some_iff.mpr same] at isMapping
        cases isMapping
      · rw [ofNode, isMapping]
        rfl
  | some top =>
      have isTop := asMapping_eq_some_iff.mp isMapping
      rw [isTop] at regular
      refine Or.inr ⟨top, isTop, ?_⟩
      rw [ofNode, isMapping]
      dsimp only [bind, Logged.bind]
      rcases readFiles_cases regular with ⟨entries, files, readsFiles⟩ | ⟨misplaced, readsFiles⟩
      · refine Or.inr ⟨entries, files, ?_⟩
        rw [readsFiles]
        rcases readRemoved_cases regular with
          ⟨items, removed, readsRemoved⟩ | ⟨misplaced, readsRemoved⟩
        · refine Or.inr ⟨items, removed, ?_⟩
          rw [readsRemoved]
          rfl
        · refine Or.inl ⟨misplaced, ?_⟩
          rw [readsRemoved]
          simp [pure]
      · refine Or.inl ⟨misplaced, ?_⟩
        rw [readsFiles]
        rfl

theorem answers_ofNode {document : Node} (regular : document.Regular) :
    Answers document (ofNode document).value := by
  rcases ofNode_cases regular with ⟨other, reads⟩ |
    ⟨top, isTop, ⟨misplaced, reads⟩ |
      ⟨entries, files, ⟨misplaced, reads⟩ | ⟨items, removed, reads⟩⟩⟩
  · rw [reads]
    exact Answers.topLevel other
  · rw [reads]
    exact Answers.files isTop misplaced
  · rw [reads]
    exact Answers.removed isTop files misplaced
  · rw [reads]
    rw [isTop] at regular
    exact Answers.mutations isTop files removed
      ((selects_readFileEntry (files.entries_regular regular)).mpr rfl)
      (selects_readRemovedItem.mpr rfl)

theorem parse_of_loaded {text : String} {document : Node} {others : List Node}
    (loaded : documents text = some (document :: others)) : parse text = ofNode document := by
  rw [parse, loaded]

theorem exists_loaded_of_ok {text : String} {mutations : List Mutation}
    (accepted : (parse text).value = .ok mutations) :
    ∃ document others, documents text = some (document :: others) := by
  unfold parse at accepted
  split at accepted
  · cases accepted
  · cases accepted
  · exact ⟨_, _, ‹_›⟩

/-- The first document of a text answers for the whole text.  Its answer is told by its
entries: one mutation for each that gives one, in their order, or the first section
that is of the wrong kind. -/
theorem parse_selects_mutations {text : String} {document : Node} {others : List Node}
    (loaded : documents text = some (document :: others))
    (answer : Except ManifestError (List Mutation)) :
    (parse text).value = answer ↔ Answers document answer := by
  have regular : document.Regular := regular_of_documents loaded document List.mem_cons_self
  rw [parse_of_loaded loaded]
  constructor
  · intro same
    rw [← same]
    exact answers_ofNode regular
  · exact (answers_ofNode regular).unique regular

/-- Entries with a field of the wrong kind and items that are no text are passed over. -/
theorem parse_selects_mutations_mixed :
    let text := "files: { /a: { size: 3 }, /b: { size: -4 } }\nremoved: [ 7, /c ]\n"
    ∃ document others, documents text = some (document :: others) ∧
      Answers document (.ok [.upsert "/a" ⟨3, Binary64.zero, Binary64.one⟩, .remove "/c"]) := by
  intro text
  have accepted : (parse text).value =
      .ok [.upsert "/a" ⟨3, Binary64.zero, Binary64.one⟩, .remove "/c"] := by decide +kernel
  obtain ⟨document, others, loaded⟩ := exists_loaded_of_ok accepted
  exact ⟨document, others, loaded, (parse_selects_mutations loaded _).mp accepted⟩

end Manifest
end Rollup

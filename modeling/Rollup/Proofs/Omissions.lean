/-
What becomes of the entries of a manifest.

Each entry and each item of an accepted manifest gives a mutation, or is passed over
with a notice, or is lost: it has a textual name and a record, and a field of the
record is of the wrong kind.  So the mutations and the notices add up to the entries
and the items exactly when no record has such a field.
-/

import Rollup.Proofs.Entries

namespace Rollup

/-- Reports that an entry of a manifest was passed over. -/
def Notice.isSkip : Notice → Bool
  | .fileEntrySkipped _ | .removedEntrySkipped _ => true
  | _ => false

namespace Manifest

open Yaml Node

variable {fields : List (Node × Node)}

/-! ### Fields of the wrong kind -/

/-- There is a size, and it is no integer that a 64-bit word with a sign can hold, or a
negative one. -/
def WrongSize (fields : List (Node × Node)) : Prop :=
  ∃ value, HasField fields "size" value ∧
    ∀ size : Nat, size < 2 ^ 63 → value ≠ .scalar (.integer size)

/-- There is a value of this name, and it is no number. -/
def WrongNumber (fields : List (Node × Node)) (name : String) : Prop :=
  ∃ value, HasField fields name value ∧
    (∀ number, value ≠ .scalar (.float number)) ∧ ∀ number, value ≠ .scalar (.integer number)

/-- An entry with a textual name and a record, of which a field is of the wrong kind. -/
inductive Mistyped : Node × Node → Prop
  | record {file : String} {fields : List (Node × Node)}
      (wrong : WrongSize fields ∨ WrongNumber fields "health" ∨ WrongNumber fields "redundancy") :
      Mistyped (.scalar (.text file), .mapping fields)

theorem not_exists_sizeField_iff (regular : (Node.mapping fields).Regular) :
    (¬∃ size, SizeField fields size) ↔ WrongSize fields := by
  constructor
  · intro none
    have present : ¬Lacks fields "size" := fun lacks => none ⟨_, SizeField.absent lacks⟩
    obtain ⟨value, found⟩ := not_forall_not.mp present
    refine ⟨value, found, fun size fits same => none ⟨_, SizeField.given ?_ fits⟩⟩
    rw [← same]
    exact found
  · intro ⟨value, found, wrong⟩ ⟨size, field⟩
    cases field with
    | absent lacks => exact lacks value found
    | given given fits => exact wrong _ fits (found.unique given regular)

theorem not_exists_numberField_iff (regular : (Node.mapping fields).Regular) {name : String}
    {default : Binary64} :
    (¬∃ number, NumberField fields name default number) ↔ WrongNumber fields name := by
  constructor
  · intro none
    have present : ¬Lacks fields name := fun lacks => none ⟨_, NumberField.absent lacks⟩
    obtain ⟨value, found⟩ := not_forall_not.mp present
    refine ⟨value, found, fun number same => none ?_, fun number same => none ?_⟩
    · rw [same] at found
      exact ⟨_, NumberField.float found⟩
    · rw [same] at found
      exact ⟨_, NumberField.integer found⟩
  · intro ⟨value, found, notFloat, notInteger⟩ ⟨number, field⟩
    cases field with
    | absent lacks => exact lacks value found
    | float given => exact notFloat _ (found.unique given regular)
    | integer given => exact notInteger _ (found.unique given regular)

theorem readRecord_eq_none_iff (regular : (Node.mapping fields).Regular) :
    readRecord fields = none ↔
      WrongSize fields ∨ WrongNumber fields "health" ∨ WrongNumber fields "redundancy" := by
  have describes : (∃ record, Describes fields record) ↔
      (∃ size, SizeField fields size) ∧
        (∃ health, NumberField fields "health" Binary64.zero health) ∧
          ∃ redundancy, NumberField fields "redundancy" Binary64.one redundancy := by
    constructor
    · intro ⟨record, described⟩
      exact ⟨⟨_, described.size⟩, ⟨_, described.health⟩, ⟨_, described.redundancy⟩⟩
    · intro ⟨⟨size, sizeField⟩, ⟨health, healthField⟩, ⟨redundancy, redundancyField⟩⟩
      exact ⟨⟨size, health, redundancy⟩, sizeField, healthField, redundancyField⟩
  rw [← not_exists_sizeField_iff regular, ← not_exists_numberField_iff regular,
    ← not_exists_numberField_iff regular, ← not_and_or, ← not_and_or, ← describes]
  simp only [← readRecord_eq_some_iff regular, Option.eq_none_iff_forall_ne_some, not_exists, ne_eq]

/-! ### Every element is accounted for -/

open Classical in
/-- Reading an element gives its mutation, reports it or loses it, and just one of
these. -/
def Accounts {α : Type} (read : α → Logged (Option Mutation)) (lost : α → Prop) (element : α) :
    Prop :=
  (read element).value.toList.length + (read element).notices.countP Notice.isSkip +
    (if lost element then 1 else 0) = 1

theorem mistyped_iff {file : String} (regular : (Node.mapping fields).Regular) :
    Mistyped (.scalar (.text file), .mapping fields) ↔ readRecord fields = none := by
  rw [readRecord_eq_none_iff regular]
  constructor
  · intro mistyped
    cases mistyped with
    | record wrong => exact wrong
  · exact Mistyped.record

theorem accounts_readFileEntry {entry : Node × Node} (regular : entry.2.Regular) :
    Accounts readFileEntry Mistyped entry := by
  obtain ⟨key, value⟩ := entry
  unfold Accounts
  by_cases shaped : ∃ file fields, key = .scalar (.text file) ∧ value = .mapping fields
  · obtain ⟨file, fields, rfl, rfl⟩ := shaped
    have reads : readFileEntry (.scalar (.text file), .mapping fields) =
        { value := (readRecord fields).map (.upsert file), notices := [] } := rfl
    rw [reads]
    cases recorded : readRecord fields with
    | none =>
        rw [if_pos ((mistyped_iff regular).mpr recorded)]
        rfl
    | some record =>
        have kept : ¬Mistyped (.scalar (.text file), .mapping fields) := by
          rw [mistyped_iff regular, recorded]
          exact nofun
        rw [if_neg kept]
        rfl
  · have reads : readFileEntry (key, value) =
        { value := none, notices := [.fileEntrySkipped key.describe] } := by
      unfold readFileEntry
      split
      · rename_i isText isMapping
        exact absurd ⟨_, _, asText_eq_some_iff.mp isText, asMapping_eq_some_iff.mp isMapping⟩ shaped
      · rfl
    have kept : ¬Mistyped (key, value) := by
      intro mistyped
      cases mistyped with
      | record _ => exact shaped ⟨_, _, rfl, rfl⟩
    rw [reads, if_neg kept]
    rfl

theorem accounts_readRemovedItem (item : Node) : Accounts readRemovedItem (fun _ => False) item := by
  unfold Accounts readRemovedItem
  rw [if_neg not_false]
  split <;> rfl

open Classical in
theorem accounts_readSection {α : Type} {read : α → Logged (Option Mutation)} {lost : α → Prop}
    {elements : List α} (each : ∀ element ∈ elements, Accounts read lost element) :
    (readSection read elements).value.length +
        (readSection read elements).notices.countP Notice.isSkip +
        elements.countP (fun element => lost element) = elements.length := by
  induction elements with
  | nil => rfl
  | cons element rest inductionHypothesis =>
      obtain ⟨here, elsewhere⟩ := List.forall_mem_cons.mp each
      have further := inductionHypothesis elsewhere
      unfold Accounts at here
      rw [readSection_cons, List.length_append, List.countP_append, List.countP_cons,
        List.length_cons]
      simp only [decide_eq_true_eq]
      omega

/-! ### Manifests -/

open Classical in
/-- In an accepted manifest the mutations, the notices of what was passed over and the
entries that were lost add up to the entries and the items.  Nothing is lost exactly
when no record has a field of the wrong kind. -/
theorem accepted_entries_add_up {text : String} {mutations : List Mutation}
    (accepted : (parse text).value = .ok mutations) :
    ∃ document others top entries items, documents text = some (document :: others) ∧
      document = .mapping top ∧ Section top "files" Node.mapping entries ∧
      Section top "removed" Node.sequence items ∧
      (let accounted := mutations.length + (parse text).notices.countP Notice.isSkip
      accounted + entries.countP (fun entry => Mistyped entry) = entries.length + items.length ∧
        (accounted = entries.length + items.length ↔ ∀ entry ∈ entries, ¬Mistyped entry)) := by
  obtain ⟨document, others, loaded⟩ := exists_loaded_of_ok accepted
  have regular : document.Regular := regular_of_documents loaded document List.mem_cons_self
  rw [parse_of_loaded loaded] at accepted ⊢
  rcases ofNode_cases regular with ⟨_, reads⟩ |
    ⟨top, isTop, ⟨_, reads⟩ | ⟨entries, files, ⟨_, reads⟩ | ⟨items, removed, reads⟩⟩⟩
  · rw [reads] at accepted
    cases accepted
  · rw [reads] at accepted
    cases accepted
  · rw [reads] at accepted
    cases accepted
  · rw [isTop] at regular
    have overEntries := accounts_readSection fun entry member =>
      accounts_readFileEntry (files.entries_regular regular entry member)
    have overItems : (readSection readRemovedItem items).value.length +
        (readSection readRemovedItem items).notices.countP Notice.isSkip = items.length := by
      simpa using accounts_readSection fun item _ => accounts_readRemovedItem item
    rw [reads] at accepted
    cases accepted
    refine ⟨document, others, top, entries, items, loaded, isTop, files, removed, ?_⟩
    rw [reads]
    have further (count : Nat) : [Notice.manifestParsed count].countP Notice.isSkip = 0 := rfl
    have lossless : entries.countP (fun entry => Mistyped entry) = 0 ↔
        ∀ entry ∈ entries, ¬Mistyped entry := by
      simp [List.countP_eq_zero]
    rw [← lossless]
    simp only [List.length_append, List.countP_append, further]
    constructor <;> omega

theorem accepted_entries_add_up_mixed :
    let text := "files: { /a: { size: 3 }, /b: 5, /c: { size: -4 } }\nremoved: [ 7, /d ]\n"
    ∃ document others top entries items, documents text = some (document :: others) ∧
      document = .mapping top ∧ Section top "files" Node.mapping entries ∧
      Section top "removed" Node.sequence items ∧ (parse text).notices.countP Notice.isSkip = 2 ∧
      (2 + 2 = entries.length + items.length ↔ ∀ entry ∈ entries, ¬Mistyped entry) := by
  intro text
  have accepted : (parse text).value =
      .ok [.upsert "/a" ⟨3, Binary64.zero, Binary64.one⟩, .remove "/d"] := by decide +kernel
  have skipped : (parse text).notices.countP Notice.isSkip = 2 := by decide +kernel
  obtain ⟨document, others, top, entries, items, loaded, isTop, files, removed, _, lossless⟩ :=
    accepted_entries_add_up accepted
  rw [skipped] at lossless
  exact ⟨document, others, top, entries, items, loaded, isTop, files, removed, skipped, lossless⟩

/-- The record of the only entry has a negative size.  The entry gives no mutation, and
no notice reports that it was passed over. -/
theorem mistyped_entry_is_lost :
    let text := "files:\n  /a: { size: -4 }\n"
    let top := (documents text).bind List.head? |>.bind Node.asMapping
    let entries := top.bind (Node.lookup · "files") |>.bind Node.asMapping
    entries.map List.length = some 1 ∧ top.map (Node.lookup · "removed" |>.isNone) = some true ∧
      (parse text).value = .ok [] ∧ (parse text).notices = [.manifestParsed 0] := by
  decide +kernel

end Manifest
end Rollup

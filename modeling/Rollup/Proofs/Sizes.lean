/-
Sizes in a manifest.

A size written as a plain decimal number reaches its file if it fits a 64-bit word with
a sign.  A record could hold twice as many sizes, but a number that needs the sign bit is
no integer of a manifest: its entry gives no mutation, and no notice says so.
-/

import Rollup.Proofs.Listings
import Rollup.Proofs.Omissions

namespace Rollup.Manifest

open Yaml Node

/-! ### Records -/

section

variable {fields : List (Node × Node)} {size : Nat}

/-- The record has a size, and it is this plain decimal number. -/
def WritesSize (fields : List (Node × Node)) (size : Nat) : Prop :=
  HasField fields "size" (.scalar (Scalar.guess (toString size)))

theorem sizeField_iff (regular : (Node.mapping fields).Regular) (writes : WritesSize fields size)
    (read : UInt64) : SizeField fields read ↔ size < 2 ^ 63 ∧ read = UInt64.ofNat size := by
  rw [WritesSize, Scalar.guess_toString] at writes
  by_cases fits : size < 2 ^ 63
  · rw [if_pos fits] at writes
    constructor
    · intro field
      cases field with
      | absent lacks => exact absurd writes (lacks _)
      | given found _ =>
          cases found.unique writes regular
          exact ⟨fits, rfl⟩
    · intro ⟨_, same⟩
      rw [same]
      exact SizeField.given writes fits
  · rw [if_neg fits] at writes
    constructor
    · intro field
      cases field with
      | absent lacks => exact absurd writes (lacks _)
      | given found _ => cases found.unique writes regular
    · intro ⟨fits', _⟩
      exact absurd fits' fits

end

/-! ### Listings -/

/-- The mutation of a listed file, unless its size needs the sign bit. -/
def listedUpsert (entry : String × Nat) : Option Mutation :=
  if entry.2 < 2 ^ 63 then
    some (.upsert entry.1 ⟨UInt64.ofNat entry.2, Binary64.zero, Binary64.one⟩)
  else none

theorem readFileEntry_listed (entry : String × Nat) :
    readFileEntry (entryNodes entry) = pure (listedUpsert entry) := by
  have reads : readFileEntry (entryNodes entry) =
      pure ((readRecord (recordFields entry.2)).map (.upsert entry.1)) := rfl
  rw [reads, recordFields, Scalar.guess_toString, listedUpsert]
  by_cases fits : entry.2 < 2 ^ 63
  · rw [if_pos fits, if_pos fits]
    rfl
  · rw [if_neg fits, if_neg fits]
    rfl

theorem readSection_listed (files : List (String × Nat)) :
    readSection readFileEntry (files.map entryNodes) =
      { value := files.filterMap listedUpsert, notices := [] } := by
  induction files with
  | nil => rfl
  | cons entry rest inductionHypothesis =>
      rw [List.map_cons, readSection_cons, inductionHypothesis, readFileEntry_listed,
        List.filterMap_cons]
      cases listedUpsert entry <;> rfl

/-- A listing of different files gives the mutations of those whose size leaves the sign bit
free, and no notice about the others. -/
theorem parse_listing {files : List (String × Nat)} (distinct : (files.map Prod.fst).Nodup) :
    parse (listing files) =
      { value := .ok (files.filterMap listedUpsert)
        notices := [.manifestParsed (files.filterMap listedUpsert).length] } := by
  have reads : readFiles [(.scalar (.text "files"), .mapping (files.map entryNodes))] =
      { value := .ok (files.filterMap listedUpsert), notices := [] } := by
    have found : readFiles [(.scalar (.text "files"), .mapping (files.map entryNodes))] =
        (readSection readFileEntry (files.map entryNodes)).bind fun mutations =>
          pure (.ok mutations) := rfl
    rw [found, readSection_listed]
    rfl
  have removes : readRemoved [(.scalar (.text "files"), .mapping (files.map entryNodes))] =
      pure (.ok []) := rfl
  rw [parse_of_loaded (documents_listing_of_nodup distinct), ofNode]
  simp [asMapping, reads, removes, bind, Logged.bind, pure, Logged.note]

/-! ### Manifests -/

section

variable {text : String} {mutations : List Mutation} {top entries fields : List (Node × Node)}
  {others : List Node} {file : String}

/-- A listed file is stored with each record that its entry describes, and with no other. -/
theorem upsert_mem_iff (accepted : (parse text).value = .ok mutations)
    (loaded : documents text = some (.mapping top :: others))
    (files : HasField top "files" (.mapping entries))
    (listed : HasField entries file (.mapping fields)) (record : FileRecord) :
    .upsert file record ∈ mutations ↔ Describes fields record := by
  have regular : (Node.mapping top).Regular := regular_of_documents loaded _ List.mem_cons_self
  have entriesRegular := files.regular regular
  have fieldsRegular := listed.regular entriesRegular
  rw [parse_of_loaded loaded] at accepted
  rcases ofNode_cases regular with ⟨other, _⟩ |
    ⟨_, isTop, ⟨_, reads⟩ | ⟨read, isRead, ⟨_, reads⟩ | ⟨items, _, reads⟩⟩⟩
  · exact absurd rfl (other top)
  · rw [reads] at accepted
    cases accepted
  · rw [reads] at accepted
    cases accepted
  · cases isTop
    have same := isRead.unique regular (fun _ _ => Node.mapping.inj) (.present files)
    subst same
    rw [reads] at accepted
    cases accepted
    rw [List.mem_append, value_readSection, value_readSection, List.mem_filterMap,
      List.mem_filterMap]
    constructor
    · rintro (⟨entry, member, gives⟩ | ⟨item, _, gives⟩)
      · have entryRegular := isRead.entries_regular regular entry member
        cases (value_readFileEntry entryRegular).mp gives with
        | upsert describes =>
            have sameFields := Node.mapping.inj (HasField.unique member listed entriesRegular)
            rw [← sameFields]
            exact describes
      · cases value_readRemovedItem.mp gives
    · intro describes
      exact Or.inl ⟨_, listed, (value_readFileEntry fieldsRegular).mpr (.upsert describes)⟩

/-- A file has the size written for it, and it is stored if and only if the size leaves the
sign bit free and the other fields are of their kind. -/
theorem writtenSize_arrives_iff {size : Nat} (accepted : (parse text).value = .ok mutations)
    (loaded : documents text = some (.mapping top :: others))
    (files : HasField top "files" (.mapping entries))
    (listed : HasField entries file (.mapping fields)) (writes : WritesSize fields size) :
    (∀ record, .upsert file record ∈ mutations → record.size.toNat = size) ∧
      ((∃ record, .upsert file record ∈ mutations) ↔
        size < 2 ^ 63 ∧ ¬WrongNumber fields "health" ∧ ¬WrongNumber fields "redundancy") := by
  have regular : (Node.mapping top).Regular := regular_of_documents loaded _ List.mem_cons_self
  have fieldsRegular := listed.regular (files.regular regular)
  have isSize := sizeField_iff fieldsRegular writes
  constructor
  · intro record member
    have describes := (upsert_mem_iff accepted loaded files listed record).mp member
    obtain ⟨fits, same⟩ := (isSize _).mp describes.size
    rw [same, UInt64.toNat_ofNat_of_lt']
    exact Nat.lt_trans fits (by decide)
  · simp only [upsert_mem_iff accepted loaded files listed]
    constructor
    · rintro ⟨record, describes⟩
      refine ⟨((isSize _).mp describes.size).1, fun wrong => ?_, fun wrong => ?_⟩
      · exact (not_exists_numberField_iff fieldsRegular).mpr wrong ⟨_, describes.health⟩
      · exact (not_exists_numberField_iff fieldsRegular).mpr wrong ⟨_, describes.redundancy⟩
    · rintro ⟨fits, healthRight, redundancyRight⟩
      obtain ⟨health, hasHealth⟩ :
          ∃ health, NumberField fields "health" Binary64.zero health :=
        not_not.mp (mt (not_exists_numberField_iff fieldsRegular).mp healthRight)
      obtain ⟨redundancy, hasRedundancy⟩ :
          ∃ redundancy, NumberField fields "redundancy" Binary64.one redundancy :=
        not_not.mp (mt (not_exists_numberField_iff fieldsRegular).mp redundancyRight)
      exact ⟨⟨UInt64.ofNat size, health, redundancy⟩, (isSize _).mpr ⟨fits, rfl⟩, hasHealth,
        hasRedundancy⟩

end

/-- A listed file is stored if and only if its size leaves the sign bit free. -/
theorem upsert_mem_listed_iff {files : List (String × Nat)}
    (distinct : (files.map Prod.fst).Nodup) {file : String} {size : Nat}
    (listed : (file, size) ∈ files) :
    (∃ record, .upsert file record ∈ files.filterMap listedUpsert) ↔ size < 2 ^ 63 := by
  have accepted : (parse (listing files)).value = .ok (files.filterMap listedUpsert) := by
    rw [parse_listing distinct]
  have arrives := (writtenSize_arrives_iff accepted (documents_listing_of_nodup distinct)
    List.mem_cons_self (List.mem_map_of_mem listed) List.mem_cons_self).2
  have noOther {name : String} (other : name ≠ "size") :
      ¬WrongNumber (recordFields size) name := by
    intro ⟨value, found, _⟩
    obtain ⟨same, _⟩ := Prod.mk.inj (List.mem_singleton.mp found)
    exact other (Scalar.text.inj (Node.scalar.inj same))
  rw [arrives]
  exact and_iff_left ⟨noOther (by decide), noOther (by decide)⟩

/-- A size reaches its file if and only if it leaves the sign bit free: among any files with
their sizes as they are listed, and in every manifest that is accepted, unless another field
of the record is of the wrong kind. -/
theorem sizes_arrive_below_sign_bit (file : String) (size : Nat) :
    (∀ files : List (String × Nat), (files.map Prod.fst).Nodup → (file, size) ∈ files →
      parse (listing files) =
          { value := .ok (files.filterMap listedUpsert)
            notices := [.manifestParsed (files.filterMap listedUpsert).length] } ∧
        ((∃ record, .upsert file record ∈ files.filterMap listedUpsert) ↔ size < 2 ^ 63)) ∧
    ∀ (text : String) (mutations : List Mutation) (top entries fields : List (Node × Node))
      (others : List Node),
      (parse text).value = .ok mutations → documents text = some (.mapping top :: others) →
      HasField top "files" (.mapping entries) → HasField entries file (.mapping fields) →
      WritesSize fields size →
      (∀ record, .upsert file record ∈ mutations → record.size.toNat = size) ∧
        ((∃ record, .upsert file record ∈ mutations) ↔
          size < 2 ^ 63 ∧ ¬WrongNumber fields "health" ∧ ¬WrongNumber fields "redundancy") := by
  constructor
  · exact fun files distinct listed =>
      ⟨parse_listing distinct, upsert_mem_listed_iff distinct listed⟩
  · intro text mutations top entries fields others accepted loaded inFiles listed writes
    exact writtenSize_arrives_iff accepted loaded inFiles listed writes

theorem sizes_arrive_below_sign_bit_mixed :
    let files := [("/a", 7), ("/b", 2 ^ 63)]
    parse (listing files) =
        { value := .ok [.upsert "/a" ⟨7, Binary64.zero, Binary64.one⟩]
          notices := [.manifestParsed 1] } ∧
      (∀ record, .upsert "/a" record ∈ files.filterMap listedUpsert → record.size.toNat = 7) ∧
      ¬∃ record, .upsert "/b" record ∈ files.filterMap listedUpsert := by
  intro files
  have distinct : (files.map Prod.fst).Nodup := by decide
  have isSecond : ("/b", 2 ^ 63) ∈ files := List.mem_cons_of_mem _ List.mem_cons_self
  obtain ⟨parsed, missing⟩ := (sizes_arrive_below_sign_bit "/b" (2 ^ 63)).1 files distinct isSecond
  have stored := (sizes_arrive_below_sign_bit "/a" 7).2 _ _ _ _ (recordFields 7) []
    (by rw [parsed]) (documents_listing_of_nodup distinct) List.mem_cons_self List.mem_cons_self
    List.mem_cons_self
  exact ⟨parsed, stored.1, fun found => Nat.lt_irrefl _ (missing.mp found)⟩

/-- A record could hold the size, and the path is that of a file.  Still the entry gives no
mutation, and no notice reports that it was passed over. -/
theorem size_of_sign_bit_is_lost :
    let text := "files:\n  \"/big\": { size: 9223372036854775808 }\n"
    9223372036854775808 < UInt64.size ∧ (Path.splitFile "/big").isOk = true ∧
      (parse text).value = .ok [] ∧ (parse text).notices = [.manifestParsed 0] := by
  decide +kernel

end Rollup.Manifest

/-
Membership in ordered maps and sets.

A key belongs to a map when the map has a value for it.  Each operation has
one equation that says which keys belong afterwards.
-/

import Rollup.OrderedMap

namespace Rollup

namespace OrderedMap

variable {κ α : Type} [Ord κ]

instance : Membership κ (OrderedMap κ α) :=
  ⟨fun map key => map.contains key = true⟩

instance (map : OrderedMap κ α) (key : κ) : Decidable (key ∈ map) :=
  inferInstanceAs (Decidable (map.contains key = true))

theorem contains_eq_true_iff {map : OrderedMap κ α} {key : κ} :
    map.contains key = true ↔ key ∈ map := Iff.rfl

theorem contains_eq_false_iff {map : OrderedMap κ α} {key : κ} :
    map.contains key = false ↔ key ∉ map := by
  rw [← contains_eq_true_iff, Bool.not_eq_true]

theorem mem_iff_get? {map : OrderedMap κ α} {key : κ} :
    key ∈ map ↔ ∃ value, map.get? key = some value :=
  Option.isSome_iff_exists

theorem not_mem_iff_get? {map : OrderedMap κ α} {key : κ} :
    key ∉ map ↔ map.get? key = none := by
  rw [mem_iff_get?, ← Option.isSome_iff_exists, Bool.not_eq_true, Option.isSome_eq_false_iff,
    Option.isNone_iff_eq_none]

theorem mem_of_get? {map : OrderedMap κ α} {key : κ} {value : α}
    (found : map.get? key = some value) : key ∈ map :=
  mem_iff_get?.mpr ⟨value, found⟩

theorem not_mem_empty (key : κ) : key ∉ (∅ : OrderedMap κ α) :=
  not_mem_iff_get?.mpr rfl

section Lawful

variable [Std.LawfulEqOrd κ]

theorem mem_keys_iff {map : OrderedMap κ α} {key : κ} : key ∈ map.keys ↔ key ∈ map := by
  rw [mem_iff_get?]
  constructor
  · intro member
    obtain ⟨⟨_, value⟩, inEntries, rfl⟩ := List.mem_map.mp member
    exact ⟨value, mem_toList_iff.mp inEntries⟩
  · intro ⟨value, found⟩
    exact List.mem_map.mpr ⟨(key, value), mem_toList_iff.mpr found, rfl⟩

theorem nodup_keys (map : OrderedMap κ α) : map.keys.Nodup := by
  refine List.pairwise_map.mpr (map.ordered.imp ?_)
  intro earlier later below same
  rw [same] at below
  simp at below

variable [DecidableEq κ]

theorem mem_erase {map : OrderedMap κ α} {key other : κ} :
    other ∈ map.erase key ↔ other ≠ key ∧ other ∈ map := by
  rw [mem_iff_get?, get?_erase, mem_iff_get?]
  by_cases same : other = key <;> simp [same]

variable [Std.TransOrd κ]

theorem mem_insert {map : OrderedMap κ α} {key other : κ} {value : α} :
    other ∈ map.insert key value ↔ other = key ∨ other ∈ map := by
  rw [← contains_eq_true_iff, contains_insert, Bool.or_eq_true, decide_eq_true_iff]
  rfl

theorem mem_modify {map : OrderedMap κ α} {key other : κ} {change : α → α} :
    other ∈ map.modify key change ↔ other ∈ map := by
  rw [← contains_eq_true_iff, contains_modify]
  rfl

/-! ### Maps from lists -/

theorem get?_foldl_insert (entries : List (κ × α)) (map : OrderedMap κ α) (key : κ) :
    (entries.foldl (fun map entry => map.insert entry.1 entry.2) map).get? key =
      (entries.reverse.lookup key).or (map.get? key) := by
  induction entries generalizing map with
  | nil => rfl
  | cons entry rest inductionHypothesis =>
      obtain ⟨other, value⟩ := entry
      rw [List.foldl_cons, inductionHypothesis, get?_insert, List.reverse_cons, List.lookup_append,
        Option.or_assoc]
      by_cases same : key = other
      · simp [same]
      · have different : (key == other) = false := beq_eq_false_iff_ne.mpr same
        simp [List.lookup_cons, same, different]

/-- The last entry with a key counts. -/
theorem get?_ofList (entries : List (κ × α)) (key : κ) :
    (ofList entries).get? key = entries.reverse.lookup key := by
  rw [ofList, get?_foldl_insert, get?_empty, Option.or_none]

/-- A map is made of its entries, in whatever order they are listed. -/
theorem ofList_of_perm {map : OrderedMap κ α} {entries : List (κ × α)}
    (same : entries.Perm map.toList) : ofList entries = map := by
  have memberIff (key : κ) (value : α) :
      (key, value) ∈ entries.reverse ↔ map.get? key = some value := by
    rw [List.mem_reverse, same.mem_iff, mem_toList_iff]
  refine ext_get? fun key => ?_
  rw [get?_ofList]
  cases listed : entries.reverse.lookup key with
  | some value =>
      obtain ⟨earlier, later, split, _⟩ := List.lookup_eq_some_iff.mp listed
      have member : (key, value) ∈ entries.reverse := by
        rw [split]
        exact List.mem_append_right earlier List.mem_cons_self
      exact ((memberIff key value).mp member).symm
  | none =>
      cases found : map.get? key with
      | none => rfl
      | some value =>
          have absent := List.lookup_eq_none_iff.mp listed (key, value) ((memberIff key value).mpr found)
          simp at absent

end Lawful

end OrderedMap

namespace OrderedSet

variable {κ : Type} [Ord κ]

theorem length_members (set : OrderedSet κ) : set.members.length = set.size :=
  List.length_map _

variable [Std.LawfulEqOrd κ]

theorem mem_members_iff {set : OrderedSet κ} {member : κ} : member ∈ set.members ↔ member ∈ set :=
  OrderedMap.mem_keys_iff

theorem nodup_members (set : OrderedSet κ) : set.members.Nodup :=
  OrderedMap.nodup_keys set

variable [Std.TransOrd κ]

/-- Sets with the same members are equal. -/
theorem ext_mem {left right : OrderedSet κ} (same : ∀ member, member ∈ left ↔ member ∈ right) :
    left = right := by
  refine OrderedMap.ext_get? fun key => ?_
  cases leftFound : left.get? key with
  | none =>
      have absent := OrderedMap.not_mem_iff_get?.mpr leftFound
      exact (OrderedMap.not_mem_iff_get?.mp fun inRight => absent ((same key).mpr inRight)).symm
  | some value =>
      have present := (same key).mp (OrderedMap.mem_of_get? leftFound)
      obtain ⟨other, rightFound⟩ := OrderedMap.mem_iff_get?.mp present
      rw [rightFound]

theorem mem_add [DecidableEq κ] {set : OrderedSet κ} {member other : κ} :
    other ∈ set.add member ↔ other = member ∨ other ∈ set :=
  OrderedMap.mem_insert

theorem ofMembers_members [DecidableEq κ] (set : OrderedSet κ) : ofMembers set.members = set := by
  have listed : set.members.map (fun member => (member, ())) = set.toList := by
    unfold members OrderedMap.keys OrderedMap.toList
    rw [List.map_map]
    exact List.map_id' _
  have same : ofMembers set.members = OrderedMap.ofList (set.members.map fun member => (member, ())) := by
    rw [ofMembers, OrderedMap.ofList, List.foldl_map]
    rfl
  rw [same, listed]
  exact OrderedMap.ofList_of_perm (List.Perm.refl _)

end OrderedSet

end Rollup

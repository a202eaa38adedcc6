/-
Finite maps whose entries are kept in strictly increasing key order.

The order of the entries is part of the type, so two maps that answer every
lookup alike are equal, and every listing of a map is sorted by key.
-/

namespace Rollup

/-- A finite map, stored as its entries in increasing key order. -/
structure OrderedMap (κ : Type) (α : Type) [Ord κ] where
  entries : List (κ × α)
  ordered : entries.Pairwise fun earlier later => compare earlier.1 later.1 = .lt

namespace OrderedMap

variable {κ α : Type} [Ord κ]

/-! ### Operations on the entries -/

/-- Puts an entry at its place, replacing an entry with the same key. -/
def insertEntry (key : κ) (value : α) : List (κ × α) → List (κ × α)
  | [] => [(key, value)]
  | (otherKey, otherValue) :: rest =>
      match compare key otherKey with
      | .lt => (key, value) :: (otherKey, otherValue) :: rest
      | .eq => (key, value) :: rest
      | .gt => (otherKey, otherValue) :: insertEntry key value rest

def lookupEntry (key : κ) : List (κ × α) → Option α
  | [] => none
  | (otherKey, value) :: rest =>
      if compare key otherKey = .eq then some value else lookupEntry key rest

def eraseEntry (key : κ) (entries : List (κ × α)) : List (κ × α) :=
  entries.filter fun entry => compare key entry.1 != .eq

theorem mem_of_mem_insertEntry {key : κ} {value : α} {entry : κ × α}
    {entries : List (κ × α)} (member : entry ∈ insertEntry key value entries) :
    entry = (key, value) ∨ entry ∈ entries := by
  induction entries with
  | nil => simpa [insertEntry] using member
  | cons head rest inductionHypothesis =>
      obtain ⟨otherKey, otherValue⟩ := head
      unfold insertEntry at member
      split at member <;> grind

theorem insertEntry_ordered [Std.TransOrd κ] (key : κ) (value : α)
    {entries : List (κ × α)}
    (ordered : entries.Pairwise fun earlier later => compare earlier.1 later.1 = .lt) :
    (insertEntry key value entries).Pairwise
      fun earlier later => compare earlier.1 later.1 = .lt := by
  induction entries with
  | nil => simp [insertEntry]
  | cons head rest inductionHypothesis =>
      obtain ⟨otherKey, otherValue⟩ := head
      have ⟨headBelow, restOrdered⟩ := List.pairwise_cons.mp ordered
      unfold insertEntry
      split
      · rename_i below
        refine List.pairwise_cons.mpr ⟨?_, ordered⟩
        intro entry member
        rcases List.mem_cons.mp member with rfl | later
        · exact below
        · exact Std.TransCmp.lt_trans below (headBelow entry later)
      · rename_i same
        refine List.pairwise_cons.mpr ⟨?_, restOrdered⟩
        intro entry later
        exact Std.TransCmp.lt_of_eq_of_lt same (headBelow entry later)
      · rename_i above
        refine List.pairwise_cons.mpr ⟨?_, inductionHypothesis restOrdered⟩
        intro entry member
        rcases mem_of_mem_insertEntry member with rfl | later
        · exact Std.OrientedCmp.lt_of_gt above
        · exact headBelow entry later

/-! ### The map interface -/

/-- The map with no entry. -/
def empty : OrderedMap κ α :=
  { entries := [], ordered := List.Pairwise.nil }

instance : EmptyCollection (OrderedMap κ α) := ⟨empty⟩

instance : Inhabited (OrderedMap κ α) := ⟨empty⟩

def get? (map : OrderedMap κ α) (key : κ) : Option α :=
  lookupEntry key map.entries

def contains (map : OrderedMap κ α) (key : κ) : Bool :=
  (map.get? key).isSome

def size (map : OrderedMap κ α) : Nat :=
  map.entries.length

def toList (map : OrderedMap κ α) : List (κ × α) :=
  map.entries

def keys (map : OrderedMap κ α) : List κ :=
  map.entries.map Prod.fst

def values (map : OrderedMap κ α) : List α :=
  map.entries.map Prod.snd

def insert [Std.TransOrd κ] (map : OrderedMap κ α) (key : κ) (value : α) :
    OrderedMap κ α :=
  { entries := insertEntry key value map.entries
    ordered := insertEntry_ordered key value map.ordered }

def erase (map : OrderedMap κ α) (key : κ) : OrderedMap κ α :=
  { entries := eraseEntry key map.entries
    ordered := map.ordered.filter _ }

/-- Applies a change to the value of a key; an absent key stays absent. -/
def modify [Std.TransOrd κ] (map : OrderedMap κ α) (key : κ) (change : α → α) :
    OrderedMap κ α :=
  match map.get? key with
  | some value => map.insert key (change value)
  | none => map

/-- Inserts entries from left to right, so the last of equal keys stays. -/
def ofList [Std.TransOrd κ] (entries : List (κ × α)) : OrderedMap κ α :=
  entries.foldl (fun map entry => map.insert entry.1 entry.2) empty

/-! ### Lookup after each operation -/

section Lookup

variable [Std.TransOrd κ] [Std.LawfulEqOrd κ]

omit [Std.TransOrd κ] in
theorem lookupEntry_of_mem {entries : List (κ × α)} {key : κ} {value : α}
    (ordered : entries.Pairwise fun earlier later => compare earlier.1 later.1 = .lt)
    (member : (key, value) ∈ entries) : lookupEntry key entries = some value := by
  induction entries with
  | nil => simp at member
  | cons head rest inductionHypothesis =>
      obtain ⟨otherKey, otherValue⟩ := head
      have ⟨headBelow, restOrdered⟩ := List.pairwise_cons.mp ordered
      rcases List.mem_cons.mp member with same | later
      · cases same
        simp [lookupEntry]
      · have different : compare key otherKey ≠ .eq := by
          intro equal
          have keyEq : key = otherKey := Std.LawfulEqCmp.eq_of_compare equal
          have below := headBelow _ later
          subst keyEq
          simp at below
        simp [lookupEntry, different, inductionHypothesis restOrdered later]

omit [Std.TransOrd κ] in
theorem mem_of_lookupEntry {entries : List (κ × α)} {key : κ} {value : α}
    (found : lookupEntry key entries = some value) : (key, value) ∈ entries := by
  induction entries with
  | nil => simp [lookupEntry] at found
  | cons head rest inductionHypothesis =>
      obtain ⟨otherKey, otherValue⟩ := head
      unfold lookupEntry at found
      split at found
      · rename_i equal
        have keyEq : key = otherKey := Std.LawfulEqCmp.eq_of_compare equal
        simp_all
      · exact List.mem_cons_of_mem _ (inductionHypothesis found)

omit [Std.TransOrd κ] in
theorem mem_toList_iff {map : OrderedMap κ α} {key : κ} {value : α} :
    (key, value) ∈ map.toList ↔ map.get? key = some value :=
  ⟨lookupEntry_of_mem map.ordered, mem_of_lookupEntry⟩

omit [Std.TransOrd κ] [Std.LawfulEqOrd κ] in
@[simp] theorem get?_empty (key : κ) : (empty : OrderedMap κ α).get? key = none := rfl

section Update

variable [DecidableEq κ]

omit [Std.TransOrd κ] in
theorem lookupEntry_insertEntry (key other : κ) (value : α) (entries : List (κ × α)) :
    lookupEntry other (insertEntry key value entries) =
      if other = key then some value else lookupEntry other entries := by
  induction entries with
  | nil => simp [insertEntry, lookupEntry]
  | cons head rest inductionHypothesis =>
      obtain ⟨headKey, headValue⟩ := head
      unfold insertEntry
      split
      · simp [lookupEntry]
      · rename_i same
        have keyEq : key = headKey := Std.LawfulEqCmp.eq_of_compare same
        subst keyEq
        by_cases equal : other = key <;> simp [lookupEntry, equal]
      · rename_i above
        have different : headKey ≠ key := by
          intro equal
          subst equal
          simp at above
        by_cases equal : other = headKey
        · subst equal
          simp [lookupEntry, different]
        · simp [lookupEntry, equal, inductionHypothesis]

theorem get?_insert (map : OrderedMap κ α) (key other : κ) (value : α) :
    (map.insert key value).get? other =
      if other = key then some value else map.get? other :=
  lookupEntry_insertEntry key other value map.entries

omit [Std.TransOrd κ] in
theorem get?_erase (map : OrderedMap κ α) (key other : κ) :
    (map.erase key).get? other = if other = key then none else map.get? other := by
  show lookupEntry other (eraseEntry key map.entries) = _
  unfold get? eraseEntry
  induction map.entries with
  | nil => simp [lookupEntry]
  | cons head rest inductionHypothesis =>
      obtain ⟨headKey, headValue⟩ := head
      by_cases same : key = headKey
      · subst same
        by_cases equal : other = key <;>
          simp_all [lookupEntry]
      · by_cases equal : other = headKey
        · subst equal
          simp [lookupEntry, same, Ne.symm same]
        · simp [lookupEntry, same, equal, inductionHypothesis]

theorem get?_modify (map : OrderedMap κ α) (key other : κ) (change : α → α) :
    (map.modify key change).get? other =
      if other = key then (map.get? other).map change else map.get? other := by
  unfold modify
  split
  · rename_i value found
    rw [get?_insert]
    split
    · rename_i equal
      subst equal
      simp [found]
    · rfl
  · rename_i missing
    split
    · rename_i equal
      subst equal
      simp [missing]
    · rfl

theorem contains_insert (map : OrderedMap κ α) (key other : κ) (value : α) :
    (map.insert key value).contains other = (decide (other = key) || map.contains other) := by
  unfold contains
  rw [get?_insert]
  by_cases equal : other = key <;> simp [equal]

theorem contains_modify (map : OrderedMap κ α) (key other : κ) (change : α → α) :
    (map.modify key change).contains other = map.contains other := by
  unfold contains
  rw [get?_modify]
  by_cases equal : other = key <;> simp [equal]

end Update

omit [Std.LawfulEqOrd κ] in
theorem entries_eq_of_same_members {left right : List (κ × α)}
    (leftOrdered : left.Pairwise fun earlier later => compare earlier.1 later.1 = .lt)
    (rightOrdered : right.Pairwise fun earlier later => compare earlier.1 later.1 = .lt)
    (same : ∀ entry, entry ∈ left ↔ entry ∈ right) : left = right := by
  induction left generalizing right with
  | nil =>
      cases right with
      | nil => rfl
      | cons head rest => exact absurd ((same head).mpr (by simp)) (by simp)
  | cons leftHead leftRest inductionHypothesis =>
      cases right with
      | nil => exact absurd ((same leftHead).mp (by simp)) (by simp)
      | cons rightHead rightRest =>
          have ⟨leftBelow, leftRestOrdered⟩ := List.pairwise_cons.mp leftOrdered
          have ⟨rightBelow, rightRestOrdered⟩ := List.pairwise_cons.mp rightOrdered
          have headsEqual : leftHead = rightHead := by
            rcases List.mem_cons.mp ((same leftHead).mp (by simp)) with equal | later
            · exact equal
            · rcases List.mem_cons.mp ((same rightHead).mpr (by simp)) with equal | earlier
              · exact equal.symm
              · have oneWay := rightBelow leftHead later
                have otherWay := leftBelow rightHead earlier
                have loop := Std.TransCmp.lt_trans oneWay otherWay
                simp at loop
          subst headsEqual
          have notInLeft : leftHead ∉ leftRest := fun member => by
            have loop := leftBelow leftHead member
            simp at loop
          have notInRight : leftHead ∉ rightRest := fun member => by
            have loop := rightBelow leftHead member
            simp at loop
          congr 1
          refine inductionHypothesis leftRestOrdered rightRestOrdered fun entry => ?_
          constructor
          · intro member
            rcases List.mem_cons.mp ((same entry).mp (List.mem_cons_of_mem _ member))
              with equal | found
            · exact absurd (equal ▸ member) notInLeft
            · exact found
          · intro member
            rcases List.mem_cons.mp ((same entry).mpr (List.mem_cons_of_mem _ member))
              with equal | found
            · exact absurd (equal ▸ member) notInRight
            · exact found

/-- Two maps that answer every lookup alike are equal. -/
theorem ext_get? {left right : OrderedMap κ α}
    (same : ∀ key, left.get? key = right.get? key) : left = right := by
  have entriesEqual : left.entries = right.entries :=
    entries_eq_of_same_members left.ordered right.ordered fun (key, value) => by
      show (key, value) ∈ left.toList ↔ (key, value) ∈ right.toList
      rw [mem_toList_iff, mem_toList_iff, same key]
  cases left
  cases right
  simp_all

end Lookup

end OrderedMap

/-- A finite set, stored as its members in increasing order. -/
abbrev OrderedSet (κ : Type) [Ord κ] := OrderedMap κ Unit

namespace OrderedSet

variable {κ : Type} [Ord κ]

def add [Std.TransOrd κ] (set : OrderedSet κ) (member : κ) : OrderedSet κ :=
  set.insert member ()

def members (set : OrderedSet κ) : List κ :=
  set.keys

def ofMembers [Std.TransOrd κ] (members : List κ) : OrderedSet κ :=
  members.foldl OrderedSet.add OrderedMap.empty

end OrderedSet

end Rollup

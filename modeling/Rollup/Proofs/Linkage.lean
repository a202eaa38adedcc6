/-
Ways from a directory to the root.

A directory can be refreshed up to the root when each directory on that way is there
and is listed by its parent.  Storing a file connects its directory with the nearest
one that is there and leaves the way above that one as it is.  A snapshot may hold a
directory without those above it; no snapshot of a well-formed tree does.
-/

import Rollup.Proofs.Creation
import Rollup.Proofs.SnapshotFormat

namespace Rollup

namespace Directories

/-- The directory is there and, unless it is the root, its parent lists it. -/
structure Linked (directories : Directories) (path : Path) : Prop where
  present : path ∈ directories
  listed : ∀ above, path.parent = .ok above →
    ∃ node name, directories.get? above = some node ∧ path.name? = some name ∧ name ∈ node.subdirs

/-- The directory and all directories above it are linked. -/
def Connected (directories : Directories) (path : Path) : Prop :=
  ∀ upper ∈ path.chain, directories.Linked upper

variable {directories before after : Directories} {path : Path}

theorem Linked.congr (linked : before.Linked path) (present : path ∈ before → path ∈ after)
    (same : ∀ above, path.parent = .ok above → after.get? above = before.get? above) :
    after.Linked path where
  present := present linked.present
  listed := by
    intro above step
    rw [same above step]
    exact linked.listed above step

theorem WellFormed.connected (wellFormed : directories.WellFormed) (member : path ∈ directories) :
    directories.Connected path := by
  intro upper inChain
  have present := wellFormed.ancestors member inChain
  refine ⟨present, fun above step => ?_⟩
  obtain ⟨notRoot, same⟩ := Path.parent_eq_ok_iff.mp step
  obtain ⟨name, named, joined⟩ := (wellFormed.valid upper present).join_name notRoot
  obtain ⟨node, found⟩ := OrderedMap.mem_iff_get?.mp (wellFormed.parents upper present above step)
  rw [same] at joined
  exact ⟨node, name, found, named,
    (wellFormed.listed above node found name).mpr ⟨upper, present, joined⟩⟩

namespace Stored

variable {directory nearest : Path} {name : String} {record : FileRecord} {created : List Path}

theorem linked_of_created (stored : before.Stored directory name record created nearest after)
    (member : path ∈ created) : after.Linked path := by
  obtain ⟨above, split⟩ := stored.way
  obtain ⟨_, found, _⟩ := stored.fresh path member
  refine ⟨OrderedMap.mem_of_get? found, fun parent step => ?_⟩
  obtain ⟨segment, named⟩ := Path.exists_name? (Path.parent_eq_ok_iff.mp step).1
  rcases next_of_parent split member step with ⟨lower, upper, next⟩ | ⟨same, lower, topmost⟩
  · have parentCreated : parent ∈ created := by
      rw [next]
      exact List.mem_append_right lower (List.mem_cons_of_mem path List.mem_cons_self)
    obtain ⟨node, parentFound, _, _, listed⟩ := stored.fresh parent parentCreated
    exact ⟨node, segment, parentFound, named, (listed segment).mpr ⟨lower, path, upper, next, named⟩⟩
  · obtain ⟨_, node, _, nearestFound, _, _, listed⟩ := stored.extended
    rw [same]
    exact ⟨node, segment, nearestFound, named,
      (listed segment).mpr (Or.inr ⟨lower, path, topmost, named⟩)⟩

/-- From the nearest directory upwards nothing is created. -/
theorem not_created_of_mem_chain (stored : before.Stored directory name record created nearest after)
    (inChain : path ∈ nearest.chain) : path ∉ created := by
  obtain ⟨above, split⟩ := stored.way
  intro member
  have distinct := directory.nodup_chain
  rw [split, List.nodup_append] at distinct
  rw [Path.chain_of_append split.symm] at inChain
  exact distinct.2.2 path member path inChain rfl

theorem linked_iff (stored : before.Stored directory name record created nearest after)
    (inChain : path ∈ nearest.chain) : after.Linked path ↔ before.Linked path := by
  have sameAbove : ∀ above, path.parent = .ok above → after.get? above = before.get? above := by
    intro above step
    have strictly := (Path.IsAncestorOf.of_parent step).of_mem_chain inChain
    apply stored.elsewhere above (stored.not_created_of_mem_chain strictly.mem_chain)
    intro same
    rw [same] at strictly
    exact nearest.not_isAncestorOf_self strictly
  have sameMember : path ∈ after ↔ path ∈ before := by
    by_cases isNearest : path = nearest
    · obtain ⟨_, _, _, found, _⟩ := stored.extended
      rw [isNearest]
      exact iff_of_true (OrderedMap.mem_of_get? found) stored.present
    · have same := stored.elsewhere path (stored.not_created_of_mem_chain inChain) isNearest
      rw [OrderedMap.mem_iff_get?, same, ← OrderedMap.mem_iff_get?]
  constructor
  · intro linked
    exact linked.congr sameMember.mp fun above step => (sameAbove above step).symm
  · intro linked
    exact linked.congr sameMember.mpr sameAbove

theorem connected_iff (stored : before.Stored directory name record created nearest after) :
    after.Connected directory ↔ before.Connected nearest := by
  obtain ⟨above, split⟩ := stored.way
  have ownChain := Path.chain_of_append split.symm
  constructor
  · intro connected upper inChain
    apply (stored.linked_iff inChain).mp
    apply connected upper
    rw [split, ← ownChain]
    exact List.mem_append_right created inChain
  · intro connected upper inChain
    rw [split, ← ownChain] at inChain
    rcases List.mem_append.mp inChain with isCreated | isOld
    · exact stored.linked_of_created isCreated
    · exact (stored.linked_iff isOld).mpr (connected upper isOld)

end Stored

end Directories

theorem Tree.exists_stored_of_upsertFile {tree updated : Tree} {file : String} {record : FileRecord}
    {directory : Path} (stored : (tree.upsertFile file record).value = .ok (directory, updated)) :
    ∃ name created nearest,
      tree.directories.Stored directory name record created nearest updated.directories := by
  have performed : Workspace.Performed tree (.upsert file record) directory updated :=
    Workspace.performed_of_ok stored
  obtain ⟨name, placed, _⟩ := Mutation.answer_eq_ok_iff.mp performed.answer
  obtain ⟨nearest, effect⟩ := Directories.exists_stored tree.root_mem placed performed.mutated
  exact ⟨name, _, nearest, effect⟩

namespace Snapshot

/-- A file stored in a decoded tree has its directory connected with the nearest one
that the snapshot had: what lies between is created and linked.  From there to the root
everything is linked as it was before, so the whole way is connected exactly when the
snapshot had its upper part connected.  That is so for every snapshot of a well-formed
tree. -/
theorem decoded_upsert_connects_up_to_nearest {payload : Bytes} {tree updated : Tree}
    {file : String} {record : FileRecord} {directory : Path}
    (decoded : decode payload = .ok tree)
    (stored : (tree.upsertFile file record).value = .ok (directory, updated)) :
    (∃ created nearest above,
      directory.chain = created ++ nearest :: above ∧ nearest ∈ tree.directories ∧
      (∀ path ∈ created, path ∉ tree.directories ∧ updated.directories.Linked path) ∧
      (∀ path ∈ nearest :: above,
        updated.directories.Linked path ↔ tree.directories.Linked path) ∧
      (updated.directories.Connected directory ↔ tree.directories.Connected nearest)) ∧
    ∀ original : Tree, original.directories.WellFormed → payload = Snapshot.payload original →
      payload.length < 2 ^ 64 → updated.directories.Connected directory := by
  obtain ⟨name, created, nearest, effect⟩ := Tree.exists_stored_of_upsertFile stored
  obtain ⟨above, split⟩ := effect.way
  have ownChain := Path.chain_of_append split.symm
  constructor
  · refine ⟨created, nearest, above, split, effect.present, ?_, ?_, effect.connected_iff⟩
    · exact fun path member => ⟨effect.absent path member, effect.linked_of_created member⟩
    · rw [← ownChain]
      exact fun path inChain => effect.linked_iff inChain
  · intro original wellFormed same fits
    rw [same] at decoded fits
    rw [decode_payload fits] at decoded
    cases decoded
    exact effect.connected_iff.mpr (wellFormed.connected effect.present)

theorem decoded_upsert_connects_up_to_nearest_gapped :
    let snapshot := Snapshot.mk currentVersion [(⟨"a/b"⟩, Directory.empty)]
    ∃ tree updated, decode snapshot.encode = .ok tree ∧
      (tree.upsertFile "a/b/c/f" ⟨1, Binary64.zero, Binary64.one⟩).value =
        .ok (⟨"a/b/c"⟩, updated) ∧
      ⟨"a/b/c"⟩ ∉ tree.directories ∧ updated.directories.Linked ⟨"a/b/c"⟩ := by
  intro snapshot
  have fits : snapshot.encode.length < 2 ^ 64 := by decide +kernel
  have decoded : decode snapshot.encode = .ok snapshot.toTree := decode_encode rfl fits
  have placed : Path.splitFile "a/b/c/f" = .ok (⟨"a/b/c"⟩, "f") := by decide
  have stored := (Workspace.performed_upsert placed ⟨1, Binary64.zero, Binary64.one⟩ :
    Workspace.Performed snapshot.toTree _ _ _).value
  have absent : ⟨"a/b/c"⟩ ∉ snapshot.toTree.directories := by decide
  obtain ⟨⟨created, nearest, above, split, present, between, _⟩, _⟩ :=
    decoded_upsert_connects_up_to_nearest decoded stored
  refine ⟨_, _, decoded, stored, absent, ?_⟩
  rcases Directories.mem_created_or_eq_nearest split with member | same
  · exact (between _ member).2
  · rw [← same] at present
    exact absurd present absent

/-- The snapshot has a directory two levels below the root and none between.  A file
stored in that directory does not bring the missing one. -/
theorem decoded_upsert_leaves_gap :
    let snapshot := Snapshot.mk currentVersion [(⟨"a/b"⟩, Directory.empty)]
    ∃ tree updated, decode snapshot.encode = .ok tree ∧
      (tree.upsertFile "a/b/f" ⟨1, Binary64.zero, Binary64.one⟩).value =
        .ok (⟨"a/b"⟩, updated) ∧
      Path.IsAncestorOf ⟨"a"⟩ ⟨"a/b"⟩ ∧ ⟨"a"⟩ ∉ updated.directories ∧
      ¬updated.directories.Connected ⟨"a/b"⟩ := by
  intro snapshot
  have fits : snapshot.encode.length < 2 ^ 64 := by decide +kernel
  have decoded : decode snapshot.encode = .ok snapshot.toTree := decode_encode rfl fits
  have placed : Path.splitFile "a/b/f" = .ok (⟨"a/b"⟩, "f") := by decide
  have stored := (Workspace.performed_upsert placed ⟨1, Binary64.zero, Binary64.one⟩ :
    Workspace.Performed snapshot.toTree _ _ _).value
  have isAbove : Path.IsAncestorOf ⟨"a"⟩ ⟨"a/b"⟩ := by decide
  have absent : ⟨"a"⟩ ∉ ((snapshot.toTree.ensure ⟨"a/b"⟩).modify ⟨"a/b"⟩ fun node =>
      node.putFile "f" ⟨1, Binary64.zero, Binary64.one⟩).directories := by decide
  refine ⟨_, _, decoded, stored, isAbove, absent, ?_⟩
  exact fun connected => absent (connected ⟨"a"⟩ isAbove.mem_chain).present

end Snapshot
end Rollup

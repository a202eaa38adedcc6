/-
Snapshots read back.

Every part of a snapshot is taken back from its bytes, and so is the whole.  The
tree that is made of it has the last directory listed under each text, and the
root in any case.  In which order a tree lists its directories is of no
consequence: it is read back bit for bit, as a tree that made no recomputation
yet.
-/

import Rollup.SnapshotFile
import Rollup.Proofs.Membership
import Rollup.Proofs.RawFrames
import Rollup.Proofs.WireFormat

namespace Rollup

open Wire

namespace Tree

theorem get?_ofDirectories (directories : Directories) (path : Path) :
    (ofDirectories directories).directories.get? path =
      (directories.get? path).or (if path = Path.root then some Directory.empty else none) := by
  unfold ofDirectories
  split
  · rename_i rootPresent
    by_cases atRoot : path = Path.root
    · obtain ⟨node, found⟩ := OrderedMap.mem_iff_get?.mp rootPresent
      rw [atRoot, found, Option.some_or]
    · rw [if_neg atRoot, Option.or_none]
  · rename_i rootAbsent
    rw [OrderedMap.get?_insert]
    by_cases atRoot : path = Path.root
    · have absent : directories.get? Path.root = none := OrderedMap.not_mem_iff_get?.mp rootAbsent
      rw [atRoot, if_pos rfl, if_pos rfl, absent, Option.none_or]
    · rw [if_neg atRoot, if_neg atRoot, Option.or_none]

theorem recomputations_ofDirectories (directories : Directories) :
    (ofDirectories directories).recomputations = 0 := by
  unfold ofDirectories
  split <;> rfl

/-- The directories of a tree make the same tree again, without its history. -/
theorem ofDirectories_directories (tree : Tree) :
    ofDirectories tree.directories = { tree with recomputations := 0 } := by
  unfold ofDirectories
  rw [dif_pos tree.hasRoot]

end Tree

namespace Snapshot

/-! ### The parts of a snapshot -/

theorem length_encodeFile_pos (entry : String × FileRecord) : 0 < (encodeFile entry).length := by
  have positive := length_text_pos entry.1
  simp only [encodeFile, List.length_append]
  omega

theorem length_encodeEntry_pos (entry : Path × Directory) : 0 < (encodeEntry entry).length := by
  have positive := length_text_pos entry.1.text
  rw [encodeEntry, List.length_append]
  omega

theorem takes_readFile {entry : String × FileRecord}
    (fits : (encodeFile entry).length < 2 ^ 64) :
    readFile.Takes (encodeFile entry) entry := by
  obtain ⟨name, size, health, redundancy⟩ := entry
  simp only [encodeFile, List.append_assoc, List.length_append] at fits ⊢
  refine (takes_readText (by omega)).bind ?_
  refine (takes_readWord size).bind ?_
  refine (takes_readBinary64 health).bind ?_
  exact (takes_readBinary64 redundancy).map fun redundancy =>
    (name, FileRecord.mk size health redundancy)

theorem takes_readTotals (totals : Totals) : readTotals.Takes (encodeTotals totals) totals := by
  obtain ⟨size, files, subdirs, health, redundancy, refreshed⟩ := totals
  simp only [encodeTotals, List.append_assoc]
  refine (takes_readWord size).bind ?_
  refine (takes_readWord files).bind ?_
  refine (takes_readWord subdirs).bind ?_
  refine (takes_readBinary64 health).bind ?_
  refine (takes_readOptional fun present _ => takes_readBinary64 present).bind ?_
  exact (takes_readWord refreshed).map (Totals.mk size files subdirs health redundancy)

theorem takes_readDirectory {directory : Directory}
    (fits : (encodeDirectory directory).length < 2 ^ 64) :
    readDirectory.Takes (encodeDirectory directory) directory := by
  obtain ⟨files, subdirs, totals⟩ := directory
  simp only [encodeDirectory, List.append_assoc, List.length_append] at fits ⊢
  have filesFit : (list encodeFile files.toList).length < 2 ^ 64 := by omega
  have subdirsFit : (list text subdirs.members).length < 2 ^ 64 := by omega
  have filesTaken : (readList readFile).Takes (list encodeFile files.toList) files.toList :=
    takes_readList filesFit length_encodeFile_pos fun entry _ => takes_readFile
  have subdirsTaken : (readList readText).Takes (list text subdirs.members) subdirs.members :=
    takes_readList subdirsFit length_text_pos fun name _ => takes_readText
  refine filesTaken.bind (subdirsTaken.bind ?_)
  rw [OrderedMap.ofList_of_perm (List.Perm.refl _), OrderedSet.ofMembers_members]
  exact (takes_readTotals totals).map (Directory.mk files subdirs)

theorem takes_readEntry {entry : Path × Directory}
    (fits : (encodeEntry entry).length < 2 ^ 64) :
    readEntry.Takes (encodeEntry entry) entry := by
  obtain ⟨path, directory⟩ := entry
  rw [encodeEntry, List.length_append] at fits
  refine (takes_readText (by omega)).bind ?_
  exact (takes_readDirectory (by omega)).map (Prod.mk path)

theorem takes_read {snapshot : Snapshot} (fits : snapshot.encode.length < 2 ^ 64) :
    read.Takes snapshot.encode snapshot := by
  obtain ⟨version, directories⟩ := snapshot
  rw [encode, List.length_append] at fits
  have directoriesFit : (list encodeEntry directories).length < 2 ^ 64 := by
    dsimp only at fits
    omega
  have directoriesTaken : (readList readEntry).Takes (list encodeEntry directories) directories :=
    takes_readList directoriesFit length_encodeEntry_pos fun entry _ => takes_readEntry
  exact (takes_readHalfWord version).bind (directoriesTaken.map (Snapshot.mk version))

theorem decode_encode {snapshot : Snapshot} (current : snapshot.version = currentVersion)
    (fits : snapshot.encode.length < 2 ^ 64) : decode snapshot.encode = .ok snapshot.toTree := by
  have taken := takes_read fits []
  rw [List.append_nil] at taken
  rw [decode, taken]
  exact if_pos current

/-! ### The tree that is read back -/

theorem get?_toTree (snapshot : Snapshot) (path : Path) :
    snapshot.toTree.directories.get? path =
      (snapshot.directories.reverse.lookup path).or
        (if path = Path.root then some Directory.empty else none) := by
  rw [toTree, Tree.get?_ofDirectories, OrderedMap.get?_ofList]

theorem toTree_of_perm {snapshot : Snapshot} {tree : Tree}
    (same : snapshot.directories.Perm tree.directories.toList) :
    snapshot.toTree = { tree with recomputations := 0 } := by
  rw [toTree, OrderedMap.ofList_of_perm same, Tree.ofDirectories_directories]

theorem decode_payload {tree : Tree} (fits : (payload tree).length < 2 ^ 64) :
    decode (payload tree) = .ok { tree with recomputations := 0 } := by
  show decode (ofTree tree).encode = _
  rw [decode_encode rfl fits, toTree_of_perm (List.Perm.refl _)]

/-- What is written of a list of directories is read back, whatever the texts,
the names and the numbers: the last directory listed under a text counts, and
the root is there in any case.  Decompression is all that a stored payload needs
besides.  The listed directories of a tree give the tree again, in any order.  As
every sequence of bytes, the payload has a length below 2^64. -/
theorem decode_encode_keeps_last_listed {listed : List (Path × Directory)}
    (fits : (Snapshot.mk currentVersion listed).encode.length < 2 ^ 64) :
    let payload := (Snapshot.mk currentVersion listed).encode
    ∃ tree, decode payload = .ok tree ∧
      (∀ stored, Zstd.decompress stored = some payload →
        SnapshotFile.treeOf stored = .ok tree) ∧
      Zstd.decompress (Zstd.store payload) = some payload ∧
      (∀ path, tree.directories.get? path =
        (listed.reverse.lookup path).or
          (if path = Path.root then some Directory.empty else none)) ∧
      tree.recomputations = 0 ∧
      ∀ original : Tree, listed.Perm original.directories.toList →
        tree = { original with recomputations := 0 } := by
  intro payload
  have decoded : decode payload = .ok (Snapshot.mk currentVersion listed).toTree :=
    decode_encode rfl fits
  refine ⟨_, decoded, ?_, Zstd.decompress_store payload, get?_toTree _, ?_, ?_⟩
  · intro stored decompressed
    rw [SnapshotFile.treeOf, decompressed]
    exact decoded
  · exact Tree.recomputations_ofDirectories _
  · intro original same
    exact toTree_of_perm same

theorem decode_encode_keeps_last_listed_duplicate :
    let first := Directory.empty.putFile "é" ⟨3, Binary64.nan, Binary64.one⟩
    let last := (Directory.empty.putFile "" ⟨70000, Binary64.zero, Binary64.nan⟩).listSubdirectory ".."
    ∃ tree, decode (Snapshot.mk currentVersion [(⟨"a//b"⟩, first), (⟨"a//b"⟩, last)]).encode =
        .ok tree ∧
      tree.directories.get? ⟨"a//b"⟩ = some last ∧ Path.root ∈ tree.directories := by
  intro first last
  have fits : (Snapshot.mk currentVersion [(⟨"a//b"⟩, first), (⟨"a//b"⟩, last)]).encode.length <
      2 ^ 64 := by decide +kernel
  obtain ⟨tree, decoded, _, _, directories, _⟩ := decode_encode_keeps_last_listed fits
  exact ⟨tree, decoded, directories ⟨"a//b"⟩, tree.hasRoot⟩

end Snapshot

namespace SnapshotFile

/-- A saved tree is loaded again, if its payload is a sequence of bytes. -/
theorem treeOf_bytesOf {tree : Tree} (fits : (Snapshot.payload tree).length < 2 ^ 64) :
    treeOf (bytesOf tree) = .ok { tree with recomputations := 0 } := by
  rw [treeOf, bytesOf, Zstd.decompress_store]
  exact Snapshot.decode_payload fits

end SnapshotFile

end Rollup

/-
Payloads that say where they end.

A reader of stored values looks at nothing behind the value it takes.  So a whole
payload is read alike whatever follows it, and a payload that was cut off cannot
be read at all: had it been read, the missing bytes would have been left over
from the whole.
-/

import Rollup.Proofs.SnapshotFormat

namespace Rollup

namespace Wire

variable {α β : Type}

/-- With more bytes behind those it was given, the reader answers the same value
and leaves these too. -/
structure Reader.Local (reader : Reader α) : Prop where
  append : ∀ bytes value rest, reader bytes = some (value, rest) →
    ∀ more, reader (bytes ++ more) = some (value, rest ++ more)

namespace Reader

namespace Local

theorem pure (value : α) : (Reader.pure value).Local where
  append := by
    intro bytes read rest answered more
    cases answered
    rfl

theorem refuse : (Reader.refuse : Reader α).Local where
  append := by
    intro bytes read rest impossible more
    cases impossible

theorem bind {reader : Reader α} {next : α → Reader β} (first : reader.Local)
    (second : ∀ value, (next value).Local) : (reader >>= next).Local where
  append := by
    intro bytes result rest answered more
    change Reader.bind reader next bytes = some (result, rest) at answered
    show Reader.bind reader next (bytes ++ more) = some (result, rest ++ more)
    unfold Reader.bind at answered ⊢
    cases taken : reader bytes with
    | none =>
        rw [taken] at answered
        cases answered
    | some outcome =>
        obtain ⟨value, behind⟩ := outcome
        rw [taken] at answered
        rw [first.append bytes value behind taken more]
        exact (second value).append behind result rest answered more

end Local

/-- What a local reader takes cannot be cut short. -/
theorem Takes.refuses_short {reader : Reader α} {short missing : Bytes} {value : α}
    (taken : reader.Takes (short ++ missing) value) (isLocal : reader.Local)
    (cut : missing ≠ []) : reader short = none := by
  cases answered : reader short with
  | none => rfl
  | some outcome =>
      obtain ⟨other, rest⟩ := outcome
      have whole := isLocal.append short other rest answered missing
      have expected := taken []
      rw [List.append_nil, whole] at expected
      have leftOver : rest ++ missing = [] := congrArg Prod.snd (Option.some.inj expected)
      exact absurd (List.append_eq_nil_iff.mp leftOver).2 cut

end Reader

/-! ### Numbers -/

theorem local_readByte : readByte.Local where
  append := by
    intro bytes value rest answered more
    cases bytes with
    | nil => cases answered
    | cons byte behind =>
        cases answered
        rfl

theorem local_readBytes (count : Nat) : (readBytes count).Local where
  append := by
    intro bytes value rest answered more
    unfold readBytes at answered ⊢
    by_cases enough : count ≤ bytes.length
    · have longer : count ≤ (bytes ++ more).length := by
        rw [List.length_append]
        omega
      rw [if_pos enough, List.splitAt_eq] at answered
      cases answered
      rw [if_pos longer, List.splitAt_eq, List.take_append_of_le_length enough,
        List.drop_append_of_le_length enough]
    · rw [if_neg enough] at answered
      cases answered

theorem local_readLittleEndian (count : Nat) : (readLittleEndian count).Local := by
  induction count with
  | zero => exact Reader.Local.pure 0
  | succ count inductionHypothesis =>
      apply local_readByte.bind
      intro low
      exact inductionHypothesis.bind fun high => .pure _

theorem local_readNumber (width : Nat) : (readNumber width).Local := by
  apply local_readByte.bind
  intro marker
  split
  · exact .pure _
  · split
    · exact local_readLittleEndian 2
    · split
      · exact local_readLittleEndian 4
      · split
        · exact local_readLittleEndian 8
        · exact .refuse

theorem local_readWord : readWord.Local := (local_readNumber 8).bind fun _ => .pure _

theorem local_readHalfWord : readHalfWord.Local := (local_readNumber 4).bind fun _ => .pure _

theorem local_readBinary64 : readBinary64.Local :=
  (local_readLittleEndian 8).bind fun _ => .pure _

/-! ### Composite values -/

theorem local_readText : readText.Local := by
  apply (local_readNumber 8).bind
  intro length
  apply (local_readBytes length).bind
  intro bytes
  split
  · exact .refuse
  · exact .pure _

theorem local_readOptional {read : Reader α} (each : read.Local) : (readOptional read).Local := by
  apply local_readByte.bind
  intro present
  split
  · exact .pure _
  · split
    · exact each.bind fun _ => .pure _
    · exact .refuse

theorem local_readTimes {read : Reader α} (each : read.Local) (count : Nat) :
    (readTimes read count).Local := by
  induction count with
  | zero => exact .pure []
  | succ count inductionHypothesis =>
      apply each.bind
      intro value
      exact inductionHypothesis.bind fun _ => .pure _

theorem local_readList {read : Reader α} (each : read.Local) : (readList read).Local :=
  (local_readNumber 8).bind (local_readTimes each)

end Wire

namespace Snapshot

open Wire

/-! ### The parts of a snapshot -/

theorem local_readFile : readFile.Local :=
  local_readText.bind fun _ => local_readWord.bind fun _ => local_readBinary64.bind fun _ =>
    local_readBinary64.bind fun _ => .pure _

theorem local_readTotals : readTotals.Local :=
  local_readWord.bind fun _ => local_readWord.bind fun _ => local_readWord.bind fun _ =>
    local_readBinary64.bind fun _ => (local_readOptional local_readBinary64).bind fun _ =>
      local_readWord.bind fun _ => .pure _

theorem local_readDirectory : readDirectory.Local :=
  (local_readList local_readFile).bind fun _ => (local_readList local_readText).bind fun _ =>
    local_readTotals.bind fun _ => .pure _

theorem local_readEntry : readEntry.Local :=
  local_readText.bind fun _ => local_readDirectory.bind fun _ => .pure _

theorem local_read : read.Local :=
  local_readHalfWord.bind fun _ => (local_readList local_readEntry).bind fun _ => .pure _

/-! ### Whole payloads and cut ones -/

theorem decode_encode_append {snapshot : Snapshot} (current : snapshot.version = currentVersion)
    (fits : snapshot.encode.length < 2 ^ 64) (behind : Bytes) :
    decode (snapshot.encode ++ behind) = .ok snapshot.toTree := by
  rw [decode, takes_read fits behind]
  exact if_pos current

theorem decode_short {snapshot : Snapshot} {short missing : Bytes}
    (fits : snapshot.encode.length < 2 ^ 64) (split : short ++ missing = snapshot.encode)
    (cut : missing ≠ []) : decode short = .error .decode := by
  have taken := takes_read fits
  rw [← split] at taken
  rw [decode, taken.refuses_short local_read cut]

/-- A payload is decoded to the same tree whatever bytes follow it, and no strict
initial part of it is decoded to any tree.  This holds of the directories of a
tree, listed in any order, and of any other list; compression plays no part in it.
As every sequence of bytes, the payload has a length below 2^64. -/
theorem decode_ends_with_payload {listed : List (Path × Directory)}
    (fits : (Snapshot.mk currentVersion listed).encode.length < 2 ^ 64) :
    let payload := (Snapshot.mk currentVersion listed).encode
    ∃ tree, decode payload = .ok tree ∧
      (∀ original : Tree, listed.Perm original.directories.toList →
        tree = { original with recomputations := 0 }) ∧
      (∀ behind, decode (payload ++ behind) = .ok tree ∧
        ∀ stored, Zstd.decompress stored = some (payload ++ behind) →
          SnapshotFile.treeOf stored = .ok tree) ∧
      ∀ short missing, short ++ missing = payload → missing ≠ [] →
        decode short = .error .decode ∧
          ∀ stored, Zstd.decompress stored = some short →
            SnapshotFile.treeOf stored = .error .decode := by
  intro payload
  refine ⟨_, decode_encode rfl fits, fun original same => toTree_of_perm same, ?_, ?_⟩
  · intro behind
    have decoded := decode_encode_append rfl fits behind
    refine ⟨decoded, fun stored decompressed => ?_⟩
    rw [SnapshotFile.treeOf, decompressed]
    exact decoded
  · intro short missing split cut
    have refused := decode_short fits split cut
    refine ⟨refused, fun stored decompressed => ?_⟩
    rw [SnapshotFile.treeOf, decompressed]
    exact refused

theorem decode_ends_with_payload_nested :
    let holder := Directory.empty.putFile "é" ⟨70000, Binary64.zero, Binary64.one⟩
    let tree := Tree.ofDirectories (OrderedMap.ofList
      [(Path.root, Directory.empty.listSubdirectory "a"), (⟨"a"⟩, holder)])
    let payload := (Snapshot.mk currentVersion tree.directories.toList.reverse).encode
    decode (payload ++ [7, 251]) = .ok { tree with recomputations := 0 } ∧
      decode payload.dropLast = .error .decode := by
  intro holder tree payload
  have fits : payload.length < 2 ^ 64 := by decide +kernel
  obtain ⟨decoded, _, same, whole, short⟩ := decode_ends_with_payload fits
  rw [same tree (List.reverse_perm _)] at whole
  have nonempty : payload ≠ [] := by decide +kernel
  have cut := short payload.dropLast _ (List.dropLast_concat_getLast nonempty)
    (List.cons_ne_nil _ _)
  exact ⟨(whole [7, 251]).1, cut.1⟩

end Snapshot
end Rollup

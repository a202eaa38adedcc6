/-
Manifests that list files with their sizes.

A listing is written on one line: the names in double quotes, the sizes as decimal
numbers.  Whatever the names and numbers are, it loads as one document with an entry
for each file in the order written; where a name is written again, the entry behind
replaces the one before.
-/

import Rollup.Proofs.Braces
import Rollup.Proofs.DecimalScalars
import Rollup.Proofs.Entries

namespace Rollup.Manifest

open Yaml

/-! ### Writing -/

/-- A record of a size alone. -/
def writtenRecord (size : Nat) : List Char :=
  '{' :: ("size".toList ++ ':' :: ' ' :: ((toString size).toList ++ ['}']))

def writtenEntry (entry : String × Nat) : List Char :=
  doubleQuoted entry.1.toList ++ ':' :: ' ' :: writtenRecord entry.2

/-- Entries with a comma between them. -/
def writtenEntries : List (String × Nat) → List Char
  | [] => []
  | first :: others =>
      writtenEntry first ++ others.flatMap fun entry => ',' :: ' ' :: writtenEntry entry

/-- The key of all entries, and the brace before them. -/
def filesMark : List Char := ['f', 'i', 'l', 'e', 's', ':', ' ', '{']

/-- A manifest of files with their sizes. -/
def listing (files : List (String × Nat)) : String :=
  String.ofList (filesMark ++ (writtenEntries files ++ ['}']))

example : listing [("/a", 7)] = "files: \x7b\"/a\": \x7bsize: 7\x7d\x7d" := by decide

/-! ### Tokens -/

def recordTokens (size : Nat) : List Token :=
  [.flowMappingStart, .key, .scalar true "size", .value, .scalar true (toString size),
    .flowMappingEnd]

def entryTokens (entry : String × Nat) : List Token :=
  .key :: .scalar false entry.1 :: .value :: recordTokens entry.2

def entriesTokens : List (String × Nat) → List Token
  | [] => []
  | first :: others =>
      entryTokens first ++ others.flatMap fun entry => .flowEntry :: entryTokens entry

/-- The tokens before the entries, the last one first. -/
def filesTokens : List Token :=
  [.flowMappingStart, .value, .scalar true "files", .key, .blockMappingStart]

def listingTokens (files : List (String × Nat)) : List Token :=
  filesTokens.reverse ++ (entriesTokens files ++ [.flowMappingEnd, .blockEnd, .streamEnd])

section

open Lexer

variable {depth : Nat} {after : List Char}

theorem toList_toString (size : Nat) : (toString size).toList = Nat.toDigits 10 size := by
  rw [Nat.toString_eq_ofList_toDigits, String.toList_ofList]

theorem isAlphanum_toString {size : Nat} {char : Char} (member : char ∈ (toString size).toList) :
    char.isAlphanum = true := by
  rw [toList_toString] at member
  have isDigit := Nat.isDigit_of_mem_toDigits (by decide) (by decide) member
  rw [Char.isAlphanum, isDigit, Bool.or_true]

theorem goes_record (size : Nat) (shallow : depth + 1 < maxFlowDepth)
    (visible : beginsVisible after = true) (older : List Token) :
    Goes (At depth none older false (writtenRecord size ++ after))
      (At depth none ((recordTokens size).reverse ++ older) false after) := by
  have asWritten : writtenRecord size ++ after =
      '{' :: ("size".toList ++ ':' :: ' ' :: ((toString size).toList ++ '}' :: after)) := by
    simp [writtenRecord]
  have nonempty : (toString size).toList ≠ [] := by
    rw [toList_toString]
    exact Nat.toDigits_ne_nil
  have letters : ∀ char ∈ "size".toList, char.isAlphanum = true := List.all_eq_true.mp (by decide)
  rw [asWritten]
  refine (goes_open rfl shallow older).trans ?_
  refine (goes_word letters (by decide) (.colon _) _).trans ?_
  refine (goes_colon _ _).trans ?_
  refine (goes_word (fun _ => isAlphanum_toString) nonempty (.brace _) _).trans ?_
  exact goes_close visible _

theorem goes_entry (entry : String × Nat) (shallow : depth + 1 < maxFlowDepth)
    (visible : beginsVisible after = true) (older : List Token) :
    Goes (At depth none older true (writtenEntry entry ++ after))
      (At depth none ((entryTokens entry).reverse ++ older) false after) := by
  have asWritten : writtenEntry entry ++ after =
      doubleQuoted entry.1.toList ++ ':' :: ' ' :: (writtenRecord entry.2 ++ after) := by
    simp [writtenEntry]
  have asTokens : (entryTokens entry).reverse ++ older =
      (recordTokens entry.2).reverse ++ .value :: .scalar false entry.1 :: .key :: older := by
    simp [entryTokens]
  rw [asWritten, asTokens]
  refine (goes_quoted _ older).trans ?_
  refine (goes_colon _ _).trans ?_
  exact goes_record entry.2 shallow visible _

theorem goes_others (others : List (String × Nat)) (shallow : depth + 1 < maxFlowDepth)
    (visible : beginsVisible after = true) (older : List Token) :
    Goes
      (At depth none older false
        (others.flatMap (fun entry => ',' :: ' ' :: writtenEntry entry) ++ after))
      (At depth none
        ((others.flatMap fun entry => .flowEntry :: entryTokens entry).reverse ++ older) false
        after) := by
  induction others generalizing older with
  | nil => exact fun lexer isAt => ⟨lexer, .refl, isAt⟩
  | cons entry rest inductionHypothesis =>
      have asTokens : ((entry :: rest).flatMap fun entry => .flowEntry :: entryTokens entry).reverse
          ++ older = (rest.flatMap fun entry => .flowEntry :: entryTokens entry).reverse ++
            ((entryTokens entry).reverse ++ .flowEntry :: older) := by
        simp
      have begins : beginsVisible (rest.flatMap (fun entry => ',' :: ' ' :: writtenEntry entry) ++
          after) = true := by
        cases rest
        · exact visible
        · rfl
      rw [asTokens, List.flatMap_cons, List.append_assoc]
      refine (goes_comma rfl older).trans ?_
      refine (goes_entry entry shallow begins _).trans ?_
      exact inductionHypothesis _

theorem goes_entries (files : List (String × Nat)) (older : List Token) :
    Goes (At 0 none older true (writtenEntries files ++ ['}']))
      (Ended (.flowMappingEnd :: ((entriesTokens files).reverse ++ older))) := by
  cases files with
  | nil => exact goes_close_last older
  | cons first others =>
      have shallow : 0 + 1 < maxFlowDepth := by decide
      have begins : beginsVisible (others.flatMap (fun entry => ',' :: ' ' :: writtenEntry entry) ++
          ['}']) = true := by
        cases others <;> rfl
      rw [writtenEntries, entriesTokens, List.append_assoc, List.reverse_append, List.append_assoc]
      refine (goes_entry first shallow begins older).trans ?_
      refine (goes_others others shallow rfl _).trans ?_
      exact goes_close_last _

/-- The lexer behind the word at the margin, which may be a key. -/
def behindWord (rest : Spots) : Lexer :=
  outside []
    (some (keyFrom { char := 'f', index := 0, line := 1, column := 0, fresh := true } 0))
    [.scalar true "files"] false 0 rest

/-- The lexer behind the colon, which made the word a key and opened a block. -/
def behindColon (rest : Spots) : Lexer :=
  outside (levelsBelowKey false) none filesTokens.tail false 0 rest

theorem goes_files (text : List Char) (visible : beginsVisible text = true) :
    Goes (· = { start [] with rest := locate 0 1 0 true (filesMark ++ text) })
      (At 0 none filesTokens true text) := by
  rintro _ rfl
  -- up to the brace all characters are known, so these steps compute
  have word : Leads { start [] with rest := locate 0 1 0 true (filesMark ++ text) }
      (behindWord (onLine 5 (':' :: ' ' :: '{' :: text))) :=
    ⟨⟨_, rfl, rfl, rfl⟩, Nat.lt_add_of_pos_right (k := 5) (Nat.succ_pos 4)⟩
  have colon : Leads (behindWord (onLine 5 (':' :: ' ' :: '{' :: text)))
      (behindColon (onLine 6 (' ' :: '{' :: text))) :=
    ⟨⟨_, rfl, rfl, rfl⟩, Nat.lt_succ_self _⟩
  have opens : (behindColon (onLine 7 ('{' :: text))).openFlow true = _ :=
    openFlow_eq rfl (Nat.succ_pos 254) (finishLine_onLine visible 8)
  have brace : Leads (behindColon (onLine 6 (' ' :: '{' :: text)))
      (inBraces 0 false none filesTokens true 0 (onLine 8 text)) :=
    ⟨⟨behindColon (onLine 7 ('{' :: text)), rfl, rfl, opens⟩,
      Nat.lt_succ_of_lt (Nat.lt_succ_self _)⟩
  exact ⟨_, .head word (.head colon (.single brace)), At.text false (here []) 0 7⟩

end

theorem all_isInline_writtenEntry (entry : String × Nat) :
    (writtenEntry entry).all isInline = true := by
  have quoted : (doubleQuoted entry.1.toList).all isInline = true :=
    List.all_eq_true.mpr fun _ => isInline_doubleQuoted
  have digits : (toString entry.2).toList.all isInline = true :=
    List.all_eq_true.mpr fun _ member => isInline_alphanum (isAlphanum_toString member)
  have size : "size".toList.all isInline = true := by decide
  rw [writtenEntry, writtenRecord, List.all_append, quoted, List.all_cons, List.all_cons,
    List.all_cons, List.all_append, size, List.all_cons, List.all_cons, List.all_append, digits]
  rfl

theorem all_isInline_writtenEntries (files : List (String × Nat)) :
    (writtenEntries files).all isInline = true := by
  cases files with
  | nil => rfl
  | cons first others =>
      rw [writtenEntries, List.all_append, all_isInline_writtenEntry, Bool.true_and,
        List.all_flatMap]
      refine List.all_eq_true.mpr fun entry _ => ?_
      exact all_isInline_writtenEntry entry

/-- The whole listing is on the first line. -/
theorem start_listing (files : List (String × Nat)) :
    Lexer.start (listing files).toList =
      { Lexer.start [] with
        rest := locate 0 1 0 true (filesMark ++ (writtenEntries files ++ ['}'])) } := by
  have inline : (filesMark ++ (writtenEntries files ++ ['}'])).all isInline = true := by
    rw [List.all_append, List.all_append, all_isInline_writtenEntries]
    rfl
  have noEnd : ∀ char ∈ filesMark ++ (writtenEntries files ++ ['}']), (char != endMark) = true := by
    intro char member
    have inlineChar := List.all_eq_true.mp inline char member
    simp only [isInline, Bool.and_eq_true] at inlineChar
    exact inlineChar.2
  rw [listing, String.toList_ofList, Lexer.start, spotsOf, List.takeWhile_eq_self_iff.mpr noEnd]
  rfl

theorem tokensOf_listing (files : List (String × Nat)) :
    tokensOf (listing files).toList = some (listingTokens files) := by
  have begins : beginsVisible (writtenEntries files ++ ['}']) = true := by
    cases files <;> rfl
  obtain ⟨last, leads, ended⟩ :=
    (goes_files _ begins).trans (goes_entries files filesTokens) _ (start_listing files)
  obtain ⟨left, enough, runs⟩ := Lexer.run_of_leads leads (Nat.le_refl _)
  have positive : 0 < last.rest.length := by
    cases ended
    exact Nat.succ_pos 0
  obtain ⟨fewer, rfl⟩ := Nat.exists_eq_succ_of_ne_zero (n := left) (by omega)
  rw [tokensOf, runs, Lexer.run_of_ended ended]
  simp [listingTokens]

/-! ### Nodes -/

theorem guess_size : Scalar.guess "size" = .text "size" := by decide

theorem guess_files : Scalar.guess "files" = .text "files" := by decide

def recordFields (size : Nat) : List (Node × Node) :=
  [(.scalar (.text "size"), .scalar (Scalar.guess (toString size)))]

def entryNodes (entry : String × Nat) : Node × Node :=
  (.scalar (.text entry.1), .mapping (recordFields entry.2))

def childNodes (files : List (String × Nat)) : List Node :=
  files.flatMap fun entry => [(entryNodes entry).1, (entryNodes entry).2]

section

variable {reading after : Reading} {rest tokens : List Token} {children : List Node} {fuel : Nat}

theorem readFlowKey_entry (entry : String × Nat) (fuel : Nat) :
    readFlowKey (fuel + 12) { reading with ahead := entryTokens entry ++ rest } =
      (readFlowMapping false (fuel + 10) { reading with ahead := rest }).map
        fun (children, after) =>
          ((entryNodes entry).1 :: (entryNodes entry).2 :: children, after) := by
  -- the kinds and the number of the tokens are known, so both sides compute
  rw [entryNodes, recordFields, ← guess_size]
  rfl

theorem readFlowMapping_others (others : List (String × Nat))
    (enough : 3 * others.length + 12 ≤ fuel) :
    readFlowMapping false fuel
      { reading with
        ahead := (others.flatMap fun entry => .flowEntry :: entryTokens entry) ++
          .flowMappingEnd :: rest } =
      some (childNodes others, { reading with ahead := rest }) := by
  induction others generalizing fuel with
  | nil =>
      obtain ⟨fewer, rfl⟩ := Nat.exists_eq_add_of_le' enough
      rfl
  | cons entry others inductionHypothesis =>
      rw [List.length_cons] at enough
      obtain ⟨fewer, rfl⟩ := Nat.exists_eq_add_of_le' (m := 13) (n := fuel) (by omega)
      rw [List.flatMap_cons, List.append_assoc]
      refine (readFlowKey_entry entry fewer).trans ?_
      rw [inductionHypothesis (by omega)]
      rfl

theorem readFlowMapping_entries (reading : Reading) (rest : List Token)
    (files : List (String × Nat)) (enough : 3 * files.length + 13 ≤ fuel) :
    readFlowMapping true fuel
      { reading with ahead := entriesTokens files ++ .flowMappingEnd :: rest } =
      some (childNodes files, { reading with ahead := rest }) := by
  cases files with
  | nil =>
      obtain ⟨fewer, rfl⟩ := Nat.exists_eq_add_of_le' enough
      rfl
  | cons first others =>
      rw [List.length_cons] at enough
      obtain ⟨fewer, rfl⟩ := Nat.exists_eq_add_of_le' (m := 13) (n := fuel) (by omega)
      rw [entriesTokens, List.append_assoc]
      refine (readFlowKey_entry first fewer).trans ?_
      rw [readFlowMapping_others others (by omega)]
      rfl

theorem readNode_of_flowMapping (inBlock mayHang : Bool)
    (found : readFlowMapping true fuel { reading with ahead := tokens } = some (children, after)) :
    readNode inBlock mayHang (fuel + 2) { reading with ahead := .flowMappingStart :: tokens } =
      some (.ofChildren children, after) := by
  simp [readNode, readContent, Reading.next?, Reading.takeProperties, Reading.skip, found,
    applyTag, Reading.closeAnchor]

theorem readNode_of_blockMapping (mayHang : Bool)
    (found : readBlockMapping fuel { reading with ahead := tokens } = some (children, after)) :
    readNode true mayHang (fuel + 2) { reading with ahead := .blockMappingStart :: tokens } =
      some (.ofChildren children, after) := by
  simp [readNode, readContent, Reading.next?, Reading.takeProperties, Reading.skip, found,
    applyTag, Reading.closeAnchor]

/-- The value of the key at the margin is the only part of the document. -/
theorem readNode_files
    (found : readFlowMapping true fuel { reading with ahead := tokens } =
      some (children, { reading with ahead := .blockEnd :: rest })) :
    readNode true false (fuel + 7) { reading with ahead := filesTokens.reverse ++ tokens } =
      some (.mapping [(.scalar (.text "files"), .ofChildren children)],
        { reading with ahead := rest }) := by
  have braces := readNode_of_flowMapping true true found
  have value : readBlockValue (.scalar (Scalar.guess "files")) (fuel + 4)
      { reading with ahead := .value :: .flowMappingStart :: tokens } =
        some ([.scalar (Scalar.guess "files"), .ofChildren children],
          { reading with ahead := rest }) := by
    simp [readBlockValue, readPart, Reading.nextIsOneOf, Reading.next?, Reading.skip, braces,
      readBlockMapping]
  have mapping : readBlockMapping (fuel + 5)
      { reading with ahead := filesTokens.reverse.tail ++ tokens } =
        some ([.scalar (Scalar.guess "files"), .ofChildren children],
          { reading with ahead := rest }) := value
  rw [← guess_files]
  exact readNode_of_blockMapping false mapping

end

theorem documentsOf_of_readNode {tokens : List Token} {node : Node}
    (reads : readNode true false (stepsFor (.start (.blockMappingStart :: tokens)))
      (.start (.blockMappingStart :: tokens)) = some (node, .start [.streamEnd])) :
    documentsOf (.blockMappingStart :: tokens) = some [node] := by
  have next : readDocument true (.start (.blockMappingStart :: tokens)) =
      some (node, .start [.streamEnd]) := reads
  have skips : skipEnds (.start (.blockMappingStart :: tokens)) =
      .start (.blockMappingStart :: tokens) := rfl
  rw [documentsOf, readDocuments, skips, if_neg (by simp [Reading.next?, Reading.start]), next]
  rfl

theorem length_le_entriesTokens (files : List (String × Nat)) :
    files.length ≤ (entriesTokens files).length := by
  cases files with
  | nil => exact Nat.le_refl 0
  | cons first others =>
      have others : (others.flatMap fun entry => .flowEntry :: entryTokens entry).length =
          10 * others.length := by
        simp [entryTokens, recordTokens, List.length_flatMap, Nat.mul_comm]
      rw [entriesTokens, List.length_append, others, List.length_cons]
      simp only [entryTokens, recordTokens, List.length_cons]
      omega

theorem documents_listing (files : List (String × Nat)) :
    documents (listing files) =
      some [.mapping [(.scalar (.text "files"), .ofChildren (childNodes files))]] := by
  have length := length_le_entriesTokens files
  have steps : (stepsFor (.start (listingTokens files))) =
      (4 * (entriesTokens files).length + 33) + 7 := by
    simp [stepsFor, Reading.start, listingTokens, filesTokens]
    omega
  have enough : 3 * files.length + 13 ≤ 4 * (entriesTokens files).length + 33 := by omega
  have found := readFlowMapping_entries (.start []) [.blockEnd, .streamEnd] files enough
  have reads := readNode_files found
  rw [← steps] at reads
  rw [documents, tokensOf_listing]
  exact documentsOf_of_readNode reads

/-! ### Entries -/

theorem foldl_addChild_childNodes (done files : List (String × Nat))
    (distinct : ((done ++ files).map Prod.fst).Nodup) :
    (childNodes files).foldl Node.addChild (done.map entryNodes, none) =
      ((done ++ files).map entryNodes, none) := by
  induction files generalizing done with
  | nil => rw [List.append_nil]; rfl
  | cons entry rest inductionHypothesis =>
      have split : done ++ entry :: rest = (done ++ [entry]) ++ rest := by simp
      have put : Node.putEntry (done.map entryNodes) (entryNodes entry).1 (entryNodes entry).2 =
          (done ++ [entry]).map entryNodes := by
        have others : (done.map entryNodes).filter
            (fun other => !other.1.same (entryNodes entry).1) = done.map entryNodes := by
          refine List.filter_eq_self.mpr fun other member => ?_
          obtain ⟨earlier, isEarlier, rfl⟩ := List.mem_map.mp member
          have different : earlier.1 ≠ entry.1 := by
            rw [List.map_append, List.nodup_append] at distinct
            exact distinct.2.2 _ (List.mem_map_of_mem isEarlier) _ List.mem_cons_self
          simpa [entryNodes, Node.same, Scalar.same] using different
        rw [Node.putEntry, others, List.map_append]
        rfl
      rw [split] at distinct ⊢
      rw [← inductionHypothesis (done ++ [entry]) distinct, ← put]
      rfl

theorem ofChildren_childNodes {files : List (String × Nat)}
    (distinct : (files.map Prod.fst).Nodup) :
    Node.ofChildren (childNodes files) = .mapping (files.map entryNodes) := by
  have folded := foldl_addChild_childNodes [] files distinct
  exact congrArg (fun state => Node.mapping state.1) folded

/-- A listing loads as one document, with the files in the order written. -/
theorem documents_listing_of_nodup {files : List (String × Nat)}
    (distinct : (files.map Prod.fst).Nodup) :
    documents (listing files) =
      some [.mapping [(.scalar (.text "files"), .mapping (files.map entryNodes))]] := by
  rw [documents_listing, ofChildren_childNodes distinct]

end Rollup.Manifest

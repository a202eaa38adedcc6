/-
Manifests: batches of mutations written as a document.

The top level maps `files` to a mapping from file paths to their records, and
`removed` to a sequence of file paths.  An entry of the wrong shape is passed
over with a notice, a record with a field of the wrong kind without one.
-/

import Rollup.Ingest
import Rollup.Wire
import Rollup.Yaml.Lexer
import Rollup.Yaml.Document

namespace Rollup

namespace Manifest

open Yaml

/-! ### Records -/

/-- The size in a record; without one it is zero. -/
def readSize (fields : List (Node × Node)) : Option UInt64 :=
  match Node.lookup fields "size" with
  | none => some 0
  | some node =>
      match node.asInteger with
      | some (.ofNat size) => some (UInt64.ofNat size)
      | _ => none

/-- A number in a record, with the value that counts when it is left out. -/
def readNumber (fields : List (Node × Node)) (name : String) (default : Binary64) :
    Option Binary64 :=
  match Node.lookup fields name with
  | none => some default
  | some node => node.asNumber

/-- The record of a file, unless a field is of the wrong kind. -/
def readRecord (fields : List (Node × Node)) : Option FileRecord := do
  let size ← readSize fields
  let health ← readNumber fields "health" Binary64.zero
  let redundancy ← readNumber fields "redundancy" Binary64.one
  return { size := size, health := health, redundancy := redundancy }

/-! ### Sections -/

def readFileEntry (entry : Node × Node) : Logged (Option Mutation) :=
  match entry.1.asText, entry.2.asMapping with
  | some file, some fields => pure ((readRecord fields).map (.upsert file))
  | _, _ => do
      Logged.note (.fileEntrySkipped entry.1.describe)
      pure none

def readRemovedItem (item : Node) : Logged (Option Mutation) :=
  match item.asText with
  | some file => pure (some (.remove file))
  | none => do
      Logged.note (.removedEntrySkipped item.describe)
      pure none

/-- The mutations of all elements of a section, in their order. -/
def readSection {α : Type} (read : α → Logged (Option Mutation)) :
    List α → Logged (List Mutation)
  | [] => pure []
  | element :: rest => do
      let mutation ← read element
      let others ← readSection read rest
      pure (mutation.toList ++ others)

def readFiles (top : List (Node × Node)) : Logged (Except ManifestError (List Mutation)) :=
  match Node.lookup top "files" with
  | none => pure (.ok [])
  | some node =>
      match node.asMapping with
      | none => pure (.error .filesNotMapping)
      | some entries => do
          let mutations ← readSection readFileEntry entries
          pure (.ok mutations)

def readRemoved (top : List (Node × Node)) : Logged (Except ManifestError (List Mutation)) :=
  match Node.lookup top "removed" with
  | none => pure (.ok [])
  | some node =>
      match node.asSequence with
      | none => pure (.error .removedNotSequence)
      | some items => do
          let mutations ← readSection readRemovedItem items
          pure (.ok mutations)

/-! ### Documents -/

/-- The mutations in a document: first those of the files, then the removals. -/
def ofNode (document : Node) : Logged (Except ManifestError (List Mutation)) :=
  match document.asMapping with
  | none => pure (.error .topLevelNotMapping)
  | some top => do
      let files ← readFiles top
      match files with
      | .error error => pure (.error error)
      | .ok upserts => do
          let removed ← readRemoved top
          match removed with
          | .error error => pure (.error error)
          | .ok removals => do
              let mutations := upserts ++ removals
              Logged.note (.manifestParsed mutations.length)
              pure (.ok mutations)

/-- The documents of a text, if all of it is well formed. -/
def documents (text : String) : Option (List Node) :=
  (tokensOf text.toList).bind documentsOf

/-- The mutations in a text, of which only the first document counts. -/
def parse (text : String) : Logged (Except ManifestError (List Mutation)) :=
  match documents text with
  | none => pure (.error .invalidYaml)
  | some [] => pure (.error .noDocument)
  | some (document :: _) => ofNode document

def ofBytes (file : String) (bytes : Bytes) : Logged (Except ManifestError (List Mutation)) :=
  match String.fromUTF8? (ByteArray.mk bytes.toArray) with
  | none => pure (.error (.notUtf8 file))
  | some text => parse text

end Manifest

end Rollup

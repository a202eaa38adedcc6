/-
Statistics of files and of directory subtrees.

A directory's totals are computed from its own files and from the totals
stored for its immediate subdirectories.  Sums are 64-bit words and wrap.
Health counts upwards from zero, the healthy end; redundancy has no value
while there is no file.
-/

import Rollup.Binary64

namespace Rollup

structure FileRecord where
  size : UInt64
  health : Binary64
  redundancy : Binary64
  deriving DecidableEq

/-- The totals of a directory and everything below it. -/
structure Totals where
  size : UInt64
  files : UInt64
  subdirs : UInt64
  /-- the worst health -/
  health : Binary64
  /-- the least redundancy, absent without files -/
  redundancy : Option Binary64
  /-- when the totals were last computed, in seconds since 1970 -/
  refreshed : UInt64
  deriving DecidableEq

namespace Totals

/-- The totals of an empty directory, computed at the given time. -/
def start (now : UInt64) : Totals :=
  { size := 0
    files := 0
    subdirs := 0
    health := Binary64.zero
    redundancy := none
    refreshed := now }

def initial : Totals := start 0

instance : Inhabited Totals := ⟨initial⟩

def leastRedundancy (current : Option Binary64) (candidate : Binary64) : Binary64 :=
  match current with
  | none => candidate
  | some least => least.min candidate

def addFile (totals : Totals) (file : FileRecord) : Totals :=
  { totals with
    size := totals.size + file.size
    files := totals.files + 1
    health := totals.health.max file.health
    redundancy := some (leastRedundancy totals.redundancy file.redundancy) }

def addSubdirectory (totals subdirectory : Totals) : Totals :=
  { totals with
    size := totals.size + subdirectory.size
    files := totals.files + subdirectory.files
    subdirs := totals.subdirs + (1 + subdirectory.subdirs)
    health := totals.health.max subdirectory.health
    redundancy :=
      match subdirectory.redundancy with
      | none => totals.redundancy
      | some candidate => some (leastRedundancy totals.redundancy candidate) }

def compute (files : List FileRecord) (subdirectories : List Totals) (now : UInt64) : Totals :=
  subdirectories.foldl addSubdirectory (files.foldl addFile (start now))

end Totals

end Rollup

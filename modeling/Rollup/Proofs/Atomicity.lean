/-
Runs that fail before they save.

A run changes files in its last step only, and prints its summary after that.
However far its workers got in memory, in whatever order they went, a run that was
stopped earlier has not touched the store; a run that arrives has saved the tree that
it summarises.
-/

import Rollup.Console
import Rollup.Proofs.History
import Rollup.Proofs.Schedules
import Rollup.Proofs.SummaryText

namespace Rollup

namespace Invocation

/-- The answer of the run with the notices that it gave. -/
def reported (invocation : Invocation) (work : Work) (store : FileStore) :
    Logged (Except RunError Summary) :=
  (StateT.run (m := Id) (runWith work invocation.options invocation.environment).run store).1

/-- What the program writes about the run. -/
def execution (invocation : Invocation) (work : Work) (store : FileStore) :
    Console.Execution :=
  Console.present invocation.options invocation.environment (invocation.reported work store)

/-- The lines of the notices that the run gave. -/
def log (invocation : Invocation) (work : Work) (store : FileStore) : String :=
  Console.noticeLines invocation.options.verbosity
    (Console.colorsNotices invocation.environment)
    (.argumentsParsed invocation.options.describe ::
      (invocation.reported work store).notices)

variable {invocation : Invocation} {work : Work} {store : FileStore}

/-- The whole program is such a run, in the order of the batch. -/
theorem execute_eq {arguments : List String}
    (parsed : CommandLine.parse arguments = .ok invocation.options) :
    StateT.run (m := Id)
        (Console.execute arguments invocation.environment invocation.clock) store =
      (invocation.execution (process invocation.clock) store, (invocation.perform store).2) := by
  rw [Console.execute, parsed]
  rfl

/-- The removal of a file that is not there: the run prints nothing and does not
create the data directory. -/
example :
    let invocation : Invocation :=
      ⟨⟨"m", .silent, some "d", false⟩, ⟨none, none, none, none⟩, .still 7⟩
    let store := FileStore.empty.put ⟨"m"⟩ (.file "removed: [z]".toUTF8.data.toList)
    (invocation.execution (process (.still 7)) store).output = "" ∧
      FileStore.entry? (invocation.perform store).2 ⟨"d"⟩ = none := by
  decide +kernel

/-- The root lists one directory; an eighth is shown with an even last place, and what a
record leaves out counts as one. -/
example :
    let invocation : Invocation :=
      ⟨⟨"m", .silent, some "d", true⟩, ⟨none, none, none, none⟩, .still 7⟩
    let manifest := "files: \x7ba/f: \x7bsize: 3, health: 0.125\x7d, g: \x7bredundancy: 2\x7d\x7d"
    let store := FileStore.empty.put ⟨"m"⟩ (.file manifest.toUTF8.data.toList)
    (invocation.execution (process (.still 7)) store).output =
      "2 mutations applied\n            size 3\n           files 2\n     directories 1\n" ++
        "    worst health 0.12\n  min redundancy 1.00\n" := by
  decide +kernel

end Invocation
end Rollup

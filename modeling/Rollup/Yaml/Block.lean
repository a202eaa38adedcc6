/-
Literal and folded block scalars.

A header says how the lines are joined, which line breaks are kept at the end,
and optionally how far the lines are indented; otherwise the first line that is
not empty decides.  The scalar goes on as long as its lines are indented so.
-/

import Rollup.Yaml.Spot

namespace Rollup.Yaml

inductive Chomping where
  | strip
  | clip
  | keep
  deriving DecidableEq

structure BlockHeader where
  chomping : Chomping
  /-- the indentation beyond that of the surroundings, if it is given -/
  increment : Option Nat

/-! ### Headers -/

def chompingOf (char : Char) : Option Chomping :=
  if char = '+' then some .keep else if char = '-' then some .strip else none

/-- Takes an indentation digit off the front, if there is one.  Zero is refused. -/
def readIncrement (spots : Spots) : Option (Option Nat × Spots) :=
  let char := peek spots
  if char = '0' then none
  else if char.isDigit then some (some (char.toNat - '0'.toNat), spots.tail)
  else some (none, spots)

def readBlockHeader (spots : Spots) : Option (BlockHeader × Spots) :=
  match chompingOf (peek spots) with
  | some chomping =>
      (readIncrement spots.tail).map fun (increment, rest) =>
        ({ chomping := chomping, increment := increment }, rest)
  | none =>
      match readIncrement spots with
      | none => none
      | some (none, rest) => some ({ chomping := .clip, increment := none }, rest)
      | some (some increment, rest) =>
          match chompingOf (peek rest) with
          | none => some ({ chomping := .clip, increment := some increment }, rest)
          | some chomping =>
              some ({ chomping := chomping, increment := some increment }, rest.tail)

/-! ### Indentation -/

/-- Skips empty lines and the spaces before the first content.  Answers the
widest column reached, the number of empty lines, and what follows. -/
def measureIndent (widest empty : Nat) : Spots → Nat × Nat × Spots
  | [] => (widest, empty, [])
  | spot :: rest =>
      if spot.char = ' ' then measureIndent widest empty rest
      else
        let reached := max widest spot.column
        if isBreak spot.char then measureIndent reached (empty + 1) rest
        else (reached, empty, spot :: rest)

def skipIndent (column empty : Nat) : Spots → Nat × Spots
  | [] => (empty, [])
  | spot :: rest =>
      if spot.char = ' ' ∧ spot.column < column then skipIndent column empty rest
      else if isBreak spot.char then skipIndent column (empty + 1) rest
      else (empty, spot :: rest)

/-- The column of the content, how many empty lines precede it, and the content. -/
def findContent (indent : Int) (increment : Option Nat) (spots : Spots) : Nat × Nat × Spots :=
  match increment with
  | some width =>
      let column := if 0 ≤ indent then indent.toNat + width else width
      let (empty, rest) := skipIndent column 0 spots
      (column, empty, rest)
  | none =>
      let (widest, empty, rest) := measureIndent 0 0 spots
      (max widest (indent + 1).toNat, empty, rest)

/-! ### Lines -/

/-- What was read of a block scalar: its characters, the last one first,
whether a line break follows them, how many empty lines follow that, and
whether the last line starts with a blank. -/
structure BlockText where
  read : List Char
  afterBreak : Bool
  empty : Nat
  afterBlank : Bool

namespace BlockText

/-- Starts a line: adds the breaks before it.  Between two lines of a folded
scalar that do not start with a blank, a single break becomes a space. -/
def startLine (literal startsBlank : Bool) (text : BlockText) : BlockText :=
  let breaks := List.replicate text.empty '\n'
  let read :=
    if !literal && text.afterBreak && !text.afterBlank && !startsBlank then
      if text.empty = 0 then ' ' :: text.read else breaks ++ text.read
    else if text.afterBreak then breaks ++ '\n' :: text.read
    else breaks ++ text.read
  { read := read, afterBreak := false, empty := 0, afterBlank := startsBlank }

def push (char : Char) (text : BlockText) : BlockText :=
  { text with read := char :: text.read }

end BlockText

/-- Reads lines of content that start at the given column; `inLine` says
whether the first character belongs to a line already. -/
def scanLines (literal : Bool) (column : Nat) :
    Bool → BlockText → Spots → BlockText × Spots
  | _, text, [] => (text, [])
  | true, text, spot :: rest =>
      if isEnd spot.char then (text, spot :: rest)
      else if isBreak spot.char then
        scanLines literal column false { text with afterBreak := true } rest
      else scanLines literal column true (text.push spot.char) rest
  | false, text, spot :: rest =>
      if spot.char = ' ' ∧ spot.column < column then scanLines literal column false text rest
      else if isBreak spot.char then
        scanLines literal column false { text with empty := text.empty + 1 } rest
      else if spot.column ≠ column ∨ isEnd spot.char ∨
          (column = 0 ∧ endsDocument (spot :: rest)) then
        (text, spot :: rest)
      else
        scanLines literal column true
          ((text.startLine literal (isBlank spot.char)).push spot.char) rest

/-- The characters of a scalar, the last one first, after its end is chomped.
A last line that the text ends in counts as ended by a break. -/
def chompEnd (chomping : Chomping) (column : Nat) (text : BlockText) (rest : Spots) :
    List Char :=
  let ended := if text.afterBreak then '\n' :: text.read else text.read
  let closed :=
    if isEnd (peek rest) && max column 1 ≤ (here rest).column then '\n' :: ended else ended
  match chomping with
  | .strip => text.read
  | .clip => closed
  | .keep => List.replicate text.empty '\n' ++ closed

def emptyBlock (chomping : Chomping) (afterBreak : Bool) (empty : Nat) : List Char :=
  match chomping with
  | .strip => []
  | .clip => if afterBreak then ['\n'] else []
  | .keep => if afterBreak then List.replicate (max empty 1) '\n' else []

/-- Reads a block scalar whose mark stands at the front.  `indent` is the
indentation of what surrounds it. -/
def readBlock (indent : Int) (spots : Spots) : Option (String × Spots) := do
  let literal := peek spots = '|'
  let (header, afterHeader) ← readBlockHeader spots.tail
  let (_, lineEnd) ← finishLine afterHeader
  if !isBreakOrEnd (peek lineEnd) then none
  else
    let afterBreak := isBreak (peek lineEnd)
    let body := if afterBreak then lineEnd.tail else lineEnd
    if peek body = '\t' then none
    else
      let (column, empty, content) := findContent indent header.increment body
      if isEnd (peek content) then
        return (String.ofList (emptyBlock header.chomping afterBreak empty), content)
      else if (here content).column < column ∧ indent < (here content).column then none
      else
        let start : BlockText :=
          { read := [], afterBreak := false, empty := empty, afterBlank := false }
        let (text, rest) := scanLines literal column false start content
        return (String.ofList (chompEnd header.chomping column text rest).reverse, rest)

end Rollup.Yaml

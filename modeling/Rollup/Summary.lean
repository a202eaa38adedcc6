/-
The summary that a run prints at its end.

It shows how many mutations were applied and the totals of the root.  Labels
are as wide as the longest of them and set to the right; colour encloses the
blanks that fill a label up.
-/

import Rollup.Decimal
import Rollup.Tree

namespace Rollup

/-! ### Colours -/

inductive Style where
  | bold
  | faint
  | cyan
  | red
  | green
  | yellow
  | blue
  deriving DecidableEq

def Style.code : Style → String
  | .bold => "1"
  | .faint => "2"
  | .cyan => "36"
  | .red => "31"
  | .green => "32"
  | .yellow => "33"
  | .blue => "34"

/-- Text in a style, if styles are wanted. -/
def styled (colored : Bool) (style : Style) (text : String) : String :=
  if colored then "\x1b[" ++ style.code ++ "m" ++ text ++ "\x1b[0m" else text

/-- Text with blanks before it, up to a width. -/
def rightAligned (width : Nat) (text : String) : String :=
  String.ofList (List.replicate (width - text.length) ' ') ++ text

/-! ### Summaries -/

structure Summary where
  applied : Nat
  root : Totals
  deriving DecidableEq

namespace Summary

def ofTree (tree : Tree) (applied : Nat) : Summary :=
  { applied := applied, root := (tree.totals? Path.root).getD Totals.initial }

def labelWidth : Nat := 16

def line (colored : Bool) (label value : String) : String :=
  styled colored .cyan (rightAligned labelWidth label) ++ " " ++ value

/-- Health up to one is good. -/
def healthStyle (health : Binary64) : Style :=
  if health.exceeds Binary64.one then .red else .green

def redundancyText : Option Binary64 → String
  | none => "-"
  | some redundancy => Decimal.twoPlaces redundancy

def lines (colored : Bool) (summary : Summary) : List String :=
  let root := summary.root
  let health := styled colored (healthStyle root.health) (Decimal.twoPlaces root.health)
  [styled colored .bold (toString summary.applied) ++ " mutations applied",
    line colored "size" (toString root.size),
    line colored "files" (toString root.files),
    line colored "directories" (toString root.subdirs),
    line colored "worst health" health,
    line colored "min redundancy" (redundancyText root.redundancy)]

def text (colored : Bool) (summary : Summary) : String :=
  String.intercalate "\n" (summary.lines colored)

end Summary

end Rollup

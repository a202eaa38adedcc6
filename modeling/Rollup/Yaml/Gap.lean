/-
Blanks, line breaks and comments between tokens.

A line break outside of brackets lets the next token be a key.  A tab inside of
the indentation is accepted only when nothing but a comment follows on its
line.
-/

import Rollup.Yaml.Spot

namespace Rollup.Yaml

inductive GapMode where
  | free
  /-- behind a tab in the indentation -/
  | barred
  | comment
  deriving DecidableEq

/-- Skips to the next token.  `indent` is the current indentation; the flag
says whether a key may stand next, and is answered anew. -/
def skipGap (indent : Int) (inFlow : Bool) :
    GapMode → Bool → Spots → Option (Bool × Spots)
  | _, keyAllowed, [] => some (keyAllowed, [])
  | mode, keyAllowed, spot :: rest =>
      if isEnd spot.char then some (keyAllowed, spot :: rest)
      else if isBreak spot.char then skipGap indent inFlow .free (keyAllowed || !inFlow) rest
      else
        match mode with
        | .comment => skipGap indent inFlow .comment keyAllowed rest
        | .barred =>
            if isBlank spot.char then skipGap indent inFlow .barred keyAllowed rest
            else if spot.char = '#' then skipGap indent inFlow .comment keyAllowed rest
            else none
        | .free =>
            if spot.char = '\t' && spot.fresh && (spot.column : Int) < indent then
              skipGap indent inFlow .barred keyAllowed rest
            else if isBlank spot.char then skipGap indent inFlow .free keyAllowed rest
            else if spot.char = '#' then skipGap indent inFlow .comment keyAllowed rest
            else some (keyAllowed, spot :: rest)

/-- Skips to what follows an explicit key mark.  Some space or break has to
follow the mark, and no tab may follow that. -/
def skipKeyGap (inFlow inComment seen : Bool) : Bool → Spots → Option (Bool × Spots)
  | keyAllowed, [] => if seen then some (keyAllowed, []) else none
  | keyAllowed, spot :: rest =>
      if isEnd spot.char then if seen then some (keyAllowed, spot :: rest) else none
      else if isBreak spot.char then skipKeyGap inFlow false true (keyAllowed || !inFlow) rest
      else if inComment then skipKeyGap inFlow true seen keyAllowed rest
      else if spot.char = ' ' then skipKeyGap inFlow false true keyAllowed rest
      else if spot.char = '\t' then none
      else if spot.char = '#' then skipKeyGap inFlow true seen keyAllowed rest
      else if seen then some (keyAllowed, spot :: rest)
      else none

end Rollup.Yaml

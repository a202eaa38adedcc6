/-
Plain scalars.

A plain scalar is text without quotes.  It goes on over blanks and line breaks
as long as what follows is indented and may stand in a plain scalar; a single
break becomes a space, further breaks are kept.
-/

import Rollup.Yaml.Spot

namespace Rollup.Yaml

inductive PlainMode where
  /-- at the first character or behind another character -/
  | text
  /-- behind blanks, of which the last comes first -/
  | blanks (held : List Char)
  /-- on a new line, after so many empty ones -/
  | folded (empty : Nat)
  /-- on a new line, behind a tab in the indentation -/
  | barred (empty : Nat)
  /-- in a comment behind such a tab -/
  | comment (empty : Nat)

def isPlainChar (inFlow : Bool) (spots : Spots) : Bool :=
  let char := peek spots
  let next := peekNext spots
  !isGap char && !(char = ':' && (isGap next || (inFlow && isFlow next))) &&
    !(inFlow && isFlow char)

/-- What line breaks before a word stand for, the last character first. -/
def foldedBreaks (empty : Nat) : List Char :=
  if empty = 0 then [' '] else List.replicate empty '\n'

/-- A word must not start here: a document mark after blanks only, or a comment. -/
def stopsPlain (spots : Spots) : Bool :=
  ((here spots).fresh && isDocumentMark spots) || peek spots = '#'

def isLoneHyphen (inFlow : Bool) (spots : Spots) : Bool :=
  inFlow && peek spots = '-' && isFlow (peekNext spots)

/-- Reads on, with the characters so far, the last one first.  `indent` is the
least column of a further line. -/
def scanPlain (inFlow : Bool) (indent : Int) :
    PlainMode → List Char → Spots → Option (List Char × Spots)
  | _, read, [] => some (read, [])
  | mode, read, spot :: rest =>
      if isBlank spot.char then
        match mode with
        | .text => scanPlain inFlow indent (.blanks [spot.char]) read rest
        | .blanks held => scanPlain inFlow indent (.blanks (spot.char :: held)) read rest
        | .folded empty =>
            if spot.char = '\t' && (spot.column : Int) < indent then
              scanPlain inFlow indent (.barred empty) read rest
            else scanPlain inFlow indent (.folded empty) read rest
        | .barred empty => scanPlain inFlow indent (.barred empty) read rest
        | .comment empty => scanPlain inFlow indent (.comment empty) read rest
      else if isBreak spot.char then
        match mode with
        | .text | .blanks _ => scanPlain inFlow indent (.folded 0) read rest
        | .folded empty | .barred empty | .comment empty =>
            scanPlain inFlow indent (.folded (empty + 1)) read rest
      else
        match mode with
        | .text =>
            if isPlainChar inFlow (spot :: rest) then
              scanPlain inFlow indent .text (spot.char :: read) rest
            else some (read, spot :: rest)
        | .blanks held =>
            if stopsPlain (spot :: rest) then some (read, spot :: rest)
            else if isLoneHyphen inFlow (spot :: rest) then none
            else if isPlainChar inFlow (spot :: rest) then
              scanPlain inFlow indent .text (spot.char :: (held ++ read)) rest
            else some (read, spot :: rest)
        | .folded empty =>
            if (!inFlow && (spot.column : Int) < indent) || stopsPlain (spot :: rest) then
              some (read, spot :: rest)
            else if isLoneHyphen inFlow (spot :: rest) then none
            else if isPlainChar inFlow (spot :: rest) then
              scanPlain inFlow indent .text (spot.char :: (foldedBreaks empty ++ read)) rest
            else some (read, spot :: rest)
        | .barred empty =>
            if isEnd spot.char then some (read, spot :: rest)
            else if spot.char = '#' then scanPlain inFlow indent (.comment empty) read rest
            else none
        | .comment empty =>
            if isEnd spot.char then some (read, spot :: rest)
            else scanPlain inFlow indent (.comment empty) read rest

def readPlain (inFlow : Bool) (indent : Int) (spots : Spots) : Option (String × Spots) :=
  if stopsPlain spots || isLoneHyphen inFlow spots then none
  else
    match scanPlain inFlow indent .text [] spots with
    | none => none
    | some (read, rest) =>
        if read = [] then none else some (String.ofList read.reverse, rest)

end Rollup.Yaml

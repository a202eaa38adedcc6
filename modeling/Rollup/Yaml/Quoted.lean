/-
Quoted scalars.

Inside of single quotes only the quote is written twice; inside of double
quotes a backslash starts an escape, also of a line break.  Blanks around a
line break are dropped, a single break becomes a space and further breaks are
kept.  A further line must be indented like what surrounds it.
-/

import Rollup.Yaml.Spot

namespace Rollup.Yaml

inductive QuotedMode where
  | text
  /-- behind blanks, of which the last comes first -/
  | blanks (held : List Char)
  /-- on a new line, after so many empty ones; `glued` says that the first
  break was escaped -/
  | folded (glued : Bool) (empty : Nat)
  /-- right behind an escaped break -/
  | escapedBreak
  /-- in an escape that still needs so many hexadecimal digits -/
  | digits (missing value : Nat)

def simpleEscape (char : Char) : Option Char :=
  match char with
  | '0' => some '\x00'
  | 'a' => some '\x07'
  | 'b' => some '\x08'
  | 't' | '\t' => some '\t'
  | 'n' => some '\n'
  | 'v' => some '\x0b'
  | 'f' => some '\x0c'
  | 'r' => some '\r'
  | 'e' => some '\x1b'
  | ' ' => some ' '
  | '"' => some '"'
  | '/' => some '/'
  | '\\' => some '\\'
  | 'N' => some '\u0085'
  | '_' => some '\u00a0'
  | 'L' => some '\u2028'
  | 'P' => some '\u2029'
  | _ => none

def escapeDigits (char : Char) : Option Nat :=
  match char with
  | 'x' => some 2
  | 'u' => some 4
  | 'U' => some 8
  | _ => none

def hexValue (char : Char) : Option Nat :=
  if '0' ≤ char ∧ char ≤ '9' then some (char.toNat - '0'.toNat)
  else if 'a' ≤ char ∧ char ≤ 'f' then some (char.toNat - 'a'.toNat + 10)
  else if 'A' ≤ char ∧ char ≤ 'F' then some (char.toNat - 'A'.toNat + 10)
  else none

def charOfCode (code : Nat) : Option Char :=
  if code.isValidChar then some (Char.ofNat code) else none

/-- A further line may start here: it is no document mark and is indented. -/
def continuesQuoted (indent : Int) (spots : Spots) : Bool :=
  let spot := here spots
  !(spot.column = 0 && isDocumentMark spots) && indent ≤ spot.column

/-- The characters read before a word, given how it is reached; none when a
word must not start there. -/
def settleQuoted (indent : Int) (mode : QuotedMode) (read : List Char) (spots : Spots) :
    Option (List Char) :=
  match mode with
  | .text => some read
  | .blanks held => some (held ++ read)
  | .folded glued empty =>
      if continuesQuoted indent spots then
        some (if glued || empty != 0 then List.replicate empty '\n' ++ read else ' ' :: read)
      else none
  | .escapedBreak => if continuesQuoted indent spots then some read else none
  | .digits _ _ => none

def scanQuoted (quote : Char) (indent : Int) :
    QuotedMode → List Char → Spots → Option (List Char × Spots)
  | _, _, [] => none
  | mode, read, spot :: rest =>
      match mode with
      | .digits missing value =>
          match hexValue spot.char with
          | none => none
          | some digit =>
              let code := 16 * value + digit
              if missing = 1 then
                match charOfCode code with
                | none => none
                | some char => scanQuoted quote indent .text (char :: read) rest
              else scanQuoted quote indent (.digits (missing - 1) code) read rest
      | _ =>
          if isEnd spot.char then none
          else if isBlank spot.char then
            match mode with
            | .blanks held => scanQuoted quote indent (.blanks (spot.char :: held)) read rest
            | .folded glued empty =>
                if spot.char = '\t' && (spot.column : Int) < indent then none
                else scanQuoted quote indent (.folded glued empty) read rest
            | .escapedBreak =>
                if spot.char = '\t' && (spot.column : Int) < indent then none
                else scanQuoted quote indent (.folded true 0) read rest
            | _ => scanQuoted quote indent (.blanks [spot.char]) read rest
          else if isBreak spot.char then
            match mode with
            | .folded glued empty => scanQuoted quote indent (.folded glued (empty + 1)) read rest
            | .escapedBreak => scanQuoted quote indent (.folded true 1) read rest
            | _ => scanQuoted quote indent (.folded false 0) read rest
          else if spot.char = quote ∧ mode matches .escapedBreak then some (read, rest)
          else
            match settleQuoted indent mode read (spot :: rest) with
            | none => none
            | some settled =>
                if spot.char = quote then
                  match rest with
                  | next :: after =>
                      if quote = '\'' ∧ next.char = quote then
                        scanQuoted quote indent .text (quote :: settled) after
                      else some (settled, rest)
                  | [] => some (settled, rest)
                else if quote = '"' ∧ spot.char = '\\' then
                  match rest with
                  | [] => none
                  | next :: after =>
                      if isBreak next.char then
                        scanQuoted quote indent .escapedBreak settled after
                      else
                        match simpleEscape next.char, escapeDigits next.char with
                        | some char, _ => scanQuoted quote indent .text (char :: settled) after
                        | none, some missing =>
                            scanQuoted quote indent (.digits missing 0) settled after
                        | none, none => none
                else scanQuoted quote indent .text (spot.char :: settled) rest

/-- What may follow a quoted scalar after blanks and a comment: the end of the
line, the colon of a value, or in brackets a comma or closing bracket. -/
def mayFollowQuoted (inFlow sameLine : Bool) (char : Char) : Bool :=
  isBreakOrEnd char ||
    (inFlow && (char = ',' || char = '}' || char = ']' || char = ':')) ||
    (sameLine && char = ':')

def readQuoted (inFlow : Bool) (indent : Int) (spots : Spots) : Option (String × Spots) :=
  match scanQuoted (peek spots) indent .text [] spots.tail with
  | none => none
  | some (read, afterQuote) =>
      match finishLine afterQuote with
      | none => none
      | some (_, rest) =>
          if mayFollowQuoted inFlow ((here spots).line = (here rest).line) (peek rest) then
            some (String.ofList read.reverse, rest)
          else none

end Rollup.Yaml

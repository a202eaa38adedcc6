/-
Text with positions.

Layout decides the meaning of a document, so each character is paired with
where it stands: its index in the text, its line, its column, and whether only
blanks precede it on its line.  A located text ends with an end mark, which is
never taken off.  Text behind a NUL character does not count.
-/

namespace Rollup.Yaml

/-- A character and where it stands. -/
structure Spot where
  char : Char
  index : Nat
  line : Nat
  column : Nat
  fresh : Bool
  deriving DecidableEq

/-- A located text: what is still to be read. -/
abbrev Spots := List Spot

def endMark : Char := '\x00'

/-! ### Character classes -/

def isBlank (char : Char) : Bool := char = ' ' || char = '\t'

def isBreak (char : Char) : Bool := char = '\n'

def isEnd (char : Char) : Bool := char = endMark

def isGap (char : Char) : Bool := isBlank char || isBreak char || isEnd char

def isBreakOrEnd (char : Char) : Bool := isBreak char || isEnd char

/-- The brackets and the comma of flow collections. -/
def isFlow (char : Char) : Bool :=
  char = ',' || char = '[' || char = ']' || char = '{' || char = '}'

/-- ASCII letters, digits, the underscore and the hyphen. -/
def isNameChar (char : Char) : Bool := char.isAlphanum || char = '_' || char = '-'

def isAnchorChar (char : Char) : Bool :=
  !isGap char && !isFlow char && char != '\ufeff'

def isUriChar (char : Char) : Bool :=
  char.isAlphanum || "-#;/?:@&=+$,_.!~*'()[]%".toList.contains char

def isTagChar (char : Char) : Bool := isUriChar char && !isFlow char && char != '!'

/-! ### Locating -/

/-- Locates a text from the given position on.  A carriage return ends a line,
and a line feed right after it belongs to the same break. -/
def locate (index line column : Nat) (fresh : Bool) : List Char → Spots
  | [] =>
      [{ char := endMark, index := index, line := line, column := column, fresh := fresh }]
  | '\r' :: '\n' :: rest =>
      { char := '\n', index := index, line := line, column := column, fresh := fresh } ::
        locate (index + 2) (line + 1) 0 true rest
  | char :: rest =>
      if char = '\n' ∨ char = '\r' then
        { char := '\n', index := index, line := line, column := column, fresh := fresh } ::
          locate (index + 1) (line + 1) 0 true rest
      else
        { char := char, index := index, line := line, column := column, fresh := fresh } ::
          locate (index + 1) line (column + 1) (fresh && isBlank char) rest

def spotsOf (text : List Char) : Spots :=
  locate 0 1 0 true (text.takeWhile (· != endMark))

/-! ### Looking ahead -/

/-- The position of the first character. -/
def here (spots : Spots) : Spot :=
  spots.headD { char := endMark, index := 0, line := 0, column := 0, fresh := false }

/-- The first character. -/
def peek (spots : Spots) : Char := (here spots).char

/-- The second character. -/
def peekNext (spots : Spots) : Char := peek spots.tail

def textOf (spots : Spots) : String := String.ofList (spots.map Spot.char)

/-- Three equal marks that stand alone. -/
def startsMarks (mark : Char) : Spots → Bool
  | first :: second :: third :: rest =>
      first.char = mark && second.char = mark && third.char = mark && isGap (peek rest)
  | _ => false

def startsDocument (spots : Spots) : Bool := startsMarks '-' spots

def endsDocument (spots : Spots) : Bool := startsMarks '.' spots

def isDocumentMark (spots : Spots) : Bool := startsDocument spots || endsDocument spots

/-! ### The end of a line -/

def dropComment (spots : Spots) : Spots :=
  spots.dropWhile fun spot => !isBreakOrEnd spot.char

/-- Drops blanks and a comment behind them.  The blanks are answered too; a
comment without any is refused. -/
def finishLine (spots : Spots) : Option (List Char × Spots) :=
  let blanks := spots.takeWhile fun spot => isBlank spot.char
  let rest := spots.dropWhile fun spot => isBlank spot.char
  if peek rest = '#' then
    if blanks = [] then none else some (blanks.map Spot.char, dropComment rest)
  else some (blanks.map Spot.char, rest)

end Rollup.Yaml

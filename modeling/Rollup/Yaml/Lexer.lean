/-
From text to tokens.

The lexer keeps the open indentations and brackets.  A key of a mapping is
recognised only by the colon behind it, so the lexer remembers where the last
token that may have been a key began, and puts the missing tokens there when it
meets the colon.
-/

import Rollup.Yaml.Gap
import Rollup.Yaml.Plain
import Rollup.Yaml.Block
import Rollup.Yaml.Tag

namespace Rollup.Yaml

/-- An indentation; one that is no block of its own only binds what follows
more tightly. -/
structure Level where
  column : Int
  isBlock : Bool

structure KeyCandidate where
  start : Spot
  /-- how many tokens precede it -/
  place : Nat
  /-- nothing but a key may stand there -/
  required : Bool

structure Lexer where
  rest : Spots
  /-- the tokens so far, the last one first -/
  tokens : List Token
  /-- their number -/
  count : Nat
  /-- the open indentations, the innermost first -/
  levels : List Level
  keyAllowed : Bool
  /-- the possible key of each open bracket, the innermost first, and at last
  that outside of brackets -/
  candidates : List (Option KeyCandidate)
  flowDepth : Nat
  /-- for each open square bracket, whether a pair without braces is open in it -/
  pairs : List Bool
  /-- a brace or an explicit key was met since the last such pair ended -/
  inMapping : Bool
  /-- the place in the text where a colon needs no blank behind it -/
  adjacent : Nat
  /-- the last token is an anchor or a tag at the margin -/
  marginProperty : Bool

namespace Lexer

def start (text : List Char) : Lexer :=
  { rest := spotsOf text
    tokens := []
    count := 0
    levels := []
    keyAllowed := true
    candidates := [none]
    flowDepth := 0
    pairs := []
    inMapping := false
    adjacent := 0
    marginProperty := false }

def spot (lexer : Lexer) : Spot := here lexer.rest

def inFlow (lexer : Lexer) : Bool := lexer.flowDepth != 0

/-- The column of the innermost indentation; outside of all it is -1. -/
def indent (lexer : Lexer) : Int :=
  match lexer.levels with
  | [] => -1
  | level :: _ => level.column

/-! ### Tokens -/

def push (token : Token) (lexer : Lexer) : Lexer :=
  { lexer with
    tokens := token :: lexer.tokens
    count := lexer.count + 1
    marginProperty := false }

def insertAt (place : Nat) (token : Token) (lexer : Lexer) : Lexer :=
  let later := lexer.count - place
  { lexer with
    tokens := lexer.tokens.take later ++ token :: lexer.tokens.drop later
    count := lexer.count + 1 }

def allowKey (allowed : Bool) (lexer : Lexer) : Lexer := { lexer with keyAllowed := allowed }

def goTo (rest : Spots) (lexer : Lexer) : Lexer := { lexer with rest := rest }

/-! ### Indentations -/

def deeperLevels (column : Int) (levels : List Level) : List Level × List Level :=
  (levels.takeWhile fun level => column < level.column,
    levels.dropWhile fun level => column < level.column)

def closeLevels (column : Int) (lexer : Lexer) : Lexer :=
  if lexer.inFlow then lexer
  else
    let (closed, remaining) := deeperLevels column lexer.levels
    (closed.filter Level.isBlock).foldl (fun lexer _ => lexer.push .blockEnd)
      { lexer with levels := remaining }

/-- Opens a block at a column, unless one is open there; its token gets the
given place. -/
def openBlock (column : Nat) (place : Nat) (token : Token) (lexer : Lexer) : Lexer :=
  if lexer.inFlow then lexer
  else
    let levels :=
      match lexer.levels with
      | [] => []
      | level :: outer =>
          if level.column ≤ (column : Int) && !level.isBlock then outer else level :: outer
    let lexer := { lexer with levels := levels }
    if lexer.indent < (column : Int) then
      { lexer with levels := { column := column, isBlock := true } :: lexer.levels }.insertAt
        place token
    else lexer

/-- What follows on further lines has to be indented by one more column. -/
def tighten (lexer : Lexer) : Lexer :=
  match lexer.levels with
  | [] => lexer
  | level :: outer =>
      if lexer.inFlow || !level.isBlock then lexer
      else
        { lexer with
          levels := { column := level.column + 1, isBlock := false } :: level :: outer }

def loosen (lexer : Lexer) : Lexer :=
  { lexer with levels := lexer.levels.dropWhile fun level => !level.isBlock }

/-! ### Possible keys -/

def saveKey (lexer : Lexer) : Lexer :=
  if lexer.keyAllowed then
    let isBlock := (lexer.levels.head?.map Level.isBlock).getD false
    let candidate : KeyCandidate :=
      { start := lexer.spot
        place := lexer.count
        required := !lexer.inFlow && lexer.indent = lexer.spot.column && isBlock }
    { lexer with candidates := some candidate :: lexer.candidates.tail }
  else lexer

def candidate (lexer : Lexer) : Option KeyCandidate := lexer.candidates.head?.join

/-- Gives up the innermost possible key; a required one must not be given up. -/
def dropKey (lexer : Lexer) : Option Lexer :=
  match lexer.candidate with
  | none => some lexer
  | some candidate =>
      if candidate.required then none
      else some { lexer with candidates := none :: lexer.candidates.tail }

/-- Outside of brackets a key has to end on its line, and within 1024
characters. -/
def dropStaleKey (lexer : Lexer) : Option Lexer :=
  match lexer.candidate with
  | none => some lexer
  | some candidate =>
      if !lexer.inFlow &&
          (candidate.start.line < lexer.spot.line ||
            candidate.start.index + 1024 < lexer.spot.index) then
        lexer.dropKey
      else some lexer

def hasRequiredKey (lexer : Lexer) : Bool :=
  lexer.candidates.any fun candidate => (candidate.map KeyCandidate.required).getD false

/-! ### Brackets -/

def closePair (lexer : Lexer) : Lexer :=
  match lexer.pairs with
  | true :: outer => { lexer with pairs := false :: outer, inMapping := false }.push .flowMappingEnd
  | _ => lexer

def maxFlowDepth : Nat := 255

def openFlow (isMapping : Bool) (lexer : Lexer) : Option Lexer := do
  let lexer := lexer.saveKey.tighten
  if maxFlowDepth ≤ lexer.flowDepth then none
  else
    let (_, rest) ← finishLine lexer.rest.tail
    let opened :=
      { lexer with
        rest := rest
        candidates := none :: lexer.candidates
        flowDepth := lexer.flowDepth + 1
        keyAllowed := true
        inMapping := isMapping || lexer.inMapping
        pairs := if isMapping then lexer.pairs else false :: lexer.pairs }
    return opened.push (if isMapping then .flowMappingStart else .flowSequenceStart)

/-- Leaves a bracket; outside of brackets there is nothing to leave. -/
def leaveFlow (lexer : Lexer) : Lexer :=
  if lexer.inFlow then
    { lexer with flowDepth := lexer.flowDepth - 1, candidates := lexer.candidates.tail }
  else lexer

def closeFlow (isMapping : Bool) (lexer : Lexer) : Option Lexer := do
  let lexer ← lexer.dropKey
  let left := lexer.leaveFlow.allowKey false
  let closed :=
    if isMapping then left
    else
      let ended := left.closePair
      { ended with pairs := ended.pairs.tail }
  let (_, rest) ← finishLine lexer.rest.tail
  let moved := closed.goTo rest
  let adjacent := if moved.inFlow then moved.spot.index else moved.adjacent
  return { moved with adjacent := adjacent }.push
    (if isMapping then .flowMappingEnd else .flowSequenceEnd)

def readComma (lexer : Lexer) : Option Lexer := do
  let lexer ← lexer.dropKey
  let ended := (lexer.allowKey true).closePair
  let (_, rest) ← finishLine lexer.rest.tail
  return (ended.goTo rest).push .flowEntry

/-! ### Entries, keys and values -/

def readHyphen (lexer : Lexer) : Option Lexer := do
  if lexer.inFlow || !lexer.keyAllowed ||
      (lexer.marginProperty && lexer.spot.column = 0 && -1 < lexer.indent) then none
  else
    let opened :=
      lexer.openBlock lexer.spot.column lexer.count .blockSequenceStart
    let (blanks, rest) ← finishLine lexer.rest.tail
    if blanks.contains '\t' && peek rest = '-' && isGap (peekNext rest) then none
    else
      let moved := opened.goTo rest
      let tightened :=
        if isBreak (peek rest) || isFlow (peek rest) then moved.tighten else moved
      let cleared ← tightened.dropKey
      return (cleared.allowKey true).push .blockEntry

def readKeyMark (lexer : Lexer) : Option Lexer := do
  if !lexer.inFlow && !lexer.keyAllowed then none
  else
    let opened :=
      if lexer.inFlow then { lexer with inMapping := true }
      else lexer.openBlock lexer.spot.column lexer.count .blockMappingStart
    let cleared ← opened.dropKey
    let (keyAllowed, rest) ← skipKeyGap lexer.inFlow false false (!lexer.inFlow) lexer.rest.tail
    return ((cleared.goTo rest).allowKey keyAllowed).push .key

/-- A pair without braces begins with the key at the given place. -/
def openPair (place : Nat) (lexer : Lexer) : Lexer :=
  { lexer with pairs := true :: lexer.pairs.tail }.insertAt place .flowMappingStart

def readValueOf (candidate : KeyCandidate) (isPair : Bool) (lexer : Lexer) : Option Lexer :=
  if isPair && candidate.start.line < lexer.spot.line then none
  else
    let keyed := lexer.insertAt candidate.place .key
    let paired := if isPair then keyed.openPair candidate.place else keyed
    let opened :=
      (paired.openBlock candidate.start.column candidate.place .blockMappingStart).tighten
    some
      ({ opened with candidates := none :: opened.candidates.tail }.allowKey false)

/-- A colon without a possible key: its key is explicit or empty. -/
def readBareValue (isPair : Bool) (lexer : Lexer) : Option Lexer :=
  if !lexer.inFlow && !lexer.keyAllowed then none
  else
    let paired := if isPair then lexer.openPair lexer.count else lexer
    let opened :=
      (paired.openBlock lexer.spot.column lexer.count .blockMappingStart).tighten
    some (opened.allowKey (!lexer.inFlow))

/-- Behind a colon and a tab, a space has to come before a value that starts
with a letter, digit, underscore or hyphen. -/
def isBadValueGap (spots : Spots) : Option Bool :=
  if peek spots = '\t' then
    match finishLine spots with
    | none => none
    | some (blanks, rest) => some (!blanks.contains ' ' && isNameChar (peek rest))
  else some false

def skipTabGap (spots : Spots) : Option Spots :=
  if peek spots = '\t' then (finishLine spots).map Prod.snd else some spots

/-- The colon before a value.  In square brackets and outside of braces it
makes a pair. -/
def readColon (lexer : Lexer) : Option Lexer := do
  let isPair := !lexer.pairs.isEmpty && !lexer.inMapping
  let isBad ← isBadValueGap lexer.rest.tail
  let rest ← skipTabGap lexer.rest.tail
  if isBad then none
  else
    let read ←
      match lexer.candidate with
      | some candidate => lexer.readValueOf candidate isPair
      | none => lexer.readBareValue isPair
    return (read.goTo rest).push .value

/-- The colon in brackets that no blank follows. -/
def readFlowColon (lexer : Lexer) : Option Lexer :=
  let next := peekNext lexer.rest
  if lexer.spot.index ≠ lexer.adjacent ∧ (next = '[' ∨ next = '{') then none
  else lexer.readColon

/-! ### Properties and scalars -/

def atMargin (lexer : Lexer) : Bool := lexer.spot.column = 0

def readAnchor (isAlias : Bool) (lexer : Lexer) : Option Lexer := do
  let (name, rest) ← readAnchorName lexer.rest
  let read := ((lexer.saveKey.allowKey false).goTo rest).push
    (if isAlias then .alias name else .anchor name)
  return { read with marginProperty := !isAlias && lexer.atMargin }

def readTagToken (lexer : Lexer) : Option Lexer := do
  let (token, rest) ← readTag lexer.inFlow lexer.rest
  let read := ((lexer.saveKey.allowKey false).goTo rest).push token
  return { read with marginProperty := lexer.atMargin }

def readPlainToken (lexer : Lexer) : Option Lexer := do
  let loose := (lexer.saveKey.allowKey false).loosen
  let indent := loose.indent + 1
  if loose.inFlow && (loose.spot.column : Int) < indent then none
  else
    let (text, rest) ← readPlain loose.inFlow indent loose.rest
    return ((loose.goTo rest).allowKey (here rest).fresh).push (.scalar true text)

def readBlockToken (lexer : Lexer) : Option Lexer := do
  let loose := (lexer.saveKey.allowKey true).loosen
  let (text, rest) ← readBlock loose.indent loose.rest
  return (loose.goTo rest).push (.scalar false text)

/-- A quoted scalar may be followed by a colon without a blank. -/
def readQuotedToken (lexer : Lexer) : Option Lexer := do
  let saved := lexer.saveKey.allowKey false
  let (text, afterScalar) ← readQuoted saved.inFlow saved.indent saved.rest
  let (keyAllowed, rest) ← skipGap saved.indent saved.inFlow .free false afterScalar
  let moved := (saved.goTo rest).allowKey keyAllowed
  return { moved with adjacent := moved.spot.index }.push (.scalar false text)

/-! ### Documents -/

/-- Before a directive or a document mark everything is closed. -/
def endDocument (lexer : Lexer) : Option Lexer := do
  let cleared ← (lexer.closeLevels (-1)).dropKey
  return cleared.allowKey false

def readDirectiveToken (lexer : Lexer) : Option Lexer := do
  let ended ← lexer.endDocument
  let (token, rest) ← readDirective ended.rest
  return (ended.goTo rest).push token

def readDocumentStart (lexer : Lexer) : Option Lexer := do
  let ended ← lexer.endDocument
  return (ended.goTo (ended.rest.drop 3)).push .documentStart

/-- Behind the mark that ends a document only a comment may follow. -/
def readDocumentEnd (lexer : Lexer) : Option Lexer := do
  let ended ← lexer.endDocument
  let (_, rest) ← finishLine (ended.rest.drop 3)
  if isBreakOrEnd (peek rest) then return (ended.goTo rest).push .documentEnd else none

def finish (lexer : Lexer) : Option (List Token) :=
  if lexer.hasRequiredKey then none
  else some ((lexer.closeLevels (-1)).push .streamEnd).tokens.reverse

/-! ### Running -/

def readToken (lexer : Lexer) : Option Lexer :=
  let char := peek lexer.rest
  let next := peekNext lexer.rest
  if char = '[' then lexer.openFlow false
  else if char = '{' then lexer.openFlow true
  else if char = ']' then lexer.closeFlow false
  else if char = '}' then lexer.closeFlow true
  else if char = ',' then lexer.readComma
  else if char = '-' ∧ isGap next then lexer.readHyphen
  else if char = '?' ∧ isGap next then lexer.readKeyMark
  else if char = ':' ∧ isGap next then lexer.readColon
  else if char = ':' ∧ lexer.inFlow ∧
      (isFlow next ∨ lexer.spot.index = lexer.adjacent) then lexer.readFlowColon
  else if char = '*' then lexer.readAnchor true
  else if char = '&' then lexer.readAnchor false
  else if char = '!' then lexer.readTagToken
  else if (char = '|' ∨ char = '>') ∧ !lexer.inFlow then lexer.readBlockToken
  else if char = '\'' ∨ char = '"' then lexer.readQuotedToken
  else if char = '%' ∨ char = '@' ∨ char = '\x60' then none
  else lexer.readPlainToken

/-- Goes to the next token: skips the gap before it, gives up a stale key, and
closes the indentations that end here. -/
def approach (lexer : Lexer) : Option Lexer := do
  let (keyAllowed, rest) ← skipGap lexer.indent lexer.inFlow .free lexer.keyAllowed lexer.rest
  let fresh ← ((lexer.goTo rest).allowKey keyAllowed).dropStaleKey
  return fresh.closeLevels fresh.spot.column

def readNext (lexer : Lexer) : Option Lexer :=
  if lexer.atMargin && peek lexer.rest = '%' then lexer.readDirectiveToken
  else if lexer.atMargin && startsDocument lexer.rest then lexer.readDocumentStart
  else if lexer.atMargin && endsDocument lexer.rest then lexer.readDocumentEnd
  else if (lexer.spot.column : Int) < lexer.indent then none
  else lexer.readToken

/-- Reads tokens up to the end of the text.  Each takes at least one character,
so the length of the text bounds their number. -/
def run : Nat → Lexer → Option (List Token)
  | 0, _ => none
  | fuel + 1, lexer =>
      match lexer.approach with
      | none => none
      | some arrived =>
          if isEnd (peek arrived.rest) then arrived.finish
          else
            match arrived.readNext with
            | none => none
            | some next => run fuel next

end Lexer

def tokensOf (text : List Char) : Option (List Token) :=
  let lexer := Lexer.start text
  lexer.run lexer.rest.length

end Rollup.Yaml

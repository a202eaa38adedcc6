/-
Mappings in braces on a line.

Inside of braces the lexer neither opens nor closes indentations, so a key, its
colon and its value are read the same way wherever they stand.  What one token
leaves is where the next begins, so the steps can be joined.  Each takes some of the
text, so a run does not stop for want of steps.
-/

import Mathlib.Logic.Relation
import Rollup.Proofs.Lexing

namespace Rollup.Yaml.Lexer

/-! ### Runs -/

/-- One token is read, and some of the text with it. -/
structure Leads (before after : Lexer) : Prop where
  reads : ∃ arrived, before.approach = some arrived ∧ isEnd (peek arrived.rest) = false ∧
    arrived.readNext = some after
  shorter : after.rest.length < before.rest.length

theorem Leads.run_eq {before after : Lexer} (leads : Leads before after) (fuel : Nat) :
    run (fuel + 1) before = run fuel after := by
  obtain ⟨arrived, approaches, notEnd, reads⟩ := leads.reads
  simp [run, approaches, notEnd, reads]

/-- A run with a step for each character that is left goes on behind the tokens it reads. -/
theorem run_of_leads {before after : Lexer} (leads : Relation.ReflTransGen Leads before after)
    {fuel : Nat} (enough : before.rest.length ≤ fuel) :
    ∃ left, after.rest.length ≤ left ∧ run fuel before = run left after := by
  induction leads using Relation.ReflTransGen.head_induction_on generalizing fuel with
  | refl => exact ⟨fuel, enough, rfl⟩
  | head first _ inductionHypothesis =>
      have shorter := first.shorter
      obtain ⟨fewer, rfl⟩ := Nat.exists_eq_succ_of_ne_zero (n := fuel) (by omega)
      rw [first.run_eq]
      exact inductionHypothesis (by omega)

/-- From wherever the one holds, tokens are read up to where the other does. -/
def Goes (before after : Lexer → Prop) : Prop :=
  ∀ lexer, before lexer → ∃ next, Relation.ReflTransGen Leads lexer next ∧ after next

theorem Goes.trans {first second third : Lexer → Prop} (goes : Goes first second)
    (further : Goes second third) : Goes first third := by
  intro lexer holds
  obtain ⟨between, leads, holdsBetween⟩ := goes lexer holds
  obtain ⟨next, leadsFurther, holdsNext⟩ := further between holdsBetween
  exact ⟨next, leads.trans leadsFurther, holdsNext⟩

/-! ### Approaching a token in brackets -/

section

variable {lexer : Lexer}

theorem dropStaleKey_of_inFlow (inFlow : lexer.inFlow = true) :
    lexer.dropStaleKey = some lexer := by
  unfold dropStaleKey
  split
  · rfl
  · rw [inFlow]
    rfl

theorem closeLevels_of_inFlow (inFlow : lexer.inFlow = true) (column : Int) :
    lexer.closeLevels column = lexer := if_pos inFlow

/-- In brackets only the gap before a token is passed over. -/
theorem approach_of_inFlow (inFlow : lexer.inFlow = true) {rest : Spots}
    (skips : skipGap lexer.indent true .free lexer.keyAllowed lexer.rest =
      some (lexer.keyAllowed, rest)) : lexer.approach = some (lexer.goTo rest) := by
  have inFlowThere : (lexer.goTo rest).inFlow = true := inFlow
  unfold approach
  rw [inFlow, skips]
  exact (congrArg (fun found => found.bind fun fresh : Lexer =>
    some (fresh.closeLevels fresh.spot.column)) (dropStaleKey_of_inFlow inFlowThere)).trans
    (congrArg some (closeLevels_of_inFlow inFlowThere _))

theorem readNext_of_indented (margin : 0 < lexer.spot.column)
    (indented : lexer.indent ≤ lexer.spot.column) : lexer.readNext = lexer.readToken := by
  have notAtMargin : lexer.atMargin = false := decide_eq_false (Nat.ne_of_gt margin)
  unfold readNext
  rw [notAtMargin, if_neg (by simp), if_neg (by simp), if_neg (by simp), if_neg (by omega)]

end

/-! ### What the readers leave -/

section

variable {lexer : Lexer} {blanks : List Char} {rest : Spots}

theorem openFlow_eq (kept : lexer.saveKey.tighten = lexer) (shallow : lexer.flowDepth < maxFlowDepth)
    (finishes : finishLine lexer.rest.tail = some (blanks, rest)) :
    lexer.openFlow true = some (push .flowMappingStart
      { lexer with
        rest := rest
        candidates := none :: lexer.candidates
        flowDepth := lexer.flowDepth + 1
        keyAllowed := true
        inMapping := true }) := by
  simp [openFlow, kept, Nat.not_le_of_lt shallow, finishes]

theorem closeFlow_eq (noKey : lexer.candidate = none) {left : Lexer}
    (leaves : lexer.leaveFlow = left)
    (finishes : finishLine lexer.rest.tail = some (blanks, rest)) :
    lexer.closeFlow true = some (push .flowMappingEnd
      { left with
        rest := rest
        keyAllowed := false
        adjacent := if left.inFlow then (here rest).index else left.adjacent }) := by
  simp [closeFlow, dropKey, noKey, leaves, finishes, allowKey, goTo, spot, Lexer.inFlow]

theorem readComma_eq (noKey : lexer.candidate = none) (noPair : lexer.pairs = [])
    (finishes : finishLine lexer.rest.tail = some (blanks, rest)) :
    lexer.readComma = some (push .flowEntry { lexer with rest := rest, keyAllowed := true }) := by
  simp [readComma, dropKey, noKey, closePair, allowKey, goTo, noPair, finishes]

theorem readPlainToken_eq {loose : Lexer} (isLoose : (lexer.saveKey.allowKey false).loosen = loose)
    (inFlow : loose.inFlow = true) (indented : loose.indent < loose.spot.column) {text : String}
    (reads : readPlain true (loose.indent + 1) loose.rest = some (text, rest)) :
    lexer.readPlainToken = some (push (.scalar true text)
      { loose with rest := rest, keyAllowed := (here rest).fresh }) := by
  unfold readPlainToken
  simp only [isLoose, inFlow, reads]
  rw [if_neg (by simp; omega)]
  rfl

theorem readQuotedToken_eq {saved : Lexer} (isSaved : lexer.saveKey.allowKey false = saved)
    {text : String} (reads : readQuoted saved.inFlow saved.indent saved.rest = some (text, rest))
    (skips : skipGap saved.indent saved.inFlow .free false rest = some (false, rest)) :
    lexer.readQuotedToken = some (push (.scalar false text)
      { saved with rest := rest, keyAllowed := false, adjacent := (here rest).index }) := by
  unfold readQuotedToken
  simp only [isSaved]
  simp [reads, skips, goTo, allowKey, spot]

theorem readToken_alphanum (alphanumeric : (peek lexer.rest).isAlphanum = true) :
    lexer.readToken = lexer.readPlainToken := by
  have other := isAlphanum_ne alphanumeric
  simp [readToken, other '[' rfl, other '{' rfl, other ']' rfl, other '}' rfl, other ',' rfl,
    other '-' rfl, other '?' rfl, other ':' rfl, other '*' rfl, other '&' rfl, other '!' rfl,
    other '|' rfl, other '>' rfl, other '\'' rfl, other '"' rfl, other '%' rfl, other '@' rfl,
    other '\x60' rfl]

theorem insertAt_length {last : Token} {older : List Token} (isTokens : lexer.tokens = last :: older)
    (isCount : lexer.count = older.length + 1) (token : Token) :
    lexer.insertAt older.length token =
      { lexer with tokens := last :: token :: older, count := older.length + 2 } := by
  simp [insertAt, isTokens, isCount]

end

/-! ### Places in braces -/

/-- The indentations below a key at the margin.  A plain scalar drops the one that is
no block. -/
def levelsBelowKey (loose : Bool) : List Level :=
  if loose then [{ column := 0, isBlock := true }]
  else [{ column := 1, isBlock := false }, { column := 0, isBlock := true }]

/-- The lexer inside of braces. -/
def inBraces (depth : Nat) (loose : Bool) (candidate : Option KeyCandidate) (tokens : List Token)
    (keyAllowed : Bool) (adjacent : Nat) (rest : Spots) : Lexer :=
  { rest := rest
    tokens := tokens
    count := tokens.length
    levels := levelsBelowKey loose
    keyAllowed := keyAllowed
    candidates := candidate :: List.replicate (depth + 1) none
    flowDepth := depth + 1
    pairs := []
    inMapping := true
    adjacent := adjacent
    marginProperty := false }

/-- A possible key in brackets is never required. -/
def keyFrom (start : Spot) (place : Nat) : KeyCandidate :=
  { start := start, place := place, required := false }

/-- The lexer inside of braces, before or behind a blank ahead of the text that is left.  The
last token may be a key if it has a place. -/
inductive At (depth : Nat) (place : Option Nat) (tokens : List Token) (keyAllowed : Bool)
    (text : List Char) : Lexer → Prop
  | text (loose : Bool) (start : Spot) (adjacent column : Nat) :
      At depth place tokens keyAllowed text
        (inBraces depth loose (place.map (keyFrom start)) tokens keyAllowed adjacent
          (onLine (column + 1) text))
  | blank (loose : Bool) (start : Spot) (adjacent column : Nat) :
      At depth place tokens keyAllowed text
        (inBraces depth loose (place.map (keyFrom start)) tokens keyAllowed adjacent
          (onLine (column + 1) (' ' :: text)))

section

variable {depth : Nat} {place : Option Nat} {tokens : List Token} {keyAllowed : Bool}
  {text after : List Char}

theorem indent_inBraces (depth : Nat) (loose : Bool) (candidate : Option KeyCandidate)
    (tokens : List Token) (keyAllowed : Bool) (adjacent : Nat) (rest : Spots) :
    (inBraces depth loose candidate tokens keyAllowed adjacent rest).indent ≤ 1 := by
  cases loose
  · exact Int.le_refl 1
  · exact Int.zero_le_ofNat 1

/-- A token that begins the text behind a gap is read off the front. -/
theorem leads_inBraces (visible : beginsVisible text = true) {loose : Bool}
    {candidate : Option KeyCandidate} {adjacent column : Nat} {before : Spots} {next : Lexer}
    (skips : ∀ indent, skipGap indent true .free keyAllowed before =
      some (keyAllowed, onLine (column + 1) text))
    (reads : (inBraces depth loose candidate tokens keyAllowed adjacent
      (onLine (column + 1) text)).readToken = some next)
    (shorter : next.rest.length < before.length) :
    Leads (inBraces depth loose candidate tokens keyAllowed adjacent before) next := by
  have atColumn : (inBraces depth loose candidate tokens keyAllowed adjacent
      (onLine (column + 1) text)).spot.column = column + 1 := by
    obtain ⟨spot, rest, split, _, isColumn⟩ := exists_onLine_eq_cons visible (column + 1)
    rw [split]
    exact isColumn
  have indent := indent_inBraces depth loose candidate tokens keyAllowed adjacent
    (onLine (column + 1) text)
  have readsNext : (inBraces depth loose candidate tokens keyAllowed adjacent
      (onLine (column + 1) text)).readNext = some next :=
    (readNext_of_indented (by omega) (by omega)).trans reads
  exact ⟨⟨_, approach_of_inFlow rfl (skips _), isEnd_peek_onLine visible _, readsNext⟩, shorter⟩

/-- A token begins at a visible character, and what it leaves does not depend on where the
character stands. -/
theorem goes_of_readToken (visible : beginsVisible text = true) {holds : Lexer → Prop}
    (reads : ∀ loose start adjacent column, ∃ next,
      (inBraces depth loose (place.map (keyFrom start)) tokens keyAllowed adjacent
        (onLine (column + 1) text)).readToken = some next ∧
      next.rest.length < (onLine (column + 1) text).length ∧ holds next) :
    Goes (At depth place tokens keyAllowed text) holds := by
  intro lexer isAt
  cases isAt with
  | text loose start adjacent column =>
      obtain ⟨next, readsToken, shorter, holdsNext⟩ := reads loose start adjacent column
      have skips := (skipGap_onLine visible · true keyAllowed (column + 1))
      exact ⟨next, Relation.ReflTransGen.single (leads_inBraces visible skips readsToken shorter),
        holdsNext⟩
  | blank loose start adjacent column =>
      obtain ⟨next, readsToken, shorter, holdsNext⟩ := reads loose start adjacent (column + 1)
      have skips := (skipGap_space_onLine visible · true keyAllowed (column + 1))
      refine ⟨next, Relation.ReflTransGen.single (leads_inBraces visible skips readsToken ?_),
        holdsNext⟩
      rw [onLine_cons rfl]
      exact Nat.lt_succ_of_lt shorter

/-! ### Keys and values -/

theorem readValueOf_inBraces (loose : Bool) (start : Spot) (last : Token) (older : List Token)
    (adjacent : Nat) (rest : Spots) :
    (inBraces depth loose (some (keyFrom start older.length)) (last :: older) false adjacent
      rest).readValueOf (keyFrom start older.length) false =
      some (inBraces depth loose none (last :: .key :: older) false adjacent rest) := by
  unfold readValueOf
  rw [show (keyFrom start older.length).place = older.length from rfl, insertAt_length rfl rfl]
  cases loose <;> rfl

/-- A colon makes a key of the token before it. -/
theorem goes_colon (last : Token) (older : List Token) :
    Goes (At depth (some older.length) (last :: older) false (':' :: ' ' :: after))
      (At depth none (.value :: last :: .key :: older) false after) := by
  refine goes_of_readToken rfl fun loose start adjacent column => ?_
  refine ⟨_, ?_, Nat.lt_succ_self _, At.blank loose start adjacent (column + 1)⟩
  exact congrArg
    (fun read => read.bind fun lexer : Lexer =>
      some ((lexer.goTo (onLine (column + 2) (' ' :: after))).push .value))
    (readValueOf_inBraces loose start last older adjacent _)

/-- A quoted text may be a key. -/
theorem goes_quoted (written : String) (older : List Token) :
    Goes (At depth none older true (doubleQuoted written.toList ++ ':' :: after))
      (At depth (some older.length) (.scalar false written :: older) false (':' :: after)) := by
  refine goes_of_readToken rfl fun loose start adjacent column => ?_
  have reads := readQuoted_doubleQuoted (inBraces depth loose none older false adjacent []).indent
    written.toList after (column + 1)
  rw [String.ofList_toList] at reads
  refine ⟨_, readQuotedToken_eq rfl reads (skipGap_onLine rfl _ _ _ _),
    length_onLine_lt (fun _ => isInline_doubleQuoted) nofun _ _, ?_⟩
  exact At.text loose _ _ (column + 1 + (written.toList.flatMap escaped ++ ['"']).length)

theorem loosen_saveKey_inBraces (loose : Bool) (older : List Token) (adjacent : Nat)
    (rest : Spots) :
    ((inBraces depth loose none older keyAllowed adjacent rest).saveKey.allowKey false).loosen =
      inBraces depth true ((if keyAllowed then some older.length else none).map
        (keyFrom (here rest))) older false adjacent rest := by
  cases keyAllowed <;> cases loose <;> rfl

/-- A word may be a key where one is allowed. -/
theorem goes_word {word : String} (alphanumeric : ∀ char ∈ word.toList, char.isAlphanum = true)
    (nonempty : word.toList ≠ []) (ends : EndsWord after) (older : List Token) :
    Goes (At depth none older keyAllowed (word.toList ++ after))
      (At depth (if keyAllowed then some older.length else none)
        (.scalar true word :: older) false after) := by
  have isWord := String.ofList_toList (s := word)
  obtain ⟨first, others, letters⟩ := List.exists_cons_of_ne_nil nonempty
  rw [letters] at alphanumeric nonempty isWord ⊢
  have isFirst := alphanumeric first List.mem_cons_self
  have begins : beginsVisible (first :: others ++ after) = true := isVisible_alphanum isFirst
  refine goes_of_readToken begins fun loose start adjacent column => ?_
  have split := onLine_cons (isInline_alphanum isFirst) (column + 1) (others ++ after)
  have reads := readPlain_word alphanumeric nonempty ends 1 (column + 1)
  rw [isWord] at reads
  have isPlain : (inBraces depth loose none older keyAllowed adjacent
      (onLine (column + 1) (first :: others ++ after))).readToken =
      (inBraces depth loose none older keyAllowed adjacent
        (onLine (column + 1) (first :: others ++ after))).readPlainToken := by
    refine readToken_alphanum ?_
    rw [List.cons_append]
    simp only [inBraces, split]
    exact isFirst
  have readsToken := isPlain.trans
    (readPlainToken_eq (loosen_saveKey_inBraces loose older adjacent _) rfl ?_ reads)
  · refine ⟨_, readsToken,
      length_onLine_lt (fun char member => isInline_alphanum (alphanumeric char member))
        nonempty _ _, ?_⟩
    have notFresh : (here (onLine (column + 1 + (first :: others).length) after)).fresh = false := by
      cases ends <;> rfl
    -- a plain scalar dropped the indentation that is no block, whether it was there or not
    rw [notFresh]
    exact At.text true _ adjacent (column + 1 + others.length)
  · rw [List.cons_append, split]
    exact Int.natCast_pos.mpr (Nat.succ_pos column)

/-! ### Braces and commas -/

/-- Braces may be the value of a key. -/
theorem goes_open (visible : beginsVisible after = true) (shallow : depth + 1 < maxFlowDepth)
    (older : List Token) :
    Goes (At depth none older false ('{' :: after))
      (At (depth + 1) none (.flowMappingStart :: older) true after) := by
  refine goes_of_readToken rfl fun loose start adjacent column => ?_
  refine ⟨_, ?_, Nat.lt_succ_self _, At.text loose start adjacent (column + 1)⟩
  refine openFlow_eq ?_ shallow (finishLine_onLine visible (column + 2))
  cases loose <;> rfl

theorem goes_close (visible : beginsVisible after = true) (older : List Token) :
    Goes (At (depth + 1) none older keyAllowed ('}' :: after))
      (At depth none (.flowMappingEnd :: older) false after) := by
  refine goes_of_readToken rfl fun loose start adjacent column => ?_
  refine ⟨_, closeFlow_eq rfl rfl (finishLine_onLine visible (column + 2)), Nat.lt_succ_self _, ?_⟩
  exact At.text loose start _ (column + 1)

theorem goes_comma (visible : beginsVisible after = true) (older : List Token) :
    Goes (At depth none older false (',' :: ' ' :: after))
      (At depth none (.flowEntry :: older) true after) := by
  refine goes_of_readToken rfl fun loose start adjacent column => ?_
  refine ⟨_, readComma_eq rfl rfl (finishLine_space_onLine visible (column + 2)), ?_,
    At.text loose start adjacent (column + 2)⟩
  rw [onLine_cons rfl, onLine_cons rfl]
  exact Nat.lt_succ_of_lt (Nat.lt_succ_self _)

/-! ### The margin -/

/-- The lexer outside of brackets, where no key may begin. -/
def outside (levels : List Level) (candidate : Option KeyCandidate) (tokens : List Token)
    (inMapping : Bool) (adjacent : Nat) (rest : Spots) : Lexer :=
  { rest := rest
    tokens := tokens
    count := tokens.length
    levels := levels
    keyAllowed := false
    candidates := [candidate]
    flowDepth := 0
    pairs := []
    inMapping := inMapping
    adjacent := adjacent
    marginProperty := false }

/-- The text ends behind braces that are the value of a key at the margin. -/
inductive Ended (tokens : List Token) : Lexer → Prop
  | intro (loose : Bool) (adjacent column : Nat) :
      Ended tokens
        (outside (levelsBelowKey loose) none tokens true adjacent (onLine (column + 1) []))

theorem goes_close_last (older : List Token) :
    Goes (At 0 none older keyAllowed ['}']) (Ended (.flowMappingEnd :: older)) := by
  refine goes_of_readToken rfl fun loose start adjacent column => ?_
  have finishes : finishLine (onLine (column + 2) []) = some ([], onLine (column + 2) []) := rfl
  refine ⟨_, closeFlow_eq rfl rfl finishes, Nat.lt_succ_self _, ?_⟩
  exact Ended.intro loose adjacent (column + 1)

theorem closeLevels_of_within {lexer : Lexer} {column : Int}
    (within : ∀ level ∈ lexer.levels, level.column ≤ column) :
    lexer.closeLevels column = lexer := by
  have noneDeeper : deeperLevels column lexer.levels = ([], lexer.levels) := by
    unfold deeperLevels
    cases found : lexer.levels with
    | nil => rfl
    | cons level outer =>
        have outermost := within level (by rw [found]; exact List.mem_cons_self)
        simp [Int.not_lt.mpr outermost]
  unfold closeLevels
  rw [noneDeeper]
  split <;> rfl

theorem run_of_ended {lexer : Lexer} (ended : Ended tokens lexer) (fuel : Nat) :
    run (fuel + 1) lexer = some (tokens.reverse ++ [.blockEnd, .streamEnd]) := by
  cases ended with
  | intro loose adjacent column =>
      have within : ∀ level ∈ levelsBelowKey loose, level.column ≤ ((column + 1 : Nat) : Int) := by
        cases loose <;> simp [levelsBelowKey] <;> omega
      have approaches : (outside (levelsBelowKey loose) none tokens true adjacent
          (onLine (column + 1) [])).approach = some (outside (levelsBelowKey loose) none tokens true
            adjacent (onLine (column + 1) [])) :=
        congrArg some (closeLevels_of_within within)
      have finishes : (outside (levelsBelowKey loose) none tokens true adjacent
          (onLine (column + 1) [])).finish =
            some (.streamEnd :: .blockEnd :: tokens).reverse := by
        cases loose <;> rfl
      simp only [run, approaches]
      exact finishes.trans (by simp)

end

end Rollup.Yaml.Lexer

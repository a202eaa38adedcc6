/-
Lexemes on a line.

A text that stays on its first line is located by counting its characters.  A
double-quoted text is read back whatever its characters are, a word of letters and
digits as it stands, up to what cannot go on with it.
-/

import Mathlib.Data.List.Basic
import Rollup.Yaml.Lexer

namespace Rollup.Yaml

/-! ### Text on a line -/

/-- Text without a line break, located on the first line behind other text. -/
def onLine (column : Nat) (text : List Char) : Spots := locate column 1 column false text

/-- The character neither ends the line nor the text. -/
def isInline (char : Char) : Bool := char != '\n' && char != '\r' && char != endMark

theorem onLine_cons {char : Char} (inline : isInline char = true) (column : Nat)
    (rest : List Char) :
    onLine column (char :: rest) =
      { char := char, index := column, line := 1, column := column, fresh := false } ::
        onLine (column + 1) rest := by
  simp only [isInline, Bool.and_eq_true, bne_iff_ne] at inline
  obtain ⟨⟨notFeed, notReturn⟩, _⟩ := inline
  unfold onLine
  rw [locate, if_neg (not_or.mpr ⟨notFeed, notReturn⟩), Bool.false_and]
  intro _ isReturn
  exact absurd isReturn notReturn

theorem length_onLine_append {text : List Char} (inline : ∀ char ∈ text, isInline char = true)
    (column : Nat) (after : List Char) :
    (onLine column (text ++ after)).length =
      text.length + (onLine (column + text.length) after).length := by
  induction text generalizing column with
  | nil => exact (Nat.zero_add _).symm
  | cons char rest inductionHypothesis =>
      obtain ⟨here, elsewhere⟩ := List.forall_mem_cons.mp inline
      rw [List.cons_append, onLine_cons here, List.length_cons, inductionHypothesis elsewhere,
        List.length_cons, Nat.add_right_comm, Nat.add_assoc column, Nat.add_comm 1]

/-- What is left behind some text on the line is shorter than the whole. -/
theorem length_onLine_lt {text : List Char} (inline : ∀ char ∈ text, isInline char = true)
    (nonempty : text ≠ []) (column : Nat) (after : List Char) :
    (onLine (column + text.length) after).length < (onLine column (text ++ after)).length := by
  have positive := List.length_pos_of_ne_nil nonempty
  have length := length_onLine_append inline column after
  omega

/-! ### Double quotes -/

/-- What stands for a character inside of double quotes. -/
def escaped (char : Char) : List Char :=
  if char = '"' then ['\\', '"']
  else if char = '\\' then ['\\', '\\']
  else if char = '\n' then ['\\', 'n']
  else if char = '\r' then ['\\', 'r']
  else if char = endMark then ['\\', '0']
  else [char]

/-- A text in double quotes. -/
def doubleQuoted (text : List Char) : List Char := '"' :: (text.flatMap escaped ++ ['"'])

theorem escaped_cases (char : Char) :
    (∃ mark, escaped char = ['\\', mark] ∧ isInline mark = true ∧ isBreak mark = false ∧
        simpleEscape mark = some char) ∨
      escaped char = [char] ∧ isInline char = true ∧ char ≠ '"' ∧ char ≠ '\\' := by
  unfold escaped
  split
  · rename_i same
    exact Or.inl ⟨'"', rfl, rfl, rfl, by rw [same]; rfl⟩
  · split
    · rename_i same
      exact Or.inl ⟨'\\', rfl, rfl, rfl, by rw [same]; rfl⟩
    · split
      · rename_i same
        exact Or.inl ⟨'n', rfl, rfl, rfl, by rw [same]; rfl⟩
      · split
        · rename_i same
          exact Or.inl ⟨'r', rfl, rfl, rfl, by rw [same]; rfl⟩
        · split
          · rename_i same
            exact Or.inl ⟨'0', rfl, rfl, rfl, by rw [same]; rfl⟩
          · rename_i notQuote notBackslash notFeed notReturn notEnd
            refine Or.inr ⟨rfl, ?_, notQuote, notBackslash⟩
            simp [isInline, notFeed, notReturn, notEnd]

theorem isInline_escaped {char other : Char} (member : other ∈ escaped char) :
    isInline other = true := by
  rcases escaped_cases char with ⟨mark, isEscaped, inline, _, _⟩ | ⟨isEscaped, inline, _, _⟩
  · rw [isEscaped] at member
    rcases List.mem_pair.mp member with same | same <;> rw [same]
    · rfl
    · exact inline
  · rw [isEscaped, List.mem_singleton] at member
    rw [member]
    exact inline

theorem isInline_doubleQuoted {text : List Char} {char : Char} (member : char ∈ doubleQuoted text) :
    isInline char = true := by
  rcases List.mem_cons.mp member with same | inside
  · rw [same]
    rfl
  · rcases List.mem_append.mp inside with written | closing
    · obtain ⟨other, _, member⟩ := List.mem_flatMap.mp written
      exact isInline_escaped member
    · rw [List.mem_singleton.mp closing]
      rfl

/-- The reader is in a line, and this is what it has read with the blanks that it holds. -/
inductive Holds (read : List Char) : QuotedMode → List Char → Prop
  | text : Holds read .text read
  | blanks (held : List Char) : Holds read (.blanks held) (held ++ read)

section Quoted

variable {mode : QuotedMode} {read settled : List Char} (indent : Int) (spot : Spot) (rest : Spots)

theorem scanQuoted_blank (holds : Holds read mode settled) (blank : isBlank spot.char = true) :
    ∃ next, Holds read next (spot.char :: settled) ∧
      scanQuoted '"' indent mode read (spot :: rest) = scanQuoted '"' indent next read rest := by
  have notEnd : isEnd spot.char = false := by
    rcases (Bool.or_eq_true _ _).mp blank with same | same <;> rw [of_decide_eq_true same] <;> rfl
  -- the modes of the reader overlap, so it has no equation for each of them
  cases holds with
  | text =>
      refine ⟨_, .blanks [spot.char], ?_⟩
      rw [scanQuoted.eq_def]
      simp only [notEnd, blank]
      rfl
  | blanks held =>
      refine ⟨_, .blanks (spot.char :: held), ?_⟩
      rw [scanQuoted.eq_def]
      simp only [notEnd, blank]
      rfl

theorem scanQuoted_escape (holds : Holds read mode settled) {next : Spot} {char : Char}
    (backslash : spot.char = '\\') (inLine : isBreak next.char = false)
    (escape : simpleEscape next.char = some char) :
    scanQuoted '"' indent mode read (spot :: next :: rest) =
      scanQuoted '"' indent .text (char :: settled) rest := by
  have inLine : next.char ≠ '\n' := of_decide_eq_false inLine
  rw [scanQuoted.eq_def]
  cases holds <;>
    simp [settleQuoted, backslash, inLine, escape, isEnd, isBlank, isBreak, endMark]

theorem scanQuoted_char (holds : Holds read mode settled) (inline : isInline spot.char = true)
    (visible : isBlank spot.char = false) (notQuote : spot.char ≠ '"')
    (notBackslash : spot.char ≠ '\\') :
    scanQuoted '"' indent mode read (spot :: rest) =
      scanQuoted '"' indent .text (spot.char :: settled) rest := by
  simp only [isInline, Bool.and_eq_true, bne_iff_ne] at inline
  rw [scanQuoted.eq_def]
  cases holds <;>
    simp [settleQuoted, visible, notQuote, notBackslash, isEnd, isBreak, inline]

theorem scanQuoted_close (holds : Holds read mode settled) (quote : spot.char = '"') :
    scanQuoted '"' indent mode read (spot :: rest) = some (settled, rest) := by
  rw [scanQuoted.eq_def]
  cases holds <;> cases rest <;>
    simp [settleQuoted, quote, isEnd, isBlank, isBreak, endMark]

end Quoted

/-- A double-quoted text is read back. -/
theorem scanQuoted_escaped (indent : Int) (text after : List Char) {mode : QuotedMode}
    {read settled : List Char} (holds : Holds read mode settled) (column : Nat) :
    scanQuoted '"' indent mode read (onLine column (text.flatMap escaped ++ '"' :: after)) =
      some (text.reverse ++ settled,
        onLine (column + (text.flatMap escaped).length + 1) after) := by
  induction text generalizing mode read settled column with
  | nil =>
      rw [List.flatMap_nil, List.nil_append, onLine_cons rfl]
      exact scanQuoted_close indent _ _ holds rfl
  | cons char rest inductionHypothesis =>
      have reversed : (char :: rest).reverse ++ settled = rest.reverse ++ (char :: settled) := by
        simp
      rw [List.flatMap_cons, List.append_assoc, reversed, List.length_append]
      rcases escaped_cases char with ⟨mark, isEscaped, inline, inLine, escape⟩ |
        ⟨isEscaped, inline, notQuote, notBackslash⟩
      · have holdsText : Holds (char :: settled) .text (char :: settled) := .text
        have further := inductionHypothesis holdsText (column + 2)
        rw [isEscaped, List.cons_append, List.cons_append, List.nil_append, onLine_cons rfl,
          onLine_cons inline]
        refine (scanQuoted_escape indent _ _ holds rfl inLine escape).trans (further.trans ?_)
        rw [List.length_cons, List.length_singleton]
        ac_rfl
      · rw [isEscaped, List.cons_append, List.nil_append, onLine_cons inline, List.length_singleton,
          ← Nat.add_assoc]
        cases blank : isBlank char with
        | true =>
            obtain ⟨next, holdsNext, reads⟩ := scanQuoted_blank indent
              ⟨char, column, 1, column, false⟩
              (onLine (column + 1) (rest.flatMap escaped ++ '"' :: after)) holds blank
            exact reads.trans (inductionHypothesis holdsNext (column + 1))
        | false =>
            exact (scanQuoted_char indent _ _ holds inline blank notQuote notBackslash).trans
              (inductionHypothesis Holds.text (column + 1))

/-! ### The start of a token -/

/-- A token may begin with the character, and no gap or comment. -/
def isVisible (char : Char) : Bool := isInline char && !isBlank char && char != '#'

def beginsVisible : List Char → Bool
  | [] => false
  | char :: _ => isVisible char

section Visible

variable {text : List Char}

theorem exists_onLine_eq_cons (visible : beginsVisible text = true) (column : Nat) :
    ∃ spot rest, onLine column text = spot :: rest ∧ isVisible spot.char = true ∧
      spot.column = column := by
  cases text with
  | nil => cases visible
  | cons char rest =>
      have inline : isInline char = true := by
        simp only [beginsVisible, isVisible, Bool.and_eq_true] at visible
        exact visible.1.1
      exact ⟨_, _, onLine_cons inline column rest, visible, rfl⟩

theorem isEnd_peek_onLine (visible : beginsVisible text = true) (column : Nat) :
    isEnd (peek (onLine column text)) = false := by
  obtain ⟨spot, rest, split, isVisible, _⟩ := exists_onLine_eq_cons visible column
  simp only [Yaml.isVisible, isInline, Bool.and_eq_true, bne_iff_ne] at isVisible
  rw [split]
  exact decide_eq_false isVisible.1.1.2

theorem finishLine_onLine (visible : beginsVisible text = true) (column : Nat) :
    finishLine (onLine column text) = some ([], onLine column text) := by
  obtain ⟨spot, rest, split, isVisible, _⟩ := exists_onLine_eq_cons visible column
  simp only [Yaml.isVisible, Bool.and_eq_true, Bool.not_eq_true', bne_iff_ne] at isVisible
  rw [split]
  simp [finishLine, peek, here, isVisible]

theorem finishLine_space_onLine (visible : beginsVisible text = true) (column : Nat) :
    finishLine (onLine column (' ' :: text)) = some ([' '], onLine (column + 1) text) := by
  obtain ⟨spot, rest, split, isVisible, _⟩ := exists_onLine_eq_cons visible (column + 1)
  simp only [Yaml.isVisible, Bool.and_eq_true, Bool.not_eq_true', bne_iff_ne] at isVisible
  rw [onLine_cons rfl, split]
  simp [finishLine, peek, here, isVisible, show isBlank ' ' = true from rfl]

theorem skipGap_onLine (visible : beginsVisible text = true) (indent : Int)
    (inFlow keyAllowed : Bool) (column : Nat) :
    skipGap indent inFlow .free keyAllowed (onLine column text) =
      some (keyAllowed, onLine column text) := by
  obtain ⟨spot, rest, split, isVisible, _⟩ := exists_onLine_eq_cons visible column
  simp only [Yaml.isVisible, isInline, Bool.and_eq_true, Bool.not_eq_true',
    bne_iff_ne] at isVisible
  obtain ⟨⟨⟨⟨notFeed, _⟩, notEnd⟩, notBlank⟩, notComment⟩ := isVisible
  have notTab : spot.char ≠ '\t' := of_decide_eq_false ((Bool.or_eq_false_iff.mp notBlank).2)
  rw [split]
  simp [skipGap, isEnd, isBreak, notFeed, notEnd, notBlank, notComment, notTab]

theorem skipGap_space_onLine (visible : beginsVisible text = true) (indent : Int)
    (inFlow keyAllowed : Bool) (column : Nat) :
    skipGap indent inFlow .free keyAllowed (onLine column (' ' :: text)) =
      some (keyAllowed, onLine (column + 1) text) := by
  rw [onLine_cons rfl]
  exact skipGap_onLine visible indent inFlow keyAllowed (column + 1)

end Visible

/-- In brackets a quoted key is read up to its colon. -/
theorem readQuoted_doubleQuoted (indent : Int) (text after : List Char) (column : Nat) :
    readQuoted true indent (onLine column (doubleQuoted text ++ ':' :: after)) =
      some (String.ofList text, onLine (column + (doubleQuoted text).length) (':' :: after)) := by
  have holdsNothing : Holds [] .text [] := .text
  have reads := scanQuoted_escaped indent text (':' :: after) holdsNothing (column + 1)
  have length : (doubleQuoted text).length = (text.flatMap escaped).length + 2 := by
    simp [doubleQuoted]
  have behind : column + (doubleQuoted text).length =
      column + 1 + (text.flatMap escaped).length + 1 := by omega
  have noGap : finishLine (onLine (column + (doubleQuoted text).length) (':' :: after)) =
      some ([], onLine (column + (doubleQuoted text).length) (':' :: after)) :=
    finishLine_onLine rfl _
  rw [← behind] at reads
  rw [@onLine_cons ':' rfl] at reads noGap
  rw [doubleQuoted, List.cons_append, List.append_assoc, List.singleton_append, onLine_cons rfl,
    ← doubleQuoted, @onLine_cons ':' rfl]
  simp [readQuoted, peek, here, reads, noGap, mayFollowQuoted]

/-! ### Words -/

/-- A plain scalar in brackets ends here. -/
inductive EndsWord : List Char → Prop
  | brace (rest : List Char) : EndsWord ('}' :: rest)
  | colon (rest : List Char) : EndsWord (':' :: ' ' :: rest)

/-- Letters and digits are neither gaps nor marks. -/
theorem isAlphanum_ne {char : Char} (alphanumeric : char.isAlphanum = true) (mark : Char)
    (notAlphanumeric : mark.isAlphanum = false) : char ≠ mark := by
  rintro rfl
  exact absurd alphanumeric (by rw [notAlphanumeric]; exact Bool.false_ne_true)

theorem isVisible_alphanum {char : Char} (alphanumeric : char.isAlphanum = true) :
    isVisible char = true := by
  have other := isAlphanum_ne alphanumeric
  simp [isVisible, isInline, isBlank, endMark, other '\n' rfl, other '\r' rfl, other '\x00' rfl,
    other ' ' rfl, other '\t' rfl, other '#' rfl]

theorem isInline_alphanum {char : Char} (alphanumeric : char.isAlphanum = true) :
    isInline char = true := by
  have visible := isVisible_alphanum alphanumeric
  simp only [isVisible, Bool.and_eq_true] at visible
  exact visible.1.1

theorem isPlainChar_alphanum {spot : Spot} (alphanumeric : spot.char.isAlphanum = true)
    (rest : Spots) : isPlainChar true (spot :: rest) = true := by
  have other := isAlphanum_ne alphanumeric
  simp [isPlainChar, peek, here, isGap, isBlank, isBreak, isEnd, isFlow, endMark, other '\n' rfl,
    other '\x00' rfl, other ' ' rfl, other '\t' rfl, other ':' rfl, other ',' rfl, other '[' rfl,
    other ']' rfl, other '{' rfl, other '}' rfl]

variable {word after : List Char}

theorem scanPlain_word (alphanumeric : ∀ char ∈ word, char.isAlphanum = true)
    (ends : EndsWord after) (indent : Int) (read : List Char) (column : Nat) :
    scanPlain true indent .text read (onLine column (word ++ after)) =
      some (word.reverse ++ read, onLine (column + word.length) after) := by
  induction word generalizing read column with
  | nil => cases ends <;> rfl
  | cons char rest inductionHypothesis =>
      have charAlphanumeric := alphanumeric char List.mem_cons_self
      have inline := isInline_alphanum charAlphanumeric
      have further := inductionHypothesis
        (fun other member => alphanumeric other (List.mem_cons_of_mem _ member))
        (char :: read) (column + 1)
      have other := isAlphanum_ne charAlphanumeric
      rw [List.cons_append, onLine_cons inline, scanPlain, isPlainChar_alphanum charAlphanumeric]
      simp only [isBlank, isBreak, other ' ' rfl, other '\t' rfl, other '\n' rfl]
      refine further.trans ?_
      simp only [List.reverse_cons, List.append_assoc, List.singleton_append, List.length_cons]
      rw [Nat.add_right_comm, Nat.add_assoc column]

/-- In brackets a word is read up to its end. -/
theorem readPlain_word (alphanumeric : ∀ char ∈ word, char.isAlphanum = true)
    (nonempty : word ≠ []) (ends : EndsWord after) (indent : Int) (column : Nat) :
    readPlain true indent (onLine column (word ++ after)) =
      some (String.ofList word, onLine (column + word.length) after) := by
  have reads := scanPlain_word alphanumeric ends indent [] column
  obtain ⟨char, rest, rfl⟩ := List.exists_cons_of_ne_nil nonempty
  have charAlphanumeric := alphanumeric char List.mem_cons_self
  have other := isAlphanum_ne charAlphanumeric
  rw [List.cons_append, onLine_cons (isInline_alphanum charAlphanumeric)] at reads ⊢
  rw [readPlain, reads, if_neg]
  · simp
  · simp [stopsPlain, isLoneHyphen, here, peek, other '#' rfl, other '-' rfl]

end Rollup.Yaml

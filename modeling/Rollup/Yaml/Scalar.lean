/-
What a plain scalar stands for.

Integers are 64-bit words with a sign.  Without a core tag the kinds are tried
in a fixed order and the text itself is the last resort; a core tag asks for
one kind, and a text that is not of it stands for nothing.
-/

import Rollup.Decimal.Shortest
import Rollup.QuotedText

namespace Rollup.Yaml

inductive Scalar where
  | null
  | boolean (value : Bool)
  | integer (value : Int)
  | float (value : Binary64)
  | text (value : String)
  deriving DecidableEq

namespace Scalar

/-- Equal as keys: every value that is not a number is the same, and so are
both zeros. -/
def same : Scalar → Scalar → Bool
  | .float left, .float right => left.sameNumber right
  | left, right => left = right

/-! ### Integers -/

def minInteger : Int := -0x8000000000000000

def maxInteger : Int := 0x7fffffffffffffff

def digitInBase (base : Nat) (char : Char) : Option Nat :=
  let value :=
    if '0' ≤ char ∧ char ≤ '9' then some (char.toNat - '0'.toNat)
    else if 'a' ≤ char ∧ char ≤ 'z' then some (char.toNat - 'a'.toNat + 10)
    else if 'A' ≤ char ∧ char ≤ 'Z' then some (char.toNat - 'A'.toNat + 10)
    else none
  value.filter (· < base)

/-- The number written by some digits, going on from the number so far. -/
def natInBase (base total : Nat) : List Char → Option Nat
  | [] => some total
  | char :: rest =>
      match digitInBase base char with
      | none => none
      | some digit => natInBase base (base * total + digit) rest

/-- Reads an integer in a base: at most one sign, and at least one digit. -/
def readInteger (base : Nat) (text : List Char) : Option Int :=
  let (negative, digits) := Decimal.splitSign text
  if digits = [] then none
  else
    match natInBase base 0 digits with
    | none => none
    | some magnitude =>
        let value : Int := if negative then -magnitude else magnitude
        if minInteger ≤ value ∧ value ≤ maxInteger then some value else none

/-- An integer behind a mark for its base, or behind a plus sign. -/
def readMarkedInteger : List Char → Option Int
  | '0' :: 'x' :: digits => readInteger 16 digits
  | '0' :: 'o' :: digits => readInteger 8 digits
  | '+' :: digits => readInteger 10 digits
  | _ => none

/-! ### Floating-point values -/

def readFloat (text : List Char) : Option Binary64 :=
  let (negative, unsigned) := Decimal.splitSign text
  if [".inf", ".Inf", ".INF"].contains (String.ofList unsigned) then
    some (if negative then Binary64.infinity.negate else Binary64.infinity)
  else if [".nan", ".NaN", ".NAN"].contains (String.ofList text) then some Binary64.nan
  else if text.any Char.isDigit then Decimal.read text
  else none

/-! ### Resolution -/

/-- The kind of a plain scalar that has no core tag. -/
def guess (text : String) : Scalar :=
  match readMarkedInteger text.toList with
  | some value => .integer value
  | none =>
      if ["~", "null", "NULL"].contains text then .null
      else if text = "true" then .boolean true
      else if text = "false" then .boolean false
      else
        match readInteger 10 text.toList with
        | some value => .integer value
        | none =>
            match readFloat text.toList with
            | some value => .float value
            | none => .text text

/-- A plain scalar with a core tag, named by the tag's suffix. -/
def ofTag (suffix text : String) : Option Scalar :=
  if suffix = "bool" then
    if text = "true" then some (.boolean true)
    else if text = "false" then some (.boolean false)
    else none
  else if suffix = "int" then (readInteger 10 text.toList).map .integer
  else if suffix = "float" then (readFloat text.toList).map .float
  else if suffix = "null" then if text = "~" ∨ text = "null" then some .null else none
  else if suffix = "str" then some (.text text)
  else none

/-! ### Notices -/

/-- A scalar as a notice names it, with its kind. -/
def describe : Scalar → String
  | .null => "Null"
  | .boolean value => s!"Boolean({value})"
  | .integer value => s!"Integer({value})"
  | .float value => s!"FloatingPoint({Decimal.shortest value})"
  | .text value => s!"String({quoted value})"

end Scalar

end Rollup.Yaml

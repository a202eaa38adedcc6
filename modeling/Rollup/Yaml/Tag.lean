/-
Tags, anchors and directives.

A tag is written in full between angle brackets, or as a handle and a suffix;
which handle stands for what is declared by a directive.  Characters that may
not stand in a tag are written as percent escapes of their bytes.
-/

import Rollup.Yaml.Quoted
import Rollup.Yaml.Token

namespace Rollup.Yaml

/-! ### Percent escapes -/

def escapeWidth (byte : Nat) : Option Nat :=
  if byte < 0x80 then some 1
  else if byte / 0x20 = 0x06 then some 2
  else if byte / 0x10 = 0x0e then some 3
  else if byte / 0x08 = 0x1e then some 4
  else none

/-- Reads characters of a class, with the characters so far, the last one
first.  `missing` bytes of an escaped character are still to come behind those
in `code`, which are strung together as they are. -/
def scanUri (accepts : Char → Bool) :
    Nat → Nat → List Char → Spots → Option (List Char × Spots)
  | missing, _, read, [] => if missing = 0 then some (read, []) else none
  | missing, code, read, spot :: rest =>
      if spot.char = '%' then
        match rest with
        | high :: low :: after =>
            match hexValue high.char, hexValue low.char with
            | some highValue, some lowValue =>
                let byte := 16 * highValue + lowValue
                if missing = 0 then
                  match escapeWidth byte with
                  | none => none
                  | some 1 => scanUri accepts 0 0 (Char.ofNat byte :: read) after
                  | some width => scanUri accepts (width - 1) byte read after
                else if byte / 0x40 ≠ 2 then none
                else
                  let extended := 256 * code + byte
                  if missing = 1 then
                    match charOfCode extended with
                    | none => none
                    | some char => scanUri accepts 0 0 (char :: read) after
                  else scanUri accepts (missing - 1) extended read after
            | _, _ => none
        | _ => none
      else if missing ≠ 0 then none
      else if accepts spot.char then scanUri accepts 0 0 (spot.char :: read) rest
      else some (read, spot :: rest)

def readUri (accepts : Char → Bool) (spots : Spots) : Option (String × Spots) :=
  (scanUri accepts 0 0 [] spots).map fun (read, rest) => (String.ofList read.reverse, rest)

/-! ### Tags -/

def takeName (spots : Spots) : String × Spots :=
  (textOf (spots.takeWhile fun spot => isNameChar spot.char),
    spots.dropWhile fun spot => isNameChar spot.char)

/-- A tag between angle brackets has no handle. -/
def readFullTag (spots : Spots) : Option (Token × Spots) :=
  match readUri isUriChar (spots.drop 2) with
  | none => none
  | some (suffix, rest) =>
      if peek rest = '>' then some (.tag "" suffix, rest.tail) else none

/-- A tag that starts with an exclamation mark: between two of them stands a
handle, which needs a suffix, and a lone mark is a tag of its own. -/
def readShortTag (spots : Spots) : Option (Token × Spots) :=
  let (name, afterName) := takeName spots.tail
  if peek afterName = '!' then
    match readUri isTagChar afterName.tail with
    | none => none
    | some (suffix, rest) =>
        if suffix = "" then none else some (.tag ("!" ++ name ++ "!") suffix, rest)
  else
    match readUri isTagChar afterName with
    | none => none
    | some (more, rest) =>
        if name ++ more = "" then some (.tag "" "!", rest)
        else some (.tag "!" (name ++ more), rest)

/-- Reads a tag off the front; a gap has to follow it, or in brackets a bracket
or comma. -/
def readTag (inFlow : Bool) (spots : Spots) : Option (Token × Spots) :=
  let found := if peekNext spots = '<' then readFullTag spots else readShortTag spots
  match found with
  | none => none
  | some (token, rest) =>
      if isGap (peek rest) || (inFlow && isFlow (peek rest)) then some (token, rest) else none

def readAnchorName (spots : Spots) : Option (String × Spots) :=
  let name := spots.tail.takeWhile fun spot => isAnchorChar spot.char
  if name = [] then none
  else some (textOf name, spots.tail.dropWhile fun spot => isAnchorChar spot.char)

/-! ### Directives -/

def dropBlanks (spots : Spots) : Spots := spots.dropWhile fun spot => isBlank spot.char

def skipVersionNumber (spots : Spots) : Option Spots :=
  let digits := spots.takeWhile fun spot => spot.char.isDigit
  if digits = [] ∨ 9 < digits.length then none
  else some (spots.dropWhile fun spot => spot.char.isDigit)

def readVersion (spots : Spots) : Option (Token × Spots) :=
  match skipVersionNumber (dropBlanks spots) with
  | none => none
  | some rest =>
      if peek rest = '.' then
        (skipVersionNumber rest.tail).map fun after => (.versionDirective, after)
      else none

/-- The handle that a directive declares: one or two exclamation marks, with a
name between them if there are two. -/
def readHandle (spots : Spots) : Option (String × Spots) :=
  if peek spots ≠ '!' then none
  else
    let (name, rest) := takeName spots.tail
    if peek rest = '!' then some ("!" ++ name ++ "!", rest.tail)
    else if name = "" then some ("!", rest)
    else none

/-- What a handle stands for: a first character that may also be an
exclamation mark, and any further ones. -/
def readExpansion (spots : Spots) : Option (String × Spots) :=
  if peek spots = '!' || isTagChar (peek spots) then readUri isUriChar spots else none

def readTagDirective (spots : Spots) : Option (Token × Spots) :=
  match readHandle (dropBlanks spots) with
  | none => none
  | some (handle, afterHandle) =>
      match readExpansion (dropBlanks afterHandle) with
      | none => none
      | some (expansion, rest) =>
          if isGap (peek rest) then some (.tagDirective handle expansion, rest) else none

/-- Reads a directive and the rest of its line.  One of an unknown name counts
as a declaration of the empty handle. -/
def readDirective (spots : Spots) : Option (Token × Spots) :=
  let (name, afterName) := takeName spots.tail
  if name = "" ∨ isGap (peek afterName) = false then none
  else
    let found :=
      if name = "YAML" then readVersion afterName
      else if name = "TAG" then readTagDirective afterName
      else some (.tagDirective "" "", dropComment afterName)
    match found with
    | none => none
    | some (token, rest) =>
        match finishLine rest with
        | none => none
        | some (_, lineEnd) =>
            if isBreakOrEnd (peek lineEnd) then some (token, lineEnd) else none

end Rollup.Yaml

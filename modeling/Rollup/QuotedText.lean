/-
Text in quotes, as values are shown to developers.

Quotes and backslashes are escaped, common control characters have escapes of
their own, and what leaves no mark of its own is written as its code.  The
name of a file is quoted in the same way, its apostrophes escaped too.
-/

namespace Rollup

namespace QuotedText

/-- Code points that leave no mark of their own: blanks other than the space,
controls, format characters, private and unassigned blocks, and marks that join
the character before them. -/
def invisibleRanges : List (Nat × Nat) :=
  [(0x0, 0x1f), (0x7f, 0xa0), (0xad, 0xad), (0x300, 0x36f), (0x483, 0x489),
    (0x591, 0x5bd), (0x5bf, 0x5bf), (0x5c1, 0x5c2), (0x5c4, 0x5c5), (0x5c7, 0x5c7),
    (0x600, 0x605), (0x610, 0x61a), (0x61c, 0x61c), (0x64b, 0x65f), (0x670, 0x670),
    (0x6d6, 0x6dd), (0x6df, 0x6e4), (0x6e7, 0x6e8), (0x6ea, 0x6ed), (0x70f, 0x70f),
    (0x890, 0x891), (0x8e2, 0x8e2), (0x1680, 0x1680), (0x180b, 0x180f),
    (0x1ab0, 0x1ace), (0x1dc0, 0x1dff), (0x2000, 0x200f), (0x2028, 0x202f),
    (0x205f, 0x206f), (0x20d0, 0x20f0), (0x3000, 0x3000), (0x302a, 0x302f),
    (0x3099, 0x309a), (0xe000, 0xf8ff), (0xfe00, 0xfe0f), (0xfe20, 0xfe2f),
    (0xfeff, 0xfeff), (0xff9e, 0xff9f), (0xfff0, 0xfffb), (0xfffe, 0xffff),
    (0x1d173, 0x1d182), (0x40000, 0x10ffff)]

def isInvisible (char : Char) : Bool :=
  invisibleRanges.any fun range => range.1 ≤ char.toNat && char.toNat ≤ range.2

def codeEscape (char : Char) : List Char :=
  "\\u\x7b".toList ++ Nat.toDigits 16 char.toNat ++ ['\x7d']

def escape (char : Char) : List Char :=
  if char = '"' ∨ char = '\\' then ['\\', char]
  else if char = '\t' then ['\\', 't']
  else if char = '\n' then ['\\', 'n']
  else if char = '\r' then ['\\', 'r']
  else if char = '\x00' then ['\\', '0']
  else if isInvisible char then codeEscape char
  else [char]

def escapeInName (char : Char) : List Char :=
  if char = '\'' then ['\\', char] else escape char

end QuotedText

def quoted (text : String) : String :=
  String.ofList ('"' :: (text.toList.flatMap QuotedText.escape ++ ['"']))

def quotedName (file : String) : String :=
  String.ofList ('"' :: (file.toList.flatMap QuotedText.escapeInName ++ ['"']))

end Rollup

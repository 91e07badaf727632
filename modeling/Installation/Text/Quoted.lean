import Installation.Text.Hex
import Installation.Text.Printable

/-!
# Quoted texts

`Text.quote` shows a text between quotes on one line.  The quotes are single ones unless
the text has single and no double quotes.  A backslash stands before the quote in use and
before itself; tabulator and line ends have a letter of their own; every other character
that is not printable is shown by its code point, in two, four or eight hexadecimal digits.
-/

namespace Installation

namespace Text

/-- The quote in which a text is shown. -/
def quoteMark (cs : List Char) : Char :=
  if cs.contains '\'' && !cs.contains '\"' then '\"' else '\''

/-- A character that is not printable, by its code point. -/
def byCodePoint (c : Char) : List Char :=
  if c.toNat < 0x100 then ['\\', 'x'] ++ hex 2 c.toNat
  else if c.toNat < 0x10000 then ['\\', 'u'] ++ hex 4 c.toNat
  else ['\\', 'U'] ++ hex 8 c.toNat

/-- A character between the given quotes. -/
def quoteChar (mark c : Char) : List Char :=
  if c = mark ∨ c = '\\' then ['\\', c]
  else if c = '\t' then ['\\', 't']
  else if c = '\n' then ['\\', 'n']
  else if c = '\r' then ['\\', 'r']
  else if isPrintable c then [c]
  else byCodePoint c

/-- A text between quotes. -/
def quote (cs : List Char) : List Char :=
  let mark := quoteMark cs
  [mark] ++ cs.flatMap (quoteChar mark) ++ [mark]

end Text

end Installation

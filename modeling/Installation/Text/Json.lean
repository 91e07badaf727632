import Installation.Text.Hex

/-!
# JSON strings

`Text.jsonString` is a text as a JSON string of ASCII characters alone.  Quote and
backslash have a backslash in front, the control characters with a letter of their own are
written with it, and every other character outside the printable ASCII characters is
written as one or two code units of four hexadecimal digits.
-/

namespace Installation

namespace Text

/-- A code unit of a JSON string. -/
def codeUnit (n : Nat) : List Char := ['\\', 'u'] ++ hex 4 n

/-- A character of a JSON string. -/
def jsonChar (c : Char) : List Char :=
  if c = '\"' ∨ c = '\\' then ['\\', c]
  else if c = '\n' then ['\\', 'n']
  else if c = '\r' then ['\\', 'r']
  else if c = '\t' then ['\\', 't']
  else if c.toNat = 8 then ['\\', 'b']
  else if c.toNat = 12 then ['\\', 'f']
  else if 0x20 ≤ c.toNat ∧ c.toNat < 0x7f then [c]
  else if c.toNat < 0x10000 then codeUnit c.toNat
  else
    let n := c.toNat - 0x10000
    codeUnit (0xd800 + n / 0x400) ++ codeUnit (0xdc00 + n % 0x400)

/-- A text as a JSON string. -/
def jsonString (cs : List Char) : List Char := ['\"'] ++ cs.flatMap jsonChar ++ ['\"']

end Text

end Installation

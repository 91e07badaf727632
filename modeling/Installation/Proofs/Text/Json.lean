import Installation.Text.Json
import Mathlib.Tactic.IntervalCases

/-!
# Reading JSON strings back

`Text.readChar` reads a character of a JSON string back, whatever follows it.  No character is
written with a quote in front, so that a string ends at the first quote that is not part of a
character, and JSON strings that start two equal texts are the strings of the same text.
-/

namespace Installation

namespace Text

/-- The value of a hexadecimal digit. -/
def hexValue (c : Char) : Nat :=
  if c.toNat < 'a'.toNat then c.toNat - '0'.toNat else c.toNat - 'a'.toNat + 10

/-- The code unit at the start of a text, and what follows. -/
def readUnit : List Char → Option (Nat × List Char)
  | a :: b :: c :: d :: rest =>
    some (((hexValue a * 16 + hexValue b) * 16 + hexValue c) * 16 + hexValue d, rest)
  | _ => none

/-- The character with the given first code unit, which may need a second one, and what
follows. -/
def readEscaped (unit : Nat) (rest : List Char) : Option (Char × List Char) :=
  if 0xd800 ≤ unit ∧ unit < 0xdc00 then
    (readUnit (rest.drop 2)).map fun (low, rest) =>
      (Char.ofNat (0x10000 + (unit - 0xd800) * 0x400 + (low - 0xdc00)), rest)
  else some (Char.ofNat unit, rest)

/-- The character that a letter behind a backslash stands for. -/
def escapeLetter : Char → Char
  | 'n' => '\n'
  | 'r' => '\r'
  | 't' => '\t'
  | 'b' => Char.ofNat 8
  | 'f' => Char.ofNat 12
  | c => c

/-- The character of a JSON string at the start of a text, and what follows. -/
def readChar : List Char → Option (Char × List Char)
  | '\\' :: 'u' :: rest => (readUnit rest).bind fun (unit, rest) => readEscaped unit rest
  | '\\' :: c :: rest => some (escapeLetter c, rest)
  | '\"' :: _ => none
  | c :: rest => some (c, rest)
  | [] => none

theorem hexValue_hexDigit {n : Nat} (h : n < 16) :
  hexValue (hexDigit n) = n
  := by
  interval_cases n <;> rfl

/-- A code unit is read back. -/
theorem readUnit_hex {n : Nat} (h : n < 0x10000) (rest : List Char) :
  readUnit (hex 4 n ++ rest) = some (n, rest)
  := by
  simp only [hex, List.nil_append, List.cons_append, readUnit]
  rw [hexValue_hexDigit (by omega), hexValue_hexDigit (by omega), hexValue_hexDigit (by omega),
    hexValue_hexDigit (by omega)]
  congr 2
  omega

/-- A character outside the first plane is read back from its two code units. -/
theorem readChar_pair {c : Char} (h : 0x10000 ≤ c.toNat) (rest : List Char) :
  readChar (codeUnit (0xd800 + (c.toNat - 0x10000) / 0x400) ++
    codeUnit (0xdc00 + (c.toNat - 0x10000) % 0x400) ++ rest) = some (c, rest)
  := by
  have hlt : c.toNat < 0x110000 := by
    have hvalid := c.valid
    simp only [UInt32.isValidChar, Nat.isValidChar] at hvalid
    have hval : c.val.toNat = c.toNat := rfl
    omega
  simp only [codeUnit, List.append_assoc, List.cons_append, List.nil_append, readChar]
  rw [readUnit_hex (by omega), Option.bind_some, readEscaped, if_pos (by omega),
    List.drop_succ_cons, List.drop_succ_cons, List.drop_zero, readUnit_hex (by omega),
    Option.map_some]
  have hback : 0x10000 + (0xd800 + (c.toNat - 0x10000) / 0x400 - 0xd800) * 0x400 +
      (0xdc00 + (c.toNat - 0x10000) % 0x400 - 0xdc00) = c.toNat := by
    omega
  simp only [hback, Char.ofNat_toNat]

/-- A character of the first plane is read back from its code unit. -/
theorem readChar_codeUnit {c : Char} (h : c.toNat < 0x10000) (rest : List Char) :
  readChar (codeUnit c.toNat ++ rest) = some (c, rest)
  := by
  have hapart : ¬(0xd800 ≤ c.toNat ∧ c.toNat < 0xdc00) := by
    have hvalid := c.valid
    simp only [UInt32.isValidChar, Nat.isValidChar] at hvalid
    have hval : c.val.toNat = c.toNat := rfl
    omega
  simp only [codeUnit, List.cons_append, List.nil_append, readChar]
  rw [readUnit_hex h, Option.bind_some, readEscaped, if_neg hapart, Char.ofNat_toNat]

/-- A character is read back, whatever follows it. -/
theorem readChar_jsonChar (c : Char) (rest : List Char) :
  readChar (jsonChar c ++ rest) = some (c, rest)
  := by
  unfold jsonChar
  split
  · rename_i h
    obtain rfl | rfl := h <;> rfl
  rename_i hquote
  split
  · rename_i h
    rw [h]
    rfl
  split
  · rename_i h
    rw [h]
    rfl
  split
  · rename_i h
    rw [h]
    rfl
  split
  · rename_i h
    rw [← Char.ofNat_toNat c, h]
    rfl
  split
  · rename_i h
    rw [← Char.ofNat_toNat c, h]
    rfl
  split
  · rw [not_or] at hquote
    simp only [List.cons_append, List.nil_append]
    unfold readChar
    split <;> simp_all
  split
  · rename_i h
    exact readChar_codeUnit h rest
  · rename_i h
    exact readChar_pair (by omega) rest

/-- A text is read back up to the quote at the end of its JSON string. -/
theorem jsonChars_append_injective {cs ds rest rest' : List Char}
    (h : cs.flatMap jsonChar ++ '\"' :: rest = ds.flatMap jsonChar ++ '\"' :: rest') :
  cs = ds ∧ rest = rest'
  := by
  have hread := congrArg readChar h
  induction cs generalizing ds with
  | nil =>
    cases ds with
    | nil => simpa using h
    | cons d ds =>
      rw [List.flatMap_cons, List.append_assoc, readChar_jsonChar] at hread
      simp [readChar] at hread
  | cons c cs ih =>
    rw [List.flatMap_cons, List.append_assoc, readChar_jsonChar] at hread
    cases ds with
    | nil => simp [readChar] at hread
    | cons d ds =>
      rw [List.flatMap_cons, List.append_assoc, readChar_jsonChar] at hread
      obtain ⟨rfl, hrest⟩ := by simpa using hread
      obtain ⟨rfl, hend⟩ := ih hrest (congrArg readChar hrest)
      exact ⟨rfl, hend⟩

/-- A text is read back from its JSON string, whatever follows it. -/
theorem jsonString_append_injective {cs ds rest rest' : List Char}
    (h : jsonString cs ++ rest = jsonString ds ++ rest') :
  cs = ds ∧ rest = rest'
  := by
  apply jsonChars_append_injective
  simpa [jsonString] using h

end Text

end Installation

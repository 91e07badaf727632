import Installation.Digest.Fingerprint
import Installation.Proofs.Canonical.Exact

/-!
# Canonical texts as bytes

Canonical texts are made of ASCII characters alone, `isAscii_orderedJson`: the characters of
tokens, marks, and JSON strings in which everything else is escaped.  So the bytes of a
canonical text determine it, `asciiBytes_injective`, and with the text the value up to the
order of entries.
-/

namespace Installation

/-- Whether all characters of a text are ASCII characters. -/
def IsAscii (cs : List Char) : Prop := ∀ c ∈ cs, c.toNat < 128

@[simp]
theorem isAscii_nil :
  IsAscii []
  := by
  simp [IsAscii]

@[simp]
theorem isAscii_cons (c : Char) (cs : List Char) :
  IsAscii (c :: cs) ↔ c.toNat < 128 ∧ IsAscii cs
  := List.forall_mem_cons

@[simp]
theorem isAscii_append (cs ds : List Char) :
  IsAscii (cs ++ ds) ↔ IsAscii cs ∧ IsAscii ds
  := List.forall_mem_append

/-- The bytes of ASCII texts determine them. -/
theorem asciiBytes_injective {cs ds : List Char} (hcs : IsAscii cs) (hds : IsAscii ds)
    (h : asciiBytes cs = asciiBytes ds) :
  cs = ds
  := by
  have hbyte {c d : Char} (hc : c.toNat < 128) (hd : d.toNat < 128)
      (h : UInt8.ofNat c.toNat = UInt8.ofNat d.toNat) : c = d := by
    have hnat := congrArg UInt8.toNat h
    rw [UInt8.toNat_ofNat', UInt8.toNat_ofNat', Nat.mod_eq_of_lt (by omega),
      Nat.mod_eq_of_lt (by omega)] at hnat
    rw [← Char.ofNat_toNat c, hnat, Char.ofNat_toNat]
  induction cs generalizing ds with
  | nil =>
    cases ds with
    | nil => rfl
    | cons d ds => simp [asciiBytes] at h
  | cons c cs ih =>
    cases ds with
    | nil => simp [asciiBytes] at h
    | cons d ds =>
      rw [isAscii_cons] at hcs hds
      simp only [asciiBytes, List.map_cons, List.cons.injEq] at h ih
      rw [hbyte hcs.1 hds.1 h.1, ih hcs.2 hds.2 h.2]

/-! ### Tokens and strings -/

theorem isAscii_of_isDigit {cs : List Char} (h : ∀ c ∈ cs, c.isDigit) :
  IsAscii cs
  := by
  intro c hc
  have hdigit := h c hc
  simp only [Char.isDigit, Bool.and_eq_true, decide_eq_true_eq, UInt32.le_iff_toNat_le] at hdigit
  exact lt_of_le_of_lt hdigit.2 (by decide)

theorem isAscii_of_isToken {cs : List Char} (h : IsToken cs) :
  IsAscii cs
  := by
  intro c hc
  have htoken := h.2 c hc
  rw [isTokenChar, Char.isAlphanum] at htoken
  delta Char.isAlpha Char.isUpper Char.isLower Char.isDigit at htoken
  simp only [Bool.or_eq_true, Bool.and_eq_true, decide_eq_true_eq, beq_iff_eq,
    UInt32.le_iff_toNat_le] at htoken
  obtain (((((⟨-, h⟩ | ⟨-, h⟩) | ⟨-, h⟩) | rfl) | rfl) | rfl) := htoken
  · exact lt_of_le_of_lt h (by decide)
  · exact lt_of_le_of_lt h (by decide)
  · exact lt_of_le_of_lt h (by decide)
  · decide
  · decide
  · decide

namespace Text

theorem isAscii_hex (width n : Nat) :
  IsAscii (hex width n)
  := by
  have hdigit : ∀ m < 16, (hexDigit m).toNat < 128 := by decide
  induction width generalizing n with
  | zero => exact isAscii_nil
  | succ width ih =>
    rw [hex, isAscii_append, isAscii_cons]
    exact ⟨ih _, hdigit _ (Nat.mod_lt _ (by decide)), isAscii_nil⟩

theorem isAscii_codeUnit (n : Nat) :
  IsAscii (codeUnit n)
  := by
  rw [codeUnit, isAscii_append]
  exact ⟨by simp [IsAscii], isAscii_hex 4 n⟩

/-- Every character is escaped that is no ASCII character. -/
theorem isAscii_jsonChar (c : Char) :
  IsAscii (jsonChar c)
  := by
  unfold jsonChar
  split
  · rename_i hmark
    obtain rfl | rfl := hmark
    · simp
    · simp
  · split_ifs with _ _ _ _ _ hprintable _
    · simp
    · simp
    · simp
    · simp
    · simp
    · simpa using lt_of_lt_of_le hprintable.2 (by decide)
    · exact isAscii_codeUnit _
    · rw [isAscii_append]
      exact ⟨isAscii_codeUnit _, isAscii_codeUnit _⟩

theorem isAscii_jsonString (cs : List Char) :
  IsAscii (jsonString cs)
  := by
  have hall : IsAscii (cs.flatMap jsonChar) := by
    intro c hc
    obtain ⟨d, -, hd⟩ := List.mem_flatMap.mp hc
    exact isAscii_jsonChar d c hd
  simp [jsonString, hall]

end Text

/-! ### Values -/

theorem isAscii_commaSeparated {parts : List (List Char)} (h : ∀ part ∈ parts, IsAscii part) :
  IsAscii (commaSeparated parts)
  := by
  cases parts with
  | nil => exact isAscii_nil
  | cons part parts =>
    rw [List.forall_mem_cons] at h
    rw [commaSeparated_cons, isAscii_append]
    refine ⟨h.1, fun c hc => ?_⟩
    obtain ⟨other, hother, hmem⟩ := List.mem_flatMap.mp hc
    have hpart : IsAscii ([',', ' '] ++ other) := by simp [h.2 other hother]
    exact hpart c hmem

namespace Value

/-- The text of a JSON value with sorted names is made of ASCII characters. -/
theorem isAscii_orderedJson {v : Value} (h : IsJson v) :
  IsAscii v.orderedJson
  := by
  have hscalar {v : Value} (h : v.IsScalar) : IsAscii v.orderedJson := by
    rw [orderedJson_scalar h]
    exact isAscii_of_isToken (isToken_json h)
  induction v, h using jsonInduction with
  | onNull => exact hscalar (v := .null) trivial
  | onBool b => exact hscalar (v := .bool b) trivial
  | onInt i => exact hscalar (v := .int i) trivial
  | onFloat x => exact hscalar (v := .float x) trivial
  | onText s => exact Text.isAscii_jsonString s.toList
  | onList vs h ih =>
    have hall : IsAscii (commaSeparated (vs.map orderedJson)) :=
      isAscii_commaSeparated (List.forall_mem_map.mpr ih)
    simp [orderedJson_list, hall]
  | onObject pairs distinct h ih =>
    have hall : IsAscii (commaSeparated ((sortByText pairs).map memberJson)) := by
      apply isAscii_commaSeparated
      rw [List.forall_mem_map]
      intro p hp
      have hvalue := ih p ((sortByText_perm pairs).mem_iff.mp hp)
      simp [memberJson, Text.isAscii_jsonString, hvalue]
    simp [orderedJson_object, hall]

/-- The text of a JSON value with sorted names determines it up to the order of entries. -/
theorem orderedJson_eq_iff {v w : Value} (hv : IsJson v) (hw : IsJson w) :
  v.orderedJson = w.orderedJson ↔ Alike v w
  := by
  have hstops : Stops [] := by simp [Stops]
  constructor
  · intro h
    have happend : v.orderedJson ++ [] = w.orderedJson ++ [] := by rw [h]
    exact (orderedJson_append_injective hv hw hstops hstops happend).1
  · exact Alike.orderedJson_eq hv

end Value

end Installation

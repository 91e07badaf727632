import Installation.Number.Numeral
import Mathlib.Data.List.TakeWhile
import Mathlib.Tactic.Use

/-!
# The grammar of integer numerals

Which texts are numerals of integers, said without regard to how they are read: decimal digits,
between which single underscores may stand, a sign before them or none, and blanks around, all
in all `Numeral.Writes`.  A text is read as an integer exactly when it writes it:
`integer_ok_iff`.
-/

namespace Installation

namespace Text

/-! ### Blanks and digits -/

/-- No digit is a blank. -/
theorem isBlank_of_digitValue? {c : Char} {d : Nat} (h : digitValue? c = some d) :
  isBlank c = false
  := by
  have hapart : ∀ start ∈ zeros, ∀ k < 10, inRanges blanks (start + k) = false := by
    decide +kernel
  obtain ⟨start, hstart, -⟩ := Option.map_eq_some_iff.mp h
  have hrange := List.find?_some hstart
  obtain ⟨hlow, hhigh⟩ := of_decide_eq_true hrange
  have hblank := hapart start (List.mem_of_find?_eq_some hstart) (c.toNat - start) (by omega)
  rw [Nat.add_sub_cancel' hlow] at hblank
  exact hblank

theorem ne_of_digitValue? {c mark : Char} {d : Nat} (h : digitValue? c = some d)
    (hmark : digitValue? mark = none) :
  c ≠ mark
  := by
  rintro rfl
  rw [h] at hmark
  contradiction

/-- A text is what is left of it, with blanks around. -/
theorem exists_trim (cs : List Char) :
  ∃ front back, cs = front ++ trim cs ++ back ∧ (∀ c ∈ front, isBlank c) ∧
    ∀ c ∈ back, isBlank c
  := by
  have hfront : cs.takeWhile isBlank ++ cs.dropWhile isBlank = cs :=
    List.takeWhile_append_dropWhile
  have hback (ds : List Char) :
      (ds.reverse.dropWhile isBlank).reverse ++ (ds.reverse.takeWhile isBlank).reverse = ds := by
    rw [← List.reverse_append, List.takeWhile_append_dropWhile, List.reverse_reverse]
  use cs.takeWhile isBlank, ((cs.dropWhile isBlank).reverse.takeWhile isBlank).reverse
  constructor
  · rw [trim, List.append_assoc, hback, hfront]
  constructor
  · intro c hc
    exact List.mem_takeWhile_imp hc
  · intro c hc
    exact List.mem_takeWhile_imp (List.mem_reverse.mp hc)

theorem dropWhile_isBlank {cs : List Char} (h : ∀ c ∈ cs.head?, isBlank c = false) :
  cs.dropWhile isBlank = cs
  := by
  cases cs with
  | nil => rfl
  | cons c cs => rw [List.dropWhile_cons_of_neg (by simp [h c rfl])]

/-- Blanks around a text that neither starts nor ends with one are left out. -/
theorem trim_append {front cs back : List Char} (hfront : ∀ c ∈ front, isBlank c)
    (hback : ∀ c ∈ back, isBlank c) (hne : cs ≠ [])
    (hfirst : ∀ c ∈ cs.head?, isBlank c = false) (hlast : ∀ c ∈ cs.getLast?, isBlank c = false) :
  trim (front ++ cs ++ back) = cs
  := by
  have hstart : ∀ c ∈ (cs ++ back).head?, isBlank c = false := by
    obtain ⟨c, rest, rfl⟩ := List.exists_cons_of_ne_nil hne
    exact hfirst
  have hend : ∀ c ∈ cs.reverse.head?, isBlank c = false := by
    rw [List.head?_reverse]
    exact hlast
  rw [trim, List.append_assoc, List.dropWhile_append_of_pos hfront, dropWhile_isBlank hstart,
    List.reverse_append, List.dropWhile_append_of_pos (by simpa using hback),
    dropWhile_isBlank hend, List.reverse_reverse]

end Text

namespace Numeral

open Text

/-! ### The grammar -/

/-- Digits, of which there is at least one, and their values.  A single underscore may stand
between two of them. -/
inductive Digits : List Char → List Nat → Prop
  | last {c : Char} {d : Nat} (h : digitValue? c = some d) : Digits [c] [d]
  | next {c : Char} {d : Nat} {cs : List Char} {ds : List Nat} (h : digitValue? c = some d)
    (rest : Digits cs ds) : Digits (c :: cs) (d :: ds)
  | apart {c : Char} {d : Nat} {cs : List Char} {ds : List Nat} (h : digitValue? c = some d)
    (rest : Digits cs ds) : Digits (c :: '_' :: cs) (d :: ds)

/-- What may stand in front of digits, and whether it makes the number negative. -/
inductive Sign : List Char → Bool → Prop
  | none : Sign [] false
  | plus : Sign ['+'] false
  | minus : Sign ['-'] true

/-- Whether a text is a numeral of an integer: at most so many digits as are read, with a sign
and blanks around. -/
inductive Writes : List Char → Int → Prop
  | mk {front sign digits back : List Char} {negative : Bool} {ds : List Nat}
    (hfront : ∀ c ∈ front, isBlank c) (hsign : Sign sign negative) (hdigits : Digits digits ds)
    (hback : ∀ c ∈ back, isBlank c) (hlength : ds.length ≤ digitLimit) :
    Writes (front ++ (sign ++ digits) ++ back)
      (if negative then -(ofDigits ds : Int) else ofDigits ds)

/-! ### Reading digits -/

/-- Whether a text may follow upon a digit: none at all, or digits, after an underscore or not. -/
def Follows (cs : List Char) (ds : List Nat) : Prop :=
  cs = [] ∧ ds = [] ∨ Digits cs ds ∨ ∃ rest, cs = '_' :: rest ∧ Digits rest ds

theorem not_digits_nil (ds : List Nat) :
  ¬Digits [] ds
  := by
  rintro ⟨⟩

theorem digits_cons_iff {c : Char} {cs : List Char} {ds : List Nat} :
  Digits (c :: cs) ds ↔ ∃ d rest, digitValue? c = some d ∧ Follows cs rest ∧ d :: rest = ds
  := by
  constructor
  · intro h
    cases h with
    | last h => exact ⟨_, _, h, .inl ⟨rfl, rfl⟩, rfl⟩
    | next h rest => exact ⟨_, _, h, .inr (.inl rest), rfl⟩
    | apart h rest => exact ⟨_, _, h, .inr (.inr ⟨_, rfl, rest⟩), rfl⟩
  · rintro ⟨d, rest, h, ⟨rfl, rfl⟩ | hrest | ⟨cs, rfl, hrest⟩, rfl⟩
    · exact .last h
    · exact .next h hrest
    · exact .apart h hrest

theorem not_digits_underscore (cs : List Char) (ds : List Nat) :
  ¬Digits ('_' :: cs) ds
  := by
  have hnone : digitValue? '_' = none := by decide
  simp [digits_cons_iff, hnone]

/-- A text is read to its end as digits exactly when it is made of them, or when it may follow
upon a digit, where none has to come next. -/
theorem scanDigits_eq_some_iff (expected : Bool) (cs : List Char) (ds : List Nat) :
  scanDigits expected cs = some (ds, []) ↔ if expected then Digits cs ds else Follows cs ds
  := by
  induction cs generalizing expected ds with
  | nil => cases expected <;> simp [scanDigits, Follows, not_digits_nil, eq_comm]
  | cons c cs ih =>
    rw [scanDigits]
    by_cases hunderscore : c = '_'
    · subst hunderscore
      cases expected <;> simp [ih, Follows, not_digits_underscore]
    · rw [if_neg hunderscore]
      cases hd : digitValue? c with
      | none => cases expected <;> simp [Follows, digits_cons_iff, hd, hunderscore]
      | some d => cases expected <;> simp [ih, Follows, digits_cons_iff, hd, hunderscore]

/-- Digits start with a digit. -/
theorem Digits.exists_cons {cs : List Char} {ds : List Nat} (h : Digits cs ds) :
  ∃ c d rest, cs = c :: rest ∧ digitValue? c = some d
  := by
  cases h with
  | last h | next h rest | apart h rest => exact ⟨_, _, _, rfl, h⟩

/-- Digits end with a digit. -/
theorem Digits.exists_getLast? {cs : List Char} {ds : List Nat} (h : Digits cs ds) :
  ∃ c d, cs.getLast? = some c ∧ digitValue? c = some d
  := by
  induction h with
  | last h => exact ⟨_, _, rfl, h⟩
  | next h rest ih | apart h rest ih =>
    obtain ⟨c, d, hlast, hc⟩ := ih
    exact ⟨c, d, by simp [List.getLast?_cons, hlast], hc⟩

/-! ### Reading signs -/

/-- A text starts with a sign. -/
theorem exists_scanSign (cs : List Char) :
  ∃ sign, cs = sign ++ (scanSign cs).2 ∧ Sign sign (scanSign cs).1
  := by
  unfold scanSign
  split
  · exact ⟨_, rfl, .minus⟩
  · exact ⟨_, rfl, .plus⟩
  · exact ⟨_, rfl, .none⟩

/-- No digit is a sign. -/
theorem scanSign_append {sign cs : List Char} {negative : Bool} {ds : List Nat}
    (hsign : Sign sign negative) (h : Digits cs ds) :
  scanSign (sign ++ cs) = (negative, cs)
  := by
  obtain ⟨c, d, rest, rfl, hd⟩ := h.exists_cons
  cases hsign with
  | plus | minus => rfl
  | none =>
    rw [List.nil_append]
    unfold scanSign
    split
    · rename_i heq
      exact absurd (List.cons.inj heq).1 (ne_of_digitValue? hd (by decide))
    · rename_i heq
      exact absurd (List.cons.inj heq).1 (ne_of_digitValue? hd (by decide))
    · rfl

/-- Signs and digits are no blanks. -/
theorem trim_numeral {front sign digits back : List Char} {negative : Bool} {ds : List Nat}
    (hfront : ∀ c ∈ front, isBlank c) (hsign : Sign sign negative) (hdigits : Digits digits ds)
    (hback : ∀ c ∈ back, isBlank c) :
  trim (front ++ (sign ++ digits) ++ back) = sign ++ digits
  := by
  obtain ⟨c, d, rest, rfl, hd⟩ := hdigits.exists_cons
  obtain ⟨c', d', hlast, hd'⟩ := hdigits.exists_getLast?
  apply trim_append hfront hback
  · simp
  · intro x hx
    cases hsign with
    | none =>
      obtain rfl := Option.some.inj hx
      exact isBlank_of_digitValue? hd
    | plus | minus =>
      obtain rfl := Option.some.inj hx
      decide
  · intro x hx
    rw [List.getLast?_append, hlast, Option.some_or] at hx
    obtain rfl := Option.some.inj hx
    exact isBlank_of_digitValue? hd'

/-! ### Reading integers -/

/-- A text is read as an integer exactly when it is a numeral of it. -/
theorem integer_ok_iff (cs : List Char) (i : Int) :
  integer cs = .ok i ↔ Writes cs i
  := by
  constructor
  · intro h
    obtain ⟨front, back, htrim, hfront, hback⟩ := exists_trim cs
    obtain ⟨sign, hsplit, hsign⟩ := exists_scanSign (trim cs)
    unfold integer at h
    generalize scanSign (trim cs) = scanned at h hsplit hsign
    obtain ⟨negative, digits⟩ := scanned
    simp only at h hsplit hsign
    split at h
    · contradiction
    · rename_i ds rest hscan
      split at h
      · contradiction
      · rename_i hlength
        split at h
        · rename_i hrest
          obtain rfl := List.isEmpty_iff.mp hrest
          have hdigits := (scanDigits_eq_some_iff true digits ds).mp hscan
          obtain rfl := Except.ok.inj h
          rw [htrim, hsplit]
          exact .mk hfront hsign hdigits hback (Nat.le_of_not_lt hlength)
        · contradiction
  · rintro ⟨hfront, hsign, hdigits, hback, hlength⟩
    have hscan := (scanDigits_eq_some_iff true _ _).mpr hdigits
    unfold integer
    rw [trim_numeral hfront hsign hdigits hback, scanSign_append hsign hdigits]
    simp only [hscan, if_neg (Nat.not_lt.mpr hlength), List.isEmpty_nil, if_true]

example : integer [' ', '-', '1', '_', '0'] = .ok (-10) := by decide

end Numeral

end Installation

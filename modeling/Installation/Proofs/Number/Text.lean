import Installation.Number.Shortest

/-!
# The texts of numbers

Which characters the texts of integers and of numbers are made of.  The text of an integer has
digits and a sign, and it determines the integer.  The text of a finite number has a point or an
exponent besides, so that no integer is written like it.
-/

namespace Installation

/-- Whether a character is one that decimals are written with. -/
def isNumeralChar (c : Char) : Bool :=
  c.isDigit || c == '-' || c == '+' || c == '.' || c == 'e'

theorem isDigit_of_mem_digitsOf {n : Nat} {c : Char} (h : c ∈ digitsOf n) :
  c.isDigit
  := Nat.isDigit_of_mem_toDigits (by decide) (by decide) h

theorem digitsOf_ne_nil (n : Nat) :
  digitsOf n ≠ []
  := Nat.toDigits_ne_nil

/-- The digits of a natural number determine it. -/
theorem digitsOf_injective {m n : Nat} (h : digitsOf m = digitsOf n) :
  m = n
  := by
  have hread := congrArg (Nat.ofDigitChars 10 · 0) h
  simpa [digitsOf, Nat.ofDigitChars_ten_toDigits] using hread

/-- The text of an integer has digits and a sign. -/
theorem isDigit_or_sign_of_mem_integerText {i : Int} {c : Char} (h : c ∈ integerText i) :
  c.isDigit ∨ c = '-'
  := by
  unfold integerText signed at h
  split at h
  · obtain rfl | h := List.mem_cons.mp h
    · exact .inr rfl
    · exact .inl (isDigit_of_mem_digitsOf h)
  · exact .inl (isDigit_of_mem_digitsOf h)

/-- A text that starts with a sign is not that of digits. -/
theorem digitsOf_ne_sign_cons (n : Nat) (cs : List Char) :
  digitsOf n ≠ '-' :: cs
  := by
  intro h
  have hsign : '-' ∈ digitsOf n := by simp [h]
  exact absurd (isDigit_of_mem_digitsOf hsign) (by decide)

/-- The text of an integer determines it. -/
theorem integerText_injective {i j : Int} (h : integerText i = integerText j) :
  i = j
  := by
  unfold integerText signed at h
  by_cases hi : i < 0 <;> by_cases hj : j < 0 <;> simp only [hi, hj, decide_true, decide_false,
    Bool.false_eq_true, if_true, if_false] at h
  · have := digitsOf_injective (List.cons.inj h).2
    omega
  · exact absurd h.symm (digitsOf_ne_sign_cons _ _)
  · exact absurd h (digitsOf_ne_sign_cons _ _)
  · have := digitsOf_injective h
    omega

namespace Decimal

theorem isDigit_of_mem_significant {x : Decimal} {c : Char} (h : c ∈ x.significant) :
  c.isDigit
  := by
  rw [significant, List.mem_reverse] at h
  have := (List.dropWhile_sublist _).subset h
  exact isDigit_of_mem_digitsOf (List.mem_reverse.mp this)

/-- A positional text has digits and a point. -/
theorem isDigit_or_point_of_mem_positional {digits : List Char} {place : Int} {c : Char}
    (hdigits : ∀ d ∈ digits, d.isDigit) (h : c ∈ positional digits place) :
  c.isDigit ∨ c = '.'
  := by
  have hzero : ('0').isDigit := by decide
  unfold positional at h
  split at h
  · simp only [List.mem_append, List.mem_cons, List.mem_replicate, List.not_mem_nil, or_false] at h
    obtain ((rfl | rfl) | ⟨-, rfl⟩) | h := h
    · exact .inl hzero
    · exact .inr rfl
    · exact .inl hzero
    · exact .inl (hdigits c h)
  · simp only [List.mem_append, List.mem_cons, List.mem_replicate, List.not_mem_nil, or_false] at h
    obtain ((h | ⟨-, rfl⟩) | rfl) | h := h
    · exact .inl (hdigits c (List.mem_of_mem_take h))
    · exact .inl hzero
    · exact .inr rfl
    · split at h
      · obtain rfl : c = '0' := by simpa using h
        exact .inl hzero
      · exact .inl (hdigits c (List.mem_of_mem_drop h))

/-- The point is in a positional text. -/
theorem point_mem_positional (digits : List Char) (place : Int) :
  '.' ∈ positional digits place
  := by
  unfold positional
  split <;> simp

/-- The mark of the exponent is in a scientific text. -/
theorem mark_mem_scientific (layout : Layout) (digits : List Char) (place : Int) :
  layout.mark ∈ scientific layout digits place
  := by
  simp [scientific]

/-- A scientific text has digits, a point, signs and the mark of the exponent. -/
theorem isNumeralChar_of_mem_scientific {layout : Layout} {digits : List Char} {place : Int}
    {c : Char} (hmark : layout.mark = 'e') (hdigits : ∀ d ∈ digits, d.isDigit)
    (h : c ∈ scientific layout digits place) :
  isNumeralChar c
  := by
  have hdigit {d : Char} (hd : d.isDigit) : isNumeralChar d := by simp [isNumeralChar, hd]
  simp only [scientific, List.mem_append, List.mem_cons, List.mem_replicate, List.not_mem_nil,
    or_false, hmark] at h
  obtain (((h | h) | (rfl | rfl)) | ⟨-, rfl⟩) | h := h
  · exact hdigit (hdigits c (List.mem_of_mem_take h))
  · split at h
    · simp at h
    · obtain rfl | h := List.mem_cons.mp h
      · rfl
      · exact hdigit (hdigits c (List.mem_of_mem_drop h))
  · rfl
  · split <;> rfl
  · rfl
  · exact hdigit (isDigit_of_mem_digitsOf h)

theorem isNumeralChar_of_mem_write {layout : Layout} {x : Decimal} {c : Char}
    (hmark : layout.mark = 'e') (h : c ∈ x.write layout) :
  isNumeralChar c
  := by
  unfold write at h
  split at h
  · obtain h | rfl :=
      isDigit_or_point_of_mem_positional (fun _ => isDigit_of_mem_significant) h
    · simp [isNumeralChar, h]
    · rfl
  · exact isNumeralChar_of_mem_scientific hmark (fun _ => isDigit_of_mem_significant) h

/-- The text of a decimal has a point or an exponent. -/
theorem point_or_mark_mem_write (layout : Layout) (x : Decimal) :
  '.' ∈ x.write layout ∨ layout.mark ∈ x.write layout
  := by
  unfold write
  split
  · exact .inl (point_mem_positional _ _)
  · exact .inr (mark_mem_scientific _ _ _)

end Decimal

theorem mem_signed {negative : Bool} {cs : List Char} {c : Char} (h : c ∈ signed negative cs) :
  c = '-' ∨ c ∈ cs
  := by
  cases negative with
  | false => exact .inr h
  | true => exact List.mem_cons.mp h

theorem mem_signed_of_mem (negative : Bool) {cs : List Char} {c : Char} (h : c ∈ cs) :
  c ∈ signed negative cs
  := by
  cases negative with
  | false => exact h
  | true => exact List.mem_cons_of_mem _ h

namespace Binary64

/-- The text of a finite number has the characters of decimals. -/
theorem isNumeralChar_of_mem_write {style : NumberStyle} (hmark : style.layout.mark = 'e')
    {negative : Bool} {m : Nat} {q : Int} {reduced : Reduced m q} {c : Char}
    (h : c ∈ (finite negative m q reduced).write style) :
  isNumeralChar c
  := by
  obtain rfl | h := mem_signed h
  · rfl
  · exact Decimal.isNumeralChar_of_mem_write hmark h

/-- The text of a finite number has a point or an exponent. -/
theorem point_or_mark_mem_write (style : NumberStyle) (negative : Bool) (m : Nat) (q : Int)
    (reduced : Reduced m q) :
  '.' ∈ (finite negative m q reduced).write style ∨
    style.layout.mark ∈ (finite negative m q reduced).write style
  := by
  obtain h | h := Decimal.point_or_mark_mem_write style.layout
    (if m = 0 then ⟨0, 0⟩ else shortest m q)
  · exact .inl (mem_signed_of_mem negative h)
  · exact .inr (mem_signed_of_mem negative h)

end Binary64

end Installation

import Installation.Proofs.Number.Text
import Installation.Proofs.Text.Json
import Installation.Proofs.Value.Alike
import Installation.Value.Canonical

/-!
# Tokens of canonical texts

Where one value of a canonical text ends and what follows begins.  A value is followed by one of
the characters at which tokens stop, or by nothing; the texts of null, booleans and numbers are
tokens, which have none of these characters.  Two scalars with the same token are alike, so that
null, booleans, integers and numbers are told apart.
-/

namespace Installation

/-- Whether a character may stand in a token. -/
def isTokenChar (c : Char) : Bool := c.isAlphanum || c == '-' || c == '+' || c == '.'

/-- A text that is a token. -/
def IsToken (cs : List Char) : Prop := cs ≠ [] ∧ ∀ c ∈ cs, isTokenChar c

theorem isToken_of_all {cs : List Char} (hgiven : cs ≠ []) (hall : cs.all isTokenChar = true) :
  IsToken cs
  := ⟨hgiven, List.all_eq_true.mp hall⟩

/-- A text at whose start no token goes on. -/
def Stops (cs : List Char) : Prop := ∀ c ∈ cs.head?, ¬isTokenChar c

/-- Tokens end where they stop. -/
theorem token_append_injective {xs ys rest rest' : List Char} (hxs : ∀ c ∈ xs, isTokenChar c)
    (hys : ∀ c ∈ ys, isTokenChar c) (hrest : Stops rest) (hrest' : Stops rest')
    (h : xs ++ rest = ys ++ rest') :
  xs = ys ∧ rest = rest'
  := by
  induction xs generalizing ys with
  | nil =>
    cases ys with
    | nil => exact ⟨rfl, h⟩
    | cons y ys =>
      obtain rfl : rest = y :: (ys ++ rest') := h
      exact absurd (hys y (by simp)) (hrest y (by simp))
  | cons x xs ih =>
    cases ys with
    | nil =>
      obtain rfl : x :: (xs ++ rest) = rest' := h
      exact absurd (hxs x (by simp)) (hrest' x (by simp))
    | cons y ys =>
      obtain ⟨rfl, htail⟩ := List.cons.inj h
      obtain ⟨rfl, hend⟩ := ih (fun c hc => hxs c (List.mem_cons_of_mem _ hc))
        (fun c hc => hys c (List.mem_cons_of_mem _ hc)) htail
      exact ⟨rfl, hend⟩

theorem isTokenChar_of_isDigit {c : Char} (h : c.isDigit) :
  isTokenChar c
  := by
  simp [isTokenChar, Char.isAlphanum, h]

theorem isTokenChar_of_isNumeralChar {c : Char} (h : isNumeralChar c) :
  isTokenChar c
  := by
  simp only [isNumeralChar, Bool.or_eq_true, beq_iff_eq] at h
  obtain (((h | rfl) | rfl) | rfl) | rfl := h
  · exact isTokenChar_of_isDigit h
  all_goals rfl

namespace Binary64

/-- No finite number is written with other characters than decimals are. -/
theorem write_finite_ne {style : NumberStyle} (hmark : style.layout.mark = 'e') {cs : List Char}
    {c : Char} (hmem : c ∈ cs) (hother : isNumeralChar c = false) (negative : Bool) (m : Nat)
    (q : Int) (reduced : Reduced m q) :
  (finite negative m q reduced).write style ≠ cs
  := by
  rintro rfl
  rw [isNumeralChar_of_mem_write hmark hmem] at hother
  contradiction

theorem write_nan (payload : Nat) :
  (nan payload).write jsonNumbers = ['N', 'a', 'N']
  := rfl

/-- The text of an infinity has a letter that other numbers do not have. -/
theorem letter_mem_infinite (negative : Bool) :
  'I' ∈ (infinite negative).write jsonNumbers
  := mem_signed_of_mem negative (by decide)

/-- Two ways to sign the same text differ. -/
theorem signed_injective {negative other : Bool} {cs : List Char}
    (h : signed negative cs = signed other cs) :
  negative = other
  := by
  have hlength := congrArg List.length h
  cases negative <;> cases other <;> simp [signed] at hlength ⊢

/-- Numbers that one style writes the same are written the same in every style with its
layout, if letters tell the names of the style from each other and from decimals. -/
theorem write_eq_of_write_eq {style other : NumberStyle} (hlayout : style.layout = other.layout)
    (hmark : style.layout.mark = 'e')
    (hnan : ∃ c ∈ style.nan.toList, isNumeralChar c = false)
    (hinfinity : ∃ c ∈ style.infinity.toList, isNumeralChar c = false ∧ c ∉ style.nan.toList)
    {x y : Binary64} (h : x.write style = y.write style) :
  x.write other = y.write other
  := by
  obtain ⟨n, hn, hnother⟩ := hnan
  obtain ⟨i, hi, hiother, hinot⟩ := hinfinity
  have hmem (negative : Bool) : i ∈ (infinite negative).write style :=
    mem_signed_of_mem negative hi
  cases x with
  | nan payload =>
    cases y with
    | nan payload' => rfl
    | infinite negative =>
      have hletter := hmem negative
      rw [← h] at hletter
      exact absurd hletter hinot
    | finite negative m q reduced =>
      exact absurd h.symm (write_finite_ne hmark hn hnother _ _ _ _)
  | infinite negative =>
    cases y with
    | nan payload =>
      have hletter := hmem negative
      rw [h] at hletter
      exact absurd hletter hinot
    | infinite negative' => rw [signed_injective h]
    | finite negative' m q reduced =>
      exact absurd h.symm (write_finite_ne hmark (hmem negative) hiother _ _ _ _)
  | finite negative m q reduced =>
    cases y with
    | nan payload => exact absurd h (write_finite_ne hmark hn hnother _ _ _ _)
    | infinite negative' =>
      exact absurd h (write_finite_ne hmark (hmem negative') hiother _ _ _ _)
    | finite negative' m' q' reduced' =>
      simp only [write, hlayout] at h ⊢
      exact h

/-- Numbers have the same canonical text exactly when they have the same literal. -/
theorem write_jsonNumbers_eq_iff {x y : Binary64} :
  x.write jsonNumbers = y.write jsonNumbers ↔ x.write literalNumbers = y.write literalNumbers
  := by
  have hlayout : jsonNumbers.layout = literalNumbers.layout := rfl
  constructor
  · exact write_eq_of_write_eq hlayout rfl ⟨'N', by decide, by decide⟩
      ⟨'I', by decide, by decide, by decide⟩
  · exact write_eq_of_write_eq hlayout.symm rfl ⟨'n', by decide, by decide⟩
      ⟨'i', by decide, by decide, by decide⟩

/-- The canonical text of a number is a token. -/
theorem isToken_write (x : Binary64) :
  IsToken (x.write jsonNumbers)
  := by
  cases x with
  | nan payload =>
    rw [write_nan]
    exact isToken_of_all (by decide) (by decide)
  | infinite negative =>
    cases negative
    · exact isToken_of_all (by decide) (by decide)
    · exact isToken_of_all (by decide) (by decide)
  | finite negative m q reduced =>
    constructor
    · intro hnil
      obtain h | h := point_or_mark_mem_write jsonNumbers negative m q reduced
      all_goals simp [hnil] at h
    · exact fun c hc => isTokenChar_of_isNumeralChar (isNumeralChar_of_mem_write rfl hc)

/-- The canonical text of a number is not made of digits and signs alone. -/
theorem write_ne_integerText (x : Binary64) (i : Int) :
  x.write jsonNumbers ≠ integerText i
  := by
  intro h
  have hpure {c : Char} (hc : c ∈ x.write jsonNumbers) : c.isDigit ∨ c = '-' := by
    rw [h] at hc
    exact isDigit_or_sign_of_mem_integerText hc
  cases x with
  | nan payload => exact absurd (hpure (c := 'N') (by simp [write_nan])) (by decide)
  | infinite negative => exact absurd (hpure (letter_mem_infinite negative)) (by decide)
  | finite negative m q reduced =>
    obtain hc | hc := point_or_mark_mem_write jsonNumbers negative m q reduced
    · exact absurd (hpure hc) (by decide)
    · exact absurd (hpure hc) (by decide)

end Binary64

/-! ### Scalars -/

namespace Value

/-- The words for null and the booleans. -/
def words : List (List Char) := ["null".toList, "true".toList, "false".toList]

/-- A word has a letter that is in no decimal, and not the ones that are in the names of
numbers. -/
theorem exists_letter_of_mem_words {word : List Char} (h : word ∈ words) :
  'N' ∉ word ∧ 'I' ∉ word ∧ ∃ c ∈ word, isNumeralChar c = false
  := by
  simp only [words, List.mem_cons, List.not_mem_nil, or_false] at h
  obtain rfl | rfl | rfl := h
  · exact ⟨by decide, by decide, 'n', by decide, rfl⟩
  · exact ⟨by decide, by decide, 't', by decide, rfl⟩
  · exact ⟨by decide, by decide, 'f', by decide, rfl⟩

/-- No number is written like a word. -/
theorem write_ne_word (x : Binary64) {word : List Char} (h : word ∈ words) :
  x.write jsonNumbers ≠ word
  := by
  obtain ⟨hN, hI, c, hc, hother⟩ := exists_letter_of_mem_words h
  cases x with
  | nan payload =>
    rintro rfl
    simp [Binary64.write_nan] at hN
  | infinite negative =>
    rintro rfl
    exact hI (Binary64.letter_mem_infinite negative)
  | finite negative m q reduced => exact Binary64.write_finite_ne rfl hc hother _ _ _ _

/-- No integer is written like a word. -/
theorem integerText_ne_word (i : Int) {word : List Char} (h : word ∈ words) :
  integerText i ≠ word
  := by
  obtain ⟨-, -, c, hc, hother⟩ := exists_letter_of_mem_words h
  rintro rfl
  obtain hdigit | rfl := isDigit_or_sign_of_mem_integerText hc
  · simp [isNumeralChar, hdigit] at hother
  · exact absurd hother (by decide)

/-- Whether a value is null, a boolean or a number. -/
def IsScalar : Value → Prop
  | .null | .bool _ | .int _ | .float _ => True
  | _ => False

/-- The text of a scalar is a token. -/
theorem isToken_json {v : Value} (h : v.IsScalar) :
  IsToken v.json
  := by
  cases v with
  | null => exact isToken_of_all (by decide) (by decide)
  | bool b =>
    cases b
    · exact isToken_of_all (by decide) (by decide)
    · exact isToken_of_all (by decide) (by decide)
  | int i =>
    constructor
    · unfold json integerText signed
      split
      · simp
      · exact digitsOf_ne_nil _
    · intro c hc
      obtain hdigit | rfl := isDigit_or_sign_of_mem_integerText hc
      · exact isTokenChar_of_isDigit hdigit
      · rfl
  | float x => exact Binary64.isToken_write x
  | _ => contradiction

theorem json_bool_mem_words (b : Bool) :
  (bool b).json ∈ words
  := by
  cases b <;> decide

/-- Scalars with the same text are alike. -/
theorem alike_of_json_eq {v w : Value} (hv : v.IsScalar) (hw : w.IsScalar)
    (h : v.json = w.json) :
  Alike v w
  := by
  cases v with
  | null =>
    cases w with
    | null => exact .null
    | bool b => cases b <;> exact absurd h (by decide)
    | int i => exact absurd h.symm (integerText_ne_word i (by decide))
    | float x => exact absurd h.symm (write_ne_word x (by decide))
    | _ => contradiction
  | bool b =>
    cases w with
    | null => cases b <;> exact absurd h (by decide)
    | bool c =>
      obtain rfl : b = c := by
        cases b <;> cases c <;> first | rfl | exact absurd h (by decide)
      exact .bool b
    | int i => exact absurd h.symm (integerText_ne_word i (json_bool_mem_words b))
    | float x => exact absurd h.symm (write_ne_word x (json_bool_mem_words b))
    | _ => contradiction
  | int i =>
    cases w with
    | null => exact absurd h (integerText_ne_word i (by decide))
    | bool b => exact absurd h (integerText_ne_word i (json_bool_mem_words b))
    | int j =>
      obtain rfl := integerText_injective h
      exact .int i
    | float x => exact absurd h.symm (Binary64.write_ne_integerText x i)
    | _ => contradiction
  | float x =>
    cases w with
    | null => exact absurd h (write_ne_word x (by decide))
    | bool b => exact absurd h (write_ne_word x (json_bool_mem_words b))
    | int i => exact absurd h (Binary64.write_ne_integerText x i)
    | float y => exact .float (Binary64.write_jsonNumbers_eq_iff.mp h)
    | _ => contradiction
  | _ => contradiction

end Value

end Installation

import Installation.Number.Binary64
import Mathlib.Tactic.Use

/-!
# Numbers that denote zero and one

Reduced forms are unique, so that the point zero is denoted by the two zeros alone, and the
point one by a single number: `Binary64.denotes_zero_iff` and `Binary64.denotes_one_iff`.
-/

namespace Installation

namespace Binary64

/-- The number one. -/
def one : Binary64 := .finite false (Nat.pow 2 52) (-52) (by decide)

/-- Whether a number denotes the point of an integer. -/
def Denotes (x : Binary64) (i : Int) : Prop := ∃ p, x.extended? = some p ∧ p.same (.ofInt i)

section Reduced

variable {m : Nat} {q : Int} (h : Reduced m q)

include h

/-- The significand zero has the least exponent. -/
theorem Reduced.eq_zero (hzero : m * Nat.pow 2 q.toNat = 0) :
  m = 0 ∧ q = -1074
  := by
  obtain ⟨-, -, -, hfull⟩ := h
  obtain rfl | hpower := Nat.mul_eq_zero.mp hzero
  · exact ⟨rfl, hfull.resolve_left (by decide)⟩
  · exact absurd hpower (Nat.ne_of_gt (Nat.two_pow_pos _))

/-- A full significand makes one with a single exponent. -/
theorem Reduced.eq_one (hone : m * Nat.pow 2 q.toNat = Nat.pow 2 (-q).toNat) :
  m = Nat.pow 2 52 ∧ q = -52
  := by
  obtain ⟨hm, -, -, hfull⟩ := h
  simp only [Nat.pow_eq] at hm hfull hone ⊢
  by_cases hq : 0 ≤ q
  · -- Whole numbers with a full significand are far above one.
    rw [Int.toNat_of_nonpos (by omega : -q ≤ 0), Nat.pow_zero] at hone
    have := Nat.eq_one_of_mul_eq_one_right hone
    omega
  · rw [Int.toNat_of_nonpos (by omega : q ≤ 0), Nat.pow_zero, Nat.mul_one] at hone
    have hbelow : (-q).toNat < 53 := by
      rw [hone] at hm
      exact (Nat.pow_lt_pow_iff_right (by decide)).mp hm
    have habove : 52 ≤ (-q).toNat := by
      obtain hfull | rfl := hfull
      · rw [hone] at hfull
        exact (Nat.pow_le_pow_iff_right (by decide)).mp hfull
      · omega
    obtain rfl : q = -52 := by omega
    exact ⟨hone, rfl⟩

end Reduced

/-- A finite number denotes an integer when its numerator is as many times its denominator. -/
theorem denotes_finite_iff {negative : Bool} {m : Nat} {q : Int} {reduced : Reduced m q}
    (i : Int) :
  (finite negative m q reduced).Denotes i ↔
    (if negative then -((m * Nat.pow 2 q.toNat : Nat) : Int) else (m * Nat.pow 2 q.toNat : Nat)) =
      i * (Nat.pow 2 (-q).toNat : Nat)
  := by
  constructor
  · rintro ⟨p, hp, hsame⟩
    obtain rfl := Option.some.inj hp
    simpa [Extended.same, Extended.ofInt] using hsame
  · intro h
    exact ⟨_, rfl, by simpa [Extended.same, Extended.ofInt] using h⟩

/-- An infinity denotes no integer. -/
theorem not_denotes_infinite (negative : Bool) (i : Int) :
  ¬(infinite negative).Denotes i
  := by
  rintro ⟨p, hp, hsame⟩
  cases negative with
  | false | true =>
    obtain rfl := Option.some.inj hp
    contradiction

/-- Zero is denoted by the zeros of both signs, and by nothing else. -/
theorem denotes_zero_iff (x : Binary64) :
  x.Denotes 0 ↔ ∃ negative, x = zero negative
  := by
  constructor
  · intro h
    cases x with
    | nan payload => simp [Denotes, extended?] at h
    | infinite negative => exact absurd h (not_denotes_infinite negative 0)
    | finite negative m q reduced =>
      rw [denotes_finite_iff, Int.zero_mul] at h
      obtain ⟨rfl, rfl⟩ := reduced.eq_zero (by split at h <;> omega)
      exact ⟨negative, rfl⟩
  · rintro ⟨negative, rfl⟩
    rw [zero, denotes_finite_iff, Nat.zero_mul, Int.zero_mul]
    cases negative <;> rfl

/-- One is denoted by a single number. -/
theorem denotes_one_iff (x : Binary64) :
  x.Denotes 1 ↔ x = one
  := by
  constructor
  · intro h
    cases x with
    | nan payload => simp [Denotes, extended?] at h
    | infinite negative => exact absurd h (not_denotes_infinite negative 1)
    | finite negative m q reduced =>
      rw [denotes_finite_iff, Int.one_mul] at h
      cases negative with
      | false =>
        obtain ⟨rfl, rfl⟩ := reduced.eq_one (Int.ofNat.inj h)
        rfl
      | true =>
        have hpositive : 0 < Nat.pow 2 (-q).toNat := Nat.two_pow_pos _
        simp only [if_true] at h
        omega
  · rintro rfl
    rw [one, denotes_finite_iff]
    rfl

end Binary64

end Installation

/-!
# Binary floating-point numbers

A `Binary64` is a number of the 64-bit binary format, given by what it denotes: values
that are no number and are told apart by a payload, two infinities, and the finite numbers
`± m * 2 ^ q` in reduced form, with zeros of both signs.  Reduced forms are unique, so that
two equal data are the same number and the other way round.  `Binary64.extended?` is the exact
point of the extended line that is denoted, on which numbers are compared, and
`Binary64.nearest` rounds a ratio to the nearest number, a tie going to the even
significand.
-/

namespace Installation

/-- A significand below `2 ^ 53` and an exponent in range, the significand being full
unless the exponent is the least one. -/
def Binary64.Reduced (m : Nat) (q : Int) : Prop :=
  m < Nat.pow 2 53 ∧ -1074 ≤ q ∧ q ≤ 971 ∧ (Nat.pow 2 52 ≤ m ∨ q = -1074)

instance (m : Nat) (q : Int) : Decidable (Binary64.Reduced m q) := by
  unfold Binary64.Reduced
  infer_instance

/-- A number of the 64-bit binary format. -/
inductive Binary64 where
  | nan (payload : Nat)
  | infinite (negative : Bool)
  | finite (negative : Bool) (m : Nat) (q : Int) (reduced : Binary64.Reduced m q)
deriving DecidableEq

/-- A point of the extended line: an infinity, or the ratio `num / den`. -/
inductive Extended where
  | below
  | ratio (num : Int) (den : Nat)
  | above
deriving DecidableEq

namespace Extended

/-- The point of an integer. -/
def ofInt (i : Int) : Extended := .ratio i 1

/-- Whether two points are the same; ratios are compared by cross multiplication. -/
def same : Extended → Extended → Bool
  | .below, .below => true
  | .above, .above => true
  | .ratio n d, .ratio n' d' => n * d' == n' * d
  | _, _ => false

/-- Whether the first point lies strictly below the second. -/
def less : Extended → Extended → Bool
  | .below, .below => false
  | .below, _ => true
  | .ratio _ _, .below => false
  | .ratio n d, .ratio n' d' => decide (n * d' < n' * d)
  | .ratio _ _, .above => true
  | .above, _ => false

theorem same_ofInt (i j : Int) :
  same (ofInt i) (ofInt j) = (i == j)
  := by
  simp [same, ofInt]

theorem less_ofInt (i j : Int) :
  less (ofInt i) (ofInt j) = decide (i < j)
  := by
  simp [less, ofInt]

end Extended

namespace Binary64

/-- The point denoted by a number, if it denotes one. -/
def extended? : Binary64 → Option Extended
  | .nan _ => none
  | .infinite true => some .below
  | .infinite false => some .above
  | .finite negative m q _ =>
    let num : Int := (m * Nat.pow 2 q.toNat : Nat)
    some (.ratio (if negative then -num else num) (Nat.pow 2 (-q).toNat))

/-- The zero of the given sign. -/
def zero (negative : Bool) : Binary64 :=
  .finite negative 0 (-1074) (by decide)

/-- A number that carries a payload, if it is one of those that do. -/
def withPayload (payload : Nat) : Binary64 → Binary64
  | .nan _ => .nan payload
  | x => x

/-- Whether a number is one of the two zeros. -/
def isZero : Binary64 → Bool
  | .finite _ m _ _ => m == 0
  | _ => false

/-- The quotient `num / den` rounded to the nearest natural number, a half to the even
one. -/
def roundQuotient (num den : Nat) : Nat :=
  let quotient := num / den
  let twice := 2 * (num % den)
  if twice < den then quotient
  else if den < twice then quotient + 1
  else quotient + quotient % 2

/-- The ratio `num / den` in units of `2 ^ q`, as a numerator and a denominator. -/
def inUnits (num den : Nat) (q : Int) : Nat × Nat :=
  (num * Nat.pow 2 (-q).toNat, den * Nat.pow 2 q.toNat)

/-- The exponent whose units divide a positive ratio `num / den` into 53 binary digits,
or the least exponent when that one is out of range. -/
def unitExponent (num den : Nat) : Int :=
  let q : Int := num.log2 - den.log2 - 52
  let (n, d) := inUnits num den q
  max (if n < d * Nat.pow 2 52 then q - 1 else q) (-1074)

/-- The number nearest to `num / den`, with the given sign; an infinity when every
finite number is too small. -/
def nearest (negative : Bool) (num den : Nat) : Binary64 :=
  if num = 0 then zero negative
  else
    let q := unitExponent num den
    let (n, d) := inUnits num den q
    let m := roundQuotient n d
    let (m, q) := if m = Nat.pow 2 53 then (Nat.pow 2 52, q + 1) else (m, q)
    if reduced : Reduced m q then .finite negative m q reduced else .infinite negative

end Binary64

end Installation

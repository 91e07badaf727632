import Installation.Number.Binary64
import Installation.Number.Digits

/-!
# Shortest decimals

`Binary64.shortest` finds for a positive number `m * 2 ^ q` a decimal with the fewest
digits among those that are rounded to it, and of these the nearest one.  The decimals
that are rounded to a number form an interval, whose ends belong to it exactly when `m`
is even.  If the interval holds a point of a decimal grid, it holds one of the two
points of that grid next to the number itself, so the two are all that is tested on each
grid, from the coarsest on.  `Decimal.write` writes a decimal in a given `Layout`, and
`Binary64.write` a number in a given `NumberStyle`.
-/

namespace Installation

/-- The decimal `coefficient * 10 ^ exponent`. -/
structure Decimal where
  coefficient : Nat
  exponent : Int
deriving DecidableEq

namespace Binary64

/-- The ratio `num / den` in units of `10 ^ p`, as a numerator and a denominator. -/
def inDecimalUnits (num den : Nat) (p : Int) : Nat × Nat :=
  (num * Nat.pow 10 (-p).toNat, den * Nat.pow 10 p.toNat)

/-- The largest exponent `p` with `10 ^ p ≤ num / den`, for a positive ratio. -/
def decimalExponent (num den : Nat) : Int :=
  let p : Int := (digitsOf num).length - (digitsOf den).length
  let (n, d) := inDecimalUnits num den p
  if d ≤ n then p else p - 1

/-- The point of the grid `10 ^ p * ℕ` next to `m * 2 ^ q` that is rounded to it: of the
two neighbours the nearer one that qualifies, a tie going to the even one. -/
def onGrid? (m : Nat) (q : Int) (p : Int) : Option Decimal :=
  let gap := if m = Nat.pow 2 52 ∧ -1074 < q then 1 else 2
  let (unit, den) := inUnits 1 1 (2 - q)
  let (unit, den) := inDecimalUnits unit den p
  let value := 4 * m * unit
  let low := (4 * m - gap) * unit
  let high := (4 * m + 2) * unit
  let inside (x : Nat) : Bool :=
    if m % 2 = 0 then decide (low ≤ x * den ∧ x * den ≤ high)
    else decide (low < x * den ∧ x * den < high)
  let floor := value / den
  let toFloor := value - floor * den
  let toCeiling := (floor + 1) * den - value
  match inside floor, inside (floor + 1) with
  | true, true =>
    if toFloor < toCeiling ∨ (toFloor = toCeiling ∧ floor % 2 = 0) then some ⟨floor, p⟩
    else some ⟨floor + 1, p⟩
  | true, false => some ⟨floor, p⟩
  | false, true => some ⟨floor + 1, p⟩
  | false, false => none

/-- The shortest decimal that is rounded to the positive number `m * 2 ^ q`. -/
def shortest (m : Nat) (q : Int) : Decimal :=
  let (num, den) := inUnits m 1 (-q)
  let top := decimalExponent num den
  ((List.range 17).findSome? fun k : Nat => onGrid? m q (top - k)).getD ⟨num / den, 0⟩

end Binary64

/-- How a decimal is written.  Its point stands after `place` of its digits; it is
written positionally when `place` lies between `first` and `last`, and otherwise with one
digit before the point and an exponent of at least `width` digits after `mark`. -/
structure Layout where
  first : Int
  last : Int
  mark : Char
  width : Nat

namespace Decimal

/-- The digits of a decimal without the zeros at their end. -/
def significant (x : Decimal) : List Char :=
  ((digitsOf x.coefficient).reverse.dropWhile (· = '0')).reverse

/-- The number of digits before the point. -/
def place (x : Decimal) : Int :=
  (digitsOf x.coefficient).length + x.exponent

/-- Digits with the point after `place` of them, filled up with zeros, and with at least
one digit on each side of the point. -/
def positional (digits : List Char) (place : Int) : List Char :=
  if place ≤ 0 then ['0', '.'] ++ List.replicate (-place).toNat '0' ++ digits
  else
    let whole := digits.take place.toNat
    let rest := digits.drop place.toNat
    whole ++ List.replicate (place.toNat - whole.length) '0' ++ ['.'] ++
      (if rest.isEmpty then ['0'] else rest)

/-- Digits with the point after the first one, and the exponent that puts it after
`place` of them. -/
def scientific (layout : Layout) (digits : List Char) (place : Int) : List Char :=
  let exponent := place - 1
  let rest := digits.drop 1
  let magnitude := digitsOf exponent.natAbs
  digits.take 1 ++ (if rest.isEmpty then [] else '.' :: rest) ++
    [layout.mark, if exponent < 0 then '-' else '+'] ++
    List.replicate (layout.width - magnitude.length) '0' ++ magnitude

/-- The text of a decimal in a layout. -/
def write (layout : Layout) (x : Decimal) : List Char :=
  if layout.first ≤ x.place ∧ x.place ≤ layout.last then
    positional x.significant x.place
  else scientific layout x.significant x.place

end Decimal

/-- How a number is written: the layout of its decimal, and the names of no number and of
the infinities. -/
structure NumberStyle where
  layout : Layout
  nan : String
  infinity : String

/-- The text of a number in a style, with the fewest digits that are read back. -/
def Binary64.write (style : NumberStyle) : Binary64 → List Char
  | .nan _ => style.nan.toList
  | .infinite negative => signed negative style.infinity.toList
  | .finite negative m q _ =>
    signed negative ((if m = 0 then ⟨0, 0⟩ else shortest m q).write style.layout)

end Installation

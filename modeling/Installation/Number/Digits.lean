/-!
# Decimal digits of integers

`digitsOf n` is the text of a natural number in decimal digits, and `integerText` that of
an integer, with a sign in front of the digits of a negative one.
-/

namespace Installation

/-- The decimal digits of a natural number, most significant first. -/
def digitsOf (n : Nat) : List Char := Nat.toDigits 10 n

/-- A sign in front of the text of a magnitude. -/
def signed (negative : Bool) (magnitude : List Char) : List Char :=
  if negative then '-' :: magnitude else magnitude

/-- The text of an integer. -/
def integerText (i : Int) : List Char := signed (decide (i < 0)) (digitsOf i.natAbs)

end Installation

import Installation.Number.Shortest
import Installation.Text.Blank
import Installation.Text.DecimalDigit

/-!
# Numerals

Reading numbers from text.  Blanks around a numeral are left out, and the decimal digits
of every script count as digits.  `Numeral.integer` reads a sign and digits, between
which single underscores may stand; it refuses to read more than `Numeral.digitLimit`
digits.  `Numeral.decimal?` reads a decimal with a point and an exponent, or the name of
an infinity or of no number, as a `Binary64`.
-/

namespace Installation

namespace Numeral

/-- Why a text is no integer numeral. -/
inductive Misreading where
  | malformed
  | tooLong (digits : Nat)
deriving DecidableEq

/-- The most digits of an integer numeral. -/
def digitLimit : Nat := 4300

/-- The digits at the start of a text and what follows them; none when an underscore does
not stand between two digits.  The flag says whether a digit has to come next. -/
def scanDigits : Bool → List Char → Option (List Nat × List Char)
  | expected, [] => if expected then none else some ([], [])
  | expected, c :: cs =>
    if c = '_' then
      if expected then none else scanDigits true cs
    else match Text.digitValue? c with
      | some d => (scanDigits false cs).map fun (ds, rest) => (d :: ds, rest)
      | none => if expected then none else some ([], c :: cs)

/-- The number with the given decimal digits, most significant first. -/
def ofDigits (ds : List Nat) : Nat :=
  ds.foldl (fun n d => 10 * n + d) 0

/-- A sign at the start of a text, a missing one being positive, and the rest. -/
def scanSign : List Char → Bool × List Char
  | '-' :: cs => (true, cs)
  | '+' :: cs => (false, cs)
  | cs => (false, cs)

/-- The integer that a text writes. -/
def integer (text : List Char) : Except Misreading Int :=
  let (negative, cs) := scanSign (Text.trim text)
  match scanDigits true cs with
  | none => .error .malformed
  | some (ds, rest) =>
    if digitLimit < ds.length then .error (.tooLong ds.length)
    else if rest.isEmpty then .ok (if negative then -(ofDigits ds : Int) else ofDigits ds)
    else .error .malformed

/-- The digits at the start of a text, of which there may be none, and what follows. -/
def scanOptionalDigits (cs : List Char) : Option (List Nat × List Char) :=
  match cs with
  | [] => some ([], [])
  | c :: _ => if (Text.digitValue? c).isSome then scanDigits true cs else some ([], cs)

/-- The digits after a point, if there is one, and what follows. -/
def scanFraction : List Char → Option (List Nat × List Char)
  | '.' :: cs => scanOptionalDigits cs
  | cs => some ([], cs)

/-- The exponent at the start of a text, zero if there is none, and what follows. -/
def scanExponent : List Char → Option (Int × List Char)
  | [] => some (0, [])
  | c :: cs =>
    if c = 'e' ∨ c = 'E' then
      let (negative, cs) := scanSign cs
      (scanDigits true cs).map fun (ds, rest) =>
        (if negative then -(ofDigits ds : Int) else ofDigits ds, rest)
    else some (0, c :: cs)

/-- The number nearest to `n * 10 ^ e`.  Exponents that are far out of range are cut
short, which leaves the number the same. -/
def ofScientific (negative : Bool) (n : Nat) (e : Int) : Binary64 :=
  if n = 0 then .zero negative
  else
    let place := (digitsOf n).length + e
    if 310 < place then .infinite negative
    else if place < -330 then .zero negative
    else .nearest negative (n * Nat.pow 10 e.toNat) (Nat.pow 10 (-e).toNat)

/-- The number that a decimal without sign writes. -/
def unsigned? (negative : Bool) (cs : List Char) : Option Binary64 := do
  let (whole, cs) ← scanOptionalDigits cs
  let (fraction, cs) ← scanFraction cs
  if whole.isEmpty && fraction.isEmpty then none
  else
    let (exponent, cs) ← scanExponent cs
    if cs.isEmpty then
      some (ofScientific negative (ofDigits (whole ++ fraction)) (exponent - fraction.length))
    else none

/-- The number that a text writes. -/
def decimal? (text : List Char) : Option Binary64 :=
  let (negative, cs) := scanSign (Text.trim text)
  match String.ofList (cs.map Char.toLower) with
  | "nan" => some (.nan 0)
  | "inf" | "infinity" => some (.infinite negative)
  | _ => unsigned? negative cs

end Numeral

end Installation

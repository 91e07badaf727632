/-!
# Searching for an end

How far a property of positions holds.  `bisect` halves what is left, `endFromStart` and
`endFromEnd` first go in growing strides from one side, which is quick where the end is
near that side.  A test can fail, and the searches fail with it.  Where the property holds
up to some position and not from there on, all three find this position; otherwise what
they find depends on the positions that they test, and these are laid down here.
-/

namespace Installation

namespace Sorting

variable {α ε : Type}

/-- A test of positions. -/
abbrev Test (ε : Type) := Nat → Except ε Bool

/-- A test of the elements at positions; it is not passed where there is none. -/
def testAt (p : α → Except ε Bool) (xs : Array α) : Test ε := fun i =>
  match xs[i]? with
  | some x => p x
  | none => .ok false

/-- The opposite of a test. -/
def opposite (p : Test ε) : Test ε := fun i => (p i).map not

/-- The end of the positions between two limits that pass a test, by halving. -/
def bisect (p : Test ε) (low high : Nat) : Except ε Nat :=
  if low < high then
    let middle := low + (high - low) / 2
    match p middle with
    | .error e => .error e
    | .ok true => bisect p (middle + 1) high
    | .ok false => bisect p low middle
  else .ok low
termination_by high - low

/-- The last position that passes a test and the first that does not, among those that are
reached in strides of which each is twice as long as the one before and one more.  The
limit counts as a position that does not pass. -/
def strides (p : Test ε) (limit last next : Nat) : Except ε (Nat × Nat) :=
  if next < limit then
    match p next with
    | .error e => .error e
    | .ok true => strides p limit next (2 * next + 1)
    | .ok false => .ok (last, next)
  else .ok (last, limit)
termination_by limit - next

/-- The end of the positions below a number that pass a test, in strides from the start. -/
def endFromStart (p : Test ε) (n : Nat) : Except ε Nat :=
  match p 0 with
  | .error e => .error e
  | .ok false => .ok 0
  | .ok true =>
    match strides p n 0 1 with
    | .error e => .error e
    | .ok (last, next) => bisect p (last + 1) next

/-- The end of the positions below a number that pass a test, in strides from the end. -/
def endFromEnd (p : Test ε) (n : Nat) : Except ε Nat :=
  match p (n - 1) with
  | .error e => .error e
  | .ok true => .ok n
  | .ok false =>
    match strides (opposite fun i => p (n - 1 - i)) n 0 1 with
    | .error e => .error e
    | .ok (last, next) => bisect p (n - next) (n - 1 - last)

end Sorting

end Installation

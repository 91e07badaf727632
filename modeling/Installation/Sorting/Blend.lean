import Installation.Sorting.Search

/-!
# Blending two lists

`blend` merges two sorted lists into one.  It takes single elements as long as the lists
take turns, and once one of them wins again and again it leaps, taking as many elements at
a time as the other list lets pass; `Eagerness` says after how many wins.  Lists are
blended in a `Heading`, from their starts or from their ends.  In either heading one list
is known to come first and the other to come last: the `early` list holds the element that
is taken first, and the `late` list the one that is taken last.
-/

namespace Installation

namespace Sorting

variable {α ε : Type}

/-- Whether the first of two elements comes strictly before the second. -/
abbrev Before (ε α : Type) := α → α → Except ε Bool

/-- How many wins in a row it takes for the leaps to begin. -/
abbrev Eagerness := Nat

/-- The length from which on a leap is worth another one. -/
def worthwhile : Nat := 7

/-- A way to go through two lists. -/
structure Heading (ε α : Type) where
  /-- Whether an element of the early list is taken before one of the late list. -/
  ahead : α → α → Except ε Bool
  /-- The number of elements, from the next one on, that pass a test. -/
  count : (α → Except ε Bool) → List α → Except ε Nat
  /-- Whether the late list leaps first. -/
  lateFirst : Bool

namespace Heading

/-- From the starts on. -/
def forward (before : Before ε α) : Heading ε α where
  ahead early late := before early late
  count p xs := endFromStart (testAt p xs.toArray) xs.length
  lateFirst := true

/-- From the ends on, for lists in reverse. -/
def backward (before : Before ε α) : Heading ε α where
  ahead early late := before late early
  count p xs :=
    (endFromEnd (opposite (testAt p xs.reverse.toArray)) xs.length).map fun n =>
      xs.length - n
  lateFirst := false

end Heading

/-- What is left of two lists, and what was taken so far, the last element first. -/
structure Blending (α : Type) where
  early : List α
  late : List α
  taken : List α

/-- What a part of a blend leads to: its end, or what is left. -/
inductive Progress (α : Type) where
  | over (xs : List α)
  | left (rest : Blending α)

/-- How a blend goes on: with single elements, given the wins in a row, or in leaps. -/
inductive Pace where
  | single (lateWins earlyWins : Nat)
  | leaps

namespace Blending

/-- A blend that ends with one of the lists used up. -/
def close (b : Blending α) : List α := b.taken.reverse ++ b.late ++ b.early

/-- A blend that ends with what is left of the early list, and the late list last. -/
def closeLate (b : Blending α) : List α := b.taken.reverse ++ b.early ++ b.late

/-- Take the elements of the late list that come before the next early one, and that one
itself; also the number of the former. -/
def leapLate (h : Heading ε α) (b : Blending α) : Except ε (Progress α × Nat) :=
  match b.early with
  | [] => .ok (.over b.close, 0)
  | y :: early => do
    let n ← h.count (fun x => (h.ahead y x).map not) b.late
    let late := b.late.drop n
    let taken := (b.late.take n).reverse ++ b.taken
    if 0 < n ∧ late.length ≤ 1 then .ok (.over (closeLate ⟨b.early, late, taken⟩), n)
    else if early.isEmpty then .ok (.over (close ⟨[], late, y :: taken⟩), n)
    else .ok (.left ⟨early, late, y :: taken⟩, n)

/-- Take the elements of the early list that come before the next late one, and that one
itself; also the number of the former. -/
def leapEarly (h : Heading ε α) (b : Blending α) : Except ε (Progress α × Nat) :=
  match b.late with
  | [] => .ok (.over b.close, 0)
  | x :: late => do
    let n ← h.count (fun y => h.ahead y x) b.early
    let early := b.early.drop n
    let taken := (b.early.take n).reverse ++ b.taken
    if 0 < n ∧ early.isEmpty then .ok (.over (close ⟨[], b.late, taken⟩), n)
    else if late.length ≤ 1 then .ok (.over (closeLate ⟨early, late, x :: taken⟩), n)
    else .ok (.left ⟨early, late, x :: taken⟩, n)

/-- A leap of each list, in the order of the heading; also the greater of their lengths. -/
def leap (h : Heading ε α) (b : Blending α) : Except ε (Progress α × Nat) := do
  let (progress, n) ← if h.lateFirst then b.leapLate h else b.leapEarly h
  match progress with
  | .over xs => .ok (.over xs, n)
  | .left b =>
    let (progress, k) ← if h.lateFirst then b.leapEarly h else b.leapLate h
    .ok (progress, max n k)

/-- The rest of a blend, and how eager to leap it has become.  Every round takes an
element, and the first number bounds the rounds. -/
def finish (h : Heading ε α) :
    Nat → Pace → Eagerness → Blending α → Except ε (List α × Eagerness)
  | 0, _, eager, b => .ok (b.close, eager)
  | rounds + 1, .single lateWins earlyWins, eager, b =>
    match b.early, b.late with
    | y :: early, x :: late => do
      if ← h.ahead y x then
        let b : Blending α := ⟨early, x :: late, y :: b.taken⟩
        if early.isEmpty then .ok (b.close, eager)
        else if eager ≤ earlyWins + 1 then finish h rounds .leaps (eager + 1) b
        else finish h rounds (.single 0 (earlyWins + 1)) eager b
      else
        let b : Blending α := ⟨y :: early, late, x :: b.taken⟩
        if late.length ≤ 1 then .ok (b.closeLate, eager)
        else if eager ≤ lateWins + 1 then finish h rounds .leaps (eager + 1) b
        else finish h rounds (.single (lateWins + 1) 0) eager b
    | _, _ => .ok (b.close, eager)
  | rounds + 1, .leaps, eager, b => do
    let eager := if 1 < eager then eager - 1 else eager
    let (progress, n) ← b.leap h
    match progress with
    | .over xs => .ok (xs, eager)
    | .left b =>
      if worthwhile ≤ n then finish h rounds .leaps eager b
      else finish h rounds (.single 0 0) (eager + 1) b

end Blending

/-- Two lists blended, of which the early one holds what is taken first and the late one
what is taken last, and how eager to leap the blend has become. -/
def blend (h : Heading ε α) (eager : Eagerness) (late early : List α) :
    Except ε (List α × Eagerness) :=
  match early with
  | [] => .ok (late, eager)
  | y :: early =>
    if early.isEmpty then .ok (y :: late, eager)
    else if late.length ≤ 1 then .ok (y :: early ++ late, eager)
    else
      (⟨early, late, [y]⟩ : Blending α).finish h (early.length + late.length)
        (.single 0 0) eager

end Sorting

end Installation

import Installation.Sorting.Blend

/-!
# Sorting by runs

`byRuns` sorts a list by the runs that are in it: stretches that ascend, and stretches that
descend strictly, which are turned around.  A run that is too short takes in the elements
after it one by one, and runs that lie side by side are blended, those first that lie
deepest when the list is halved again and again.

For a comparison that is an order this gives the sorted list in which equal elements keep
their places.  For any other comparison the result depends on the pairs that are compared,
and these are laid down here and in the modules that are used.
-/

namespace Installation

namespace Sorting

variable {α ε : Type}

/-- The run at the start of a list, given its last element and those before in reverse, and
what follows.  The flag says whether it descends. -/
def extendRun (before : Before ε α) (descending : Bool) (last : α) (run : List α) :
    List α → Except ε (List α × List α)
  | [] => .ok (last :: run, [])
  | x :: xs =>
    match before x last with
    | .error e => .error e
    | .ok b =>
      if b = descending then extendRun before descending x (last :: run) xs
      else .ok (last :: run, x :: xs)

/-- The run at the start of a list, in ascending order, and what follows. -/
def splitRun (before : Before ε α) : List α → Except ε (List α × List α)
  | [] => .ok ([], [])
  | [x] => .ok ([x], [])
  | x :: y :: xs =>
    match before y x with
    | .error e => .error e
    | .ok true => extendRun before true y [x] xs
    | .ok false => (extendRun before false y [x] xs).map fun (run, rest) => (run.reverse, rest)

/-- Put an element into a run, behind those that it does not come before. -/
def insertByHalving (before : Before ε α) (run : List α) (x : α) : Except ε (List α) :=
  (bisect (opposite (testAt (before x) run.toArray)) 0 run.length).map fun i =>
    run.take i ++ x :: run.drop i

/-- Put elements into a run one by one. -/
def insertAllByHalving (before : Before ε α) (run : List α) : List α → Except ε (List α)
  | [] => .ok run
  | x :: xs =>
    match insertByHalving before run x with
    | .error e => .error e
    | .ok run => insertAllByHalving before run xs

/-- The least length of a run in a list of the given length: the length itself below
sixty-four, and otherwise its first six binary digits, rounded up.  The flag says whether
a digit that was cut is a one. -/
def leastRun (n : Nat) (odd : Bool) : Nat :=
  if n < 64 then n + (if odd then 1 else 0) else leastRun (n / 2) (odd || n % 2 == 1)
termination_by n

/-- How deep the border between two places lies when a list is halved again and again: the
number of halvings until one of the places is in the lower half and the other in the upper
one.  The number of halvings is bounded. -/
def depth (n : Nat) : Nat → Nat → Nat → Nat
  | 0, _, _ => 1
  | bound + 1, a, b =>
    if n ≤ a then depth n bound (2 * (a - n)) (2 * (b - n)) + 1
    else if n ≤ b then 1
    else depth n bound (2 * a) (2 * b) + 1

/-- The depth of the border between a run, given its start and length, and the next one. -/
def borderDepth (n start length nextLength : Nat) : Nat :=
  let a := 2 * start + length
  depth n (n + 1) a (a + length + nextLength)

/-- A run of a list: where it starts, what is in it, and how deep its border with the next
one lies. -/
structure Run (α : Type) where
  start : Nat
  items : List α
  border : Nat

/-- Runs side by side, the last one first, and how eager to leap their blends are. -/
structure Pile (α : Type) where
  runs : List (Run α)
  eager : Eagerness

/-- Two lists side by side as one sorted list.  What is in its place already, at the start
of the one and at the end of the other, is left there. -/
def join (before : Before ε α) (eager : Eagerness) (xs ys : List α) :
    Except ε (List α × Eagerness) :=
  match ys, xs.getLast? with
  | y :: _, some last => do
    let k ← endFromStart (opposite (testAt (before y) xs.toArray)) xs.length
    let left := xs.drop k
    if left.isEmpty then .ok (xs ++ ys, eager)
    else
      let n ← endFromEnd (testAt (fun z => before z last) ys.toArray) ys.length
      let right := ys.take n
      if right.isEmpty then .ok (xs ++ ys, eager)
      else if left.length ≤ right.length then
        let (middle, eager) ← blend (.forward before) eager left right
        .ok (xs.take k ++ middle ++ ys.drop n, eager)
      else
        let (middle, eager) ← blend (.backward before) eager right.reverse left.reverse
        .ok (xs.take k ++ middle.reverse ++ ys.drop n, eager)
  | _, _ => .ok (xs ++ ys, eager)

/-- Two runs side by side as one. -/
def joinRuns (before : Before ε α) (eager : Eagerness) (r s : Run α) :
    Except ε (Run α × Eagerness) :=
  (join before eager r.items s.items).map fun (items, eager) => ({ r with items }, eager)

namespace Pile

/-- The runs of a pile with those joined whose border lies deeper than a new one. -/
def settle (before : Before ε α) (border : Nat) :
    List (Run α) → Eagerness → Except ε (Pile α)
  | s :: r :: runs, eager =>
    if border < r.border then do
      let (joined, eager) ← joinRuns before eager r s
      settle before border (joined :: runs) eager
    else .ok ⟨s :: r :: runs, eager⟩
  | runs, eager => .ok ⟨runs, eager⟩
termination_by runs => runs.length

/-- A pile with one more run, of a list of the given length. -/
def add (before : Before ε α) (n start : Nat) (items : List α) (pile : Pile α) :
    Except ε (Pile α) :=
  match pile.runs with
  | [] => .ok ⟨[⟨start, items, 0⟩], pile.eager⟩
  | last :: _ => do
    let border := borderDepth n last.start last.items.length items.length
    let settled ← settle before border pile.runs pile.eager
    match settled.runs with
    | [] => .ok ⟨[⟨start, items, 0⟩], settled.eager⟩
    | last :: runs =>
      .ok ⟨⟨start, items, 0⟩ :: { last with border } :: runs, settled.eager⟩

/-- The runs of a pile joined into one, of three the shorter one of the outer two first. -/
def collapse (before : Before ε α) : List (Run α) → Eagerness → Except ε (List α)
  | [], _ => .ok []
  | [r], _ => .ok r.items
  | [s, r], eager => (joinRuns before eager r s).map fun (joined, _) => joined.items
  | t :: s :: r :: runs, eager =>
    if r.items.length < t.items.length then do
      let (joined, eager) ← joinRuns before eager r s
      collapse before (t :: joined :: runs) eager
    else do
      let (joined, eager) ← joinRuns before eager s t
      collapse before (joined :: r :: runs) eager
termination_by runs => runs.length

end Pile

/-- The pile of the runs of a list, given its length, the least length of a run, where the
rest of the list starts and the rest.  Every round takes a run, and the first number bounds
the rounds. -/
def pileUp (before : Before ε α) (n least : Nat) :
    Nat → Nat → List α → Pile α → Except ε (Pile α)
  | 0, _, _, pile => .ok pile
  | _, _, [], pile => .ok pile
  | rounds + 1, start, xs, pile => do
    let (run, rest) ← splitRun before xs
    let missing := least - run.length
    let run ← insertAllByHalving before run (rest.take missing)
    let pile ← pile.add before n start run
    pileUp before n least rounds (start + run.length) (rest.drop missing) pile

/-- A list sorted by its runs. -/
def byRuns (before : Before ε α) (xs : List α) : Except ε (List α) := do
  let n := xs.length
  let pile ← pileUp before n (leastRun n false) n 0 xs ⟨[], worthwhile⟩
  Pile.collapse before pile.runs pile.eager

end Sorting

end Installation

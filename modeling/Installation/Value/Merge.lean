import Installation.Value.Equality

/-!
# Merging values

`Value.merge` applies a patch the way a server applies it to a stored resource: where both
sides are dictionaries the entries of the patch are merged into those that are stored, and
everywhere else the patch takes the place of what was stored.
-/

namespace Installation

namespace Value

mutual

/-- A stored value after a patch. -/
def merge (stored : Value) : Value → Value
  | .dict patch =>
    match stored with
    | .dict entries => .dict (mergeEntries entries patch)
    | _ => .dict patch
  | patch => patch

/-- The entries of a stored dictionary after those of a patch. -/
def mergeEntries (stored : List (Key × Value)) : List (Key × Value) → List (Key × Value)
  | [] => stored
  | (k, v) :: patch =>
    let merged :=
      match stored.lookup k with
      | some old => merge old v
      | none => v
    mergeEntries (Assoc.insert k merged stored) patch

end

end Value

end Installation

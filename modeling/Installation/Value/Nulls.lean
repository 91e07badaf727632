import Installation.Value.Basic

/-!
# Values without nulls

`Value.dropNulls` leaves out the entries of dictionaries whose value is null, in all
dictionaries that are reached through dictionaries and lists.  Elements of lists stay where
they are, nulls among them, and tuples and records are left alone.
-/

namespace Installation

namespace Value

mutual

/-- A value without the null entries of its dictionaries. -/
def dropNulls : Value → Value
  | .dict entries => .dict (dropNullEntries entries)
  | .list vs => .list (dropNullsAll vs)
  | v => v

/-- The elements of a list without the null entries of their dictionaries. -/
def dropNullsAll : List Value → List Value
  | [] => []
  | v :: vs => dropNulls v :: dropNullsAll vs

/-- The entries of a dictionary that are not null, without those of their dictionaries
that are. -/
def dropNullEntries : List (Key × Value) → List (Key × Value)
  | [] => []
  | (k, v) :: entries =>
    if v.isNull then dropNullEntries entries
    else (k, dropNulls v) :: dropNullEntries entries

end

end Value

end Installation

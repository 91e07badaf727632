import Installation.Value.Conversion
import Installation.Value.Lookup

/-!
# Conditions

The conditions of a resource say how it is doing, one for each type.  `Condition.upsert`
merges a new one in: the first condition of its type takes over its entries, and where
there is none it comes last.  A condition remembers the time of its last transition, which
moves only when its status changes.
-/

namespace Installation

namespace Condition

/-- The key of the time of a condition's last transition. -/
def transitionKey : Key := .text "lastTransitionTime"

/-- A condition with the time of its last transition. -/
def stamp (time : Value) (entries : List (Key × Value)) : List (Key × Value) :=
  Assoc.insert transitionKey time entries

/-- The time of the last transition of a condition that takes the given status. -/
def transitionTime (now : String) (status : Value) (entries : List (Key × Value)) :
    Value :=
  if (Value.entryAt? "status" entries).getD .null == status then
    ((Value.entryAt? "lastTransitionTime" entries).getD .null).orElse (.text now)
  else .text now

/-- A condition that takes over the entries of a new one of its type. -/
def renew (now : String) (entries : List (Key × Value)) (new : Value) :
    Except Fault Value := do
  let status ← new.item "status"
  let added ← new.spread
  .ok (.dict (stamp (transitionTime now status entries) (Assoc.overlay entries added)))

/-- Conditions with a new one merged in. -/
def merge (now : String) (new : Value) : List Value → Except Fault (List Value)
  | [] => do
    let added ← new.spread
    .ok [.dict (stamp (.text now) added)]
  | .dict entries :: conditions => do
    let type ← new.item "type"
    if (Value.entryAt? "type" entries).getD .null == type then
      let renewed ← renew now entries new
      .ok (renewed :: conditions)
    else
      let merged ← merge now new conditions
      .ok (.dict entries :: merged)
  | c :: _ => .error (c.lacks "get")

/-- The conditions that a value stands for, which may be left out. -/
def ofValue (conditions : Value) : Except Fault (List Value) :=
  if conditions.truthy then conditions.elements else .ok []

/-- The conditions that a value stands for, with a new one merged in. -/
def upsert (now : String) (conditions new : Value) : Except Fault (List Value) := do
  let conditions ← ofValue conditions
  merge now new conditions

end Condition

end Installation

import Installation.Condition
import Installation.Memory

/-!
# Conditions in memory

How a condition is merged into conditions that somebody else holds.  `Condition.upsertAt`
copies them and goes through the copy until it comes to a condition of the type of the new
one, which it replaces in place.  What is left of the copy is what `Condition.upsert` gives,
and the list that was passed in is not touched.
-/

namespace Installation

namespace Condition

/-- Merge a new condition into a list of one's own, from a position on at which the given
conditions stand. -/
def mergeFrom (now : String) (new : Value) (own : Address) (position : Nat) :
    List Value → Memory Value → Except Fault (Memory Value)
  | [], m => do
    let added ← new.spread
    .ok (m.write own (m.read own ++ [.dict (stamp (.text now) added)]))
  | .dict entries :: conditions, m => do
    let type ← new.item "type"
    if (Value.entryAt? "type" entries).getD .null == type then
      let renewed ← renew now entries new
      .ok (m.write own ((m.read own).set position renewed))
    else mergeFrom now new own (position + 1) conditions m
  | c :: _, _ => .error (c.lacks "get")

/-- Merge a new condition into a copy of the conditions at an address, and give the address
of the copy. -/
def upsertAt (now : String) (new : Value) (passed : Address) (m : Memory Value) :
    Except Fault (Address × Memory Value) := do
  let conditions := m.read passed
  let merged ← mergeFrom now new m.next 0 conditions (m.create conditions)
  .ok (m.next, merged)

/-- Conditions before the position are those that were passed over. -/
theorem mergeFrom_eq (now : String) (new : Value) (m : Memory Value)
    (passedOver conditions : List Value) :
  mergeFrom now new m.next passedOver.length conditions (m.create (passedOver ++ conditions)) =
    (merge now new conditions).map fun merged => m.create (passedOver ++ merged)
  := by
  induction conditions generalizing passedOver with
  | nil =>
    rw [mergeFrom, merge, Memory.read_next]
    cases new.spread with
    | error fault => rfl
    | ok added => simp [bind, Except.bind, Except.map]
  | cons c conditions ih =>
    have hlater := ih (passedOver ++ [c])
    rw [List.append_assoc, List.singleton_append, List.length_append] at hlater
    cases c with
    | dict entries =>
      rw [mergeFrom, merge, Memory.read_next]
      cases new.item "type" with
      | error fault => rfl
      | ok type =>
        simp only [bind, Except.bind]
        split
        · cases renew now entries new with
          | error fault => rfl
          | ok renewed => simp [Except.map]
        · rw [List.length_singleton] at hlater
          rw [hlater]
          cases merge now new conditions with
          | error fault => rfl
          | ok merged => simp [Except.map]
    | _ => rfl

/-- A condition that is merged into conditions in memory gives a new list there, which is that
of the conditions with the new one merged in. -/
theorem upsertAt_eq (now : String) (new : Value) (passed : Address) (m : Memory Value) :
  upsertAt now new passed m =
    (upsert now (.list (m.read passed)) new).map fun merged => (m.next, m.create merged)
  := by
  have hconditions : ofValue (.list (m.read passed)) = .ok (m.read passed) := by
    rw [ofValue]
    cases m.read passed <;> rfl
  have hmerge := mergeFrom_eq now new m [] (m.read passed)
  rw [List.nil_append, List.length_nil] at hmerge
  unfold upsertAt upsert
  simp only [bind, Except.bind, hconditions, hmerge]
  cases merge now new (m.read passed) with
  | error fault => rfl
  | ok merged => rfl

end Condition

end Installation

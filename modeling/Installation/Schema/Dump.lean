import Installation.Schema.Basic
import Installation.Value.Conversion

/-!
# Dumping

`Schema.dump` writes a value as it travels.  It reads the attributes of a record, or the
entries of a dictionary under the names of the attributes; what is not there is left out,
and what is null stays null.  Values that are not of the shape of their field are
converted to it where that makes sense.
-/

namespace Installation

namespace Value

/-- The part of a value under the name of an attribute, if it is there. -/
def part? (name : String) : Value → Option Value
  | .dict entries => entryAt? name entries
  | .record kind attrs =>
    match attrs.lookup name with
    | some v => some v
    | none => if kind.declared.contains name then some .null else none
  | _ => none

end Value

namespace Shape

/-- The text of a value; null stays null. -/
def dumpText : Value → Value
  | .null => .null
  | v => .text v.toText

/-- The text of a key; null stays null. -/
def dumpKey : Key → Key
  | .null => .null
  | k => .text (String.ofList k.plain)

/-- The truth value that a value stands for. -/
def dumpBoolean (v : Value) : Value :=
  .bool (v.truth?.getD v.truthy)

/-- The fault of an element that cannot be a key, if there is one. -/
def checkKeys : List Value → Except Fault Unit
  | [] => .ok ()
  | v :: vs => do
    let _ ← v.toKey
    checkKeys vs

/-- The entries of a map with the texts of their keys, and the texts of their values
unless these are of any shape. -/
def dumpEntries (raw : Bool) (entries : List (Key × Value)) : List (Key × Value) :=
  Assoc.ofPairs (entries.map fun (k, v) => (dumpKey k, if raw then v else dumpText v))

/-- A map. -/
def dumpMap (raw : Bool) (v : Value) : Except Fault Value := do
  let keys ← v.elements
  checkKeys keys
  match v with
  | .dict entries => .ok (.dict (dumpEntries raw entries))
  | _ => .error (v.lacks "items")

mutual

/-- The value of a field as it travels. -/
def dump : Shape → Value → Except Fault Value
  | _, .null => .ok .null
  | .text, v => .ok (dumpText v)
  | .integer, v => v.toInteger.map Value.int
  | .boolean, v => .ok (dumpBoolean v)
  | .textMap, v => dumpMap false v
  | .rawMap, v => dumpMap true v
  | .part _ _ fields, v => (dumpFields fields v).map Value.dict

/-- The fields of a part as they travel. -/
def dumpFields : List (Slot × Shape) → Value → Except Fault (List (Key × Value))
  | [], _ => .ok []
  | (slot, shape) :: fields, v =>
    match v.part? slot.attr with
    | none => dumpFields fields v
    | some x => do
      let x ← dump shape x
      let entries ← dumpFields fields v
      .ok ((.text slot.wire, x) :: entries)

end

end Shape

namespace Schema

/-- The entries of a value as it travels. -/
def dump (schema : Schema) (v : Value) : Except Fault (List (Key × Value)) :=
  Shape.dumpFields schema.fields v

end Schema

end Installation

import Installation.Schema.Load

/-!
# Data that keeps up with its record

Reading data makes a new record, but a record that stands in the data under a name that is
no field is taken over as it is, so that a change of this attribute is a change of the data.
`Schema.refresh` is the data after the record that was read from it has changed.
-/

namespace Installation

namespace Shape

/-- The value of an entry that is no field, given what has become of the record. -/
def refreshAttr (now : Value) : Key × Value → Value
  | (.text name, .record kind attrs) => now.attrOr name (.record kind attrs)
  | (_, v) => v

mutual

/-- The data of a value, given what has become of the value. -/
def refresh : Shape → Value → Value → Value
  | .part _ _ fields, now, .dict entries =>
    .dict (entries.map fun e => (e.1, refreshEntry fields (unmodelled fields entries) now e))
  | _, _, data => data

/-- The value of an entry, given the entries that are no fields and what has become of the
record.  An entry that is no field takes the place of the attribute that has its name. -/
def refreshEntry : List (Slot × Shape) → List (Key × Value) → Value → Key × Value → Value
  | [], _, now, e => refreshAttr now e
  | (slot, shape) :: fields, extra, now, e =>
    if e.1 == .text slot.wire then
      if (extra.lookup (.text slot.attr)).isSome then e.2
      else refresh shape (now.attrOr slot.attr .null) e.2
    else refreshEntry fields extra now e

end

end Shape

/-- The data that a record was read from, after the record has changed. -/
def Schema.refresh (schema : Schema) (record data : Value) : Value :=
  (schema.toShape true).refresh record data

end Installation

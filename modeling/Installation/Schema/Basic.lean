import Installation.Value.Basic

/-!
# Schemas

A schema says which fields a part of a resource has, under which name each of them
travels and under which it is an attribute of a record, and what `Shape` its value has:
a text, an integer, a boolean, a map from texts to texts or to values of any shape, or a
part with fields of its own.  A part that is required is never null; when it is left out,
it is there without any of its fields.  `Schema.blank` is the record of a part of which
everything is left out.
-/

namespace Installation

/-- The names of a field: the one under which it travels, and that of the attribute. -/
structure Slot where
  wire : String
  attr : String
deriving DecidableEq

/-- What the value of a field looks like. -/
inductive Shape where
  | text
  | integer
  | boolean
  | textMap
  | rawMap
  | part (required : Bool) (kind : Kind) (fields : List (Slot × Shape))

/-- The fields of a part of a resource, and the kind of its records. -/
structure Schema where
  kind : Kind
  fields : List (Slot × Shape)

namespace Shape

mutual

/-- The value of a field that is left out. -/
def absent : Shape → Value
  | .part true kind fields => .record kind (blankAttrs fields)
  | _ => .null

/-- The attributes of a record of which everything is left out. -/
def blankAttrs : List (Slot × Shape) → List (String × Value)
  | [] => []
  | (slot, shape) :: fields => (slot.attr, absent shape) :: blankAttrs fields

end

end Shape

namespace Schema

/-- The record of a part of which everything is left out. -/
def blank (schema : Schema) : Value := .record schema.kind (Shape.blankAttrs schema.fields)

/-- The schema as the shape of a field. -/
def toShape (schema : Schema) (required : Bool) : Shape :=
  .part required schema.kind schema.fields

end Schema

end Installation

import Installation.Fault

/-!
# Attributes and operations

`Value.attr` reads an attribute of a record: the value that was set, or null for one that
its kind declares.  `Value.offers` looks up an operation of a record by its name, and
`Value.lacks` is the fault of a value that does not have it; a value that is set under the
name of the operation stands in its way.
-/

namespace Installation

namespace Value

/-- The value of an attribute. -/
def attr (name : String) : Value → Except Fault Value
  | .record kind attrs =>
    match attrs.lookup name with
    | some v => .ok v
    | none =>
      if kind.declared.contains name then .ok .null
      else .error (.noAttribute kind.name name)
  | v => .error (.noAttribute v.typeName name)

/-- The value of an attribute, or a substitute where there is none. -/
def attrOr (v : Value) (name : String) (substitute : Value) : Value :=
  match v.attr name with
  | .ok x => x
  | .error _ => substitute

/-- The fault of a value that does not have an operation. -/
def lacks (name : String) : Value → Fault
  | .record kind attrs =>
    match attrs.lookup name with
    | some v => .notCallable v.typeName
    | none => .noAttribute kind.name name
  | v => .noAttribute v.typeName name

/-- The kind of a record that has an operation. -/
def offers (name : String) (v : Value) : Except Fault Kind :=
  match v with
  | .record kind attrs =>
    if kind.operations.contains name && (attrs.lookup name).isNone then .ok kind
    else .error (v.lacks name)
  | _ => .error (v.lacks name)

/-- An attribute that was set has the value that it was set to. -/
theorem attr_setAttr (kind : Kind) (attrs : List (String × Value)) (name : String)
    (x : Value) :
  ((record kind attrs).setAttr name x).attr name = .ok x
  := by
  simp [setAttr, attr, Assoc.lookup_insert]

end Value

end Installation

import Installation.Value.Attribute
import Installation.Value.Type

/-!
# Attributes by any name

An attribute can be asked for by any value; only texts are names.  `Value.find` tells what a
value has under a name: a part of its own, something that it has by its type, or an
operation.  `Value.read` is what can be shown of it, and `Value.put` sets an attribute, where
the type of the value admits that.  What a record has of its own comes before what it has by
its type, except for a few names that every record has for itself.
-/

namespace Installation

/-- What is found under a name. -/
inductive Found where
  /-- A part of the value. -/
  | part (key : Key) (v : Value)
  /-- The attributes of a record. -/
  | attributes (attrs : List (String × Value))
  /-- A value that is no part. -/
  | constant (v : Value)
  /-- An operation of the value. -/
  | operation (binding : Binding)
  /-- Something of which the type is known. -/
  | thing (type : ValueType)

namespace ValueType

/-- Whether values of a type have an attribute under a name, or take one, that something else
can be put in the place of. -/
def admits (t : ValueType) (new : Value) (name : String) : Except Fault Unit :=
  match t with
  | .type (.record _) => .ok ()
  | .type inner => .error (.fixedType inner.name name)
  | t =>
    match t.feature? name with
    | some .type => .error (.notType new.typeName)
    | some (.member _) => .error .readOnly
    | some (.property _) => .error (.notWritable t.origin name)
    | some (.loose _) => .ok ()
    | some _ => if t.takesAny then .ok () else .error (.fixedAttribute t.name name)
    | none => if t.takesAny then .ok () else .error (.noAttribute t.name name)

/-- The fault of values of a type that have nothing under a name.  A method leaves the names
that it does not know to the operation by itself. -/
def lacks (name : String) : ValueType → Fault
  | .type inner => .typeLacks inner.name name
  | .operation .method _ => .noAttribute Binding.plain.name name
  | t => .noAttribute t.name name

/-- The feature that values of a type have under a name, or share with an operation by
itself. -/
def reach (t : ValueType) (name : String) : Except Fault Feature :=
  match t.feature? name with
  | some feature => .ok feature
  | none =>
    match t with
    | .operation .method owner =>
      match (operation .plain owner).feature? name with
      | some feature => .ok feature
      | none => .error (t.lacks name)
    | t => .error (t.lacks name)

end ValueType

namespace Value

/-- Attributes as a dictionary. -/
def ofAttributes (attrs : List (String × Value)) : Value :=
  .dict (attrs.map fun (name, v) => (.text name, v))

/-- The numerator, the denominator and the real and imaginary part of an integer. -/
def integerTrait? (name : String) (i : Int) : Option Value :=
  [("numerator", int i), ("denominator", int 1), ("real", int i), ("imag", int 0)].lookup name

/-- What a value has by its type, where that is known. -/
def trait? (name : String) : Value → Option Value
  | .null => [("__doc__", null)].lookup name
  | .bool b => integerTrait? name (if b then 1 else 0)
  | .int i => integerTrait? name i
  | .float x => [("real", float x), ("imag", float (.zero false))].lookup name
  | .list _ | .dict _ => [("__hash__", null)].lookup name
  | .record kind _ =>
    [("__weakref__", null), ("__doc__", (kind.description?.map text).getD null),
     ("__module__", text kind.home), ("__hash__", null)].lookup name
  | _ => none

/-- What a value has under a name by its type. -/
def inherited (name : String) (v : Value) : Except Fault Found :=
  match v.type.feature? name with
  | none => .error (.noAttribute v.typeName name)
  | some (.operation binding) => .ok (.operation binding)
  | some feature =>
    match v.trait? name with
    | some x => .ok (.constant x)
    | none => .ok (.thing (feature.typeIn v.type))

/-- What a record has under a name. -/
def findAttribute (name : String) (kind : Kind) (attrs : List (String × Value)) :
    Except Fault Found :=
  match (ValueType.record kind).feature? name with
  | some (.member _) => .ok (.attributes attrs)
  | some .type | some (.property _) => (record kind attrs).inherited name
  | _ =>
    match attrs.lookup name with
    | some v => .ok (.part (.text name) v)
    | none =>
      if kind.declared.contains name then .ok (.constant .null)
      else (record kind attrs).inherited name

/-- What a value has under a name. -/
def find (v name : Value) : Except Fault Found :=
  match v, name with
  | .record kind attrs, .text name => findAttribute name kind attrs
  | v, .text name => v.inherited name
  | _, name => .error (.nameNotText name.typeName)

/-- What can be shown of what a value has under a name. -/
def read (v name : Value) : Except Fault Value :=
  match v.find name with
  | .error fault => .error fault
  | .ok (.part _ x) => .ok x
  | .ok (.attributes attrs) => .ok (ofAttributes attrs)
  | .ok (.constant x) => .ok x
  | .ok _ => .error (.noAttribute v.typeName (String.ofList name.plain))

/-- A value with an attribute set by any name. -/
def put (v name new : Value) : Except Fault Value :=
  match name with
  | .text name => (v.type.admits new name).map fun _ => v.setAttr name new
  | name => .error (.nameNotText name.typeName)

/-- An attribute of a record that could be put is read as what was put. -/
theorem read_put {kind : Kind} {name : String} {new : Value}
    (h : (ValueType.record kind).admits new name = .ok ())
    (attrs : List (String × Value)) :
  ((record kind attrs).put (text name) new).bind (fun v => v.read (text name)) = .ok new
  := by
  simp only [ValueType.admits] at h
  have own : (Assoc.insert name new attrs).lookup name = some new := by
    simp [Assoc.lookup_insert]
  simp only [put, type, ValueType.admits, h, setAttr, Except.map, Except.bind, read, find,
    findAttribute]
  cases hf : (ValueType.record kind).feature? name with
  | none => simp [own]
  | some feature => cases feature <;> simp_all

end Value

end Installation

import Installation.Association
import Installation.Kind
import Installation.Number.Binary64

/-!
# Values

The values that a resource is made of.  Specs, statuses and conditions come from a
cluster as they are, so that an attribute can hold a value of any shape until a schema has
looked at it.  A `Value` is null, a boolean, an integer, a number, a text, a list, a tuple,
a dictionary or a record; a dictionary has a `Key` for each of its entries, which is a
value without lists, dictionaries and records, and keeps the order of its entries.
Booleans are the integers zero and one wherever numbers are compared.
-/

namespace Installation

/-- The values that a dictionary takes as keys. -/
inductive Key where
  | null
  | bool (b : Bool)
  | int (i : Int)
  | float (x : Binary64)
  | text (s : String)
  | tuple (ks : List Key)
deriving Inhabited

/-- The values of a resource. -/
inductive Value where
  | null
  | bool (b : Bool)
  | int (i : Int)
  | float (x : Binary64)
  | text (s : String)
  | list (vs : List Value)
  | tuple (vs : List Value)
  | dict (entries : List (Key × Value))
  | record (kind : Kind) (attrs : List (String × Value))
deriving Inhabited

namespace Key

/-- The name of the type of a key in messages. -/
def typeName : Key → String
  | .null => "NoneType"
  | .bool _ => "bool"
  | .int _ => "int"
  | .float _ => "float"
  | .text _ => "str"
  | .tuple _ => "tuple"

/-- The point of the extended line that a key denotes, if it is a number; none inside for
the number that denotes no point. -/
def number? : Key → Option (Option Extended)
  | .bool b => some (some (.ofInt (if b then 1 else 0)))
  | .int i => some (some (.ofInt i))
  | .float x => some x.extended?
  | _ => none

mutual

/-- The value that a key is. -/
def toValue : Key → Value
  | .null => .null
  | .bool b => .bool b
  | .int i => .int i
  | .float x => .float x
  | .text s => .text s
  | .tuple ks => .tuple (toValues ks)

/-- The values that keys are. -/
def toValues : List Key → List Value
  | [] => []
  | k :: ks => toValue k :: toValues ks

end

end Key

namespace Value

/-- The name of the type of a value in messages. -/
def typeName : Value → String
  | .null => "NoneType"
  | .bool _ => "bool"
  | .int _ => "int"
  | .float _ => "float"
  | .text _ => "str"
  | .list _ => "list"
  | .tuple _ => "tuple"
  | .dict _ => "dict"
  | .record kind _ => kind.name

/-- Whether a value is null. -/
def isNull : Value → Bool
  | .null => true
  | _ => false

/-- Whether a value counts as given: null, false, zero and what has no parts do not. -/
def truthy : Value → Bool
  | .null => false
  | .bool b => b
  | .int i => i != 0
  | .float x => !x.isZero
  | .text s => !s.isEmpty
  | .list vs => !vs.isEmpty
  | .tuple vs => !vs.isEmpty
  | .dict entries => !entries.isEmpty
  | .record _ _ => true

/-- The value itself if it is given, and a substitute otherwise. -/
def orElse (v substitute : Value) : Value := if v.truthy then v else substitute

/-- The point of the extended line that a value denotes, if it is a number; none inside
for the number that denotes no point. -/
def number? : Value → Option (Option Extended)
  | .bool b => some (some (.ofInt (if b then 1 else 0)))
  | .int i => some (some (.ofInt i))
  | .float x => some x.extended?
  | _ => none

mutual

/-- A value as a key, or the name of the type that cannot be one. -/
def asKey : Value → Except String Key
  | .null => .ok .null
  | .bool b => .ok (.bool b)
  | .int i => .ok (.int i)
  | .float x => .ok (.float x)
  | .text s => .ok (.text s)
  | .tuple vs =>
    match asKeys vs with
    | .ok ks => .ok (.tuple ks)
    | .error name => .error name
  | .list _ => .error "list"
  | .dict _ => .error "dict"
  | .record kind _ => .error kind.name

/-- Values as keys, or the name of the first type that cannot be one. -/
def asKeys : List Value → Except String (List Key)
  | [] => .ok []
  | v :: vs =>
    match asKey v with
    | .error name => .error name
    | .ok k =>
      match asKeys vs with
      | .error name => .error name
      | .ok ks => .ok (k :: ks)

end

/-- A value with one attribute set; only records have attributes. -/
def setAttr (v : Value) (name : String) (x : Value) : Value :=
  match v with
  | .record kind attrs => .record kind (Assoc.insert name x attrs)
  | _ => v

end Value

end Installation

import Installation.Value.Attribute

/-!
# Looking into values

Parts of values that come from a cluster as they are.  `Value.get` asks a dictionary for
an entry that may be missing, `Value.item` for one that has to be there, and `Value.spread`
takes the entries of a value to put them into another dictionary.  Each of them tells apart
in which way a value is no dictionary.
-/

namespace Installation

namespace Value

/-- The entry of a dictionary, or a substitute where it is missing. -/
def getOr (v : Value) (name : String) (substitute : Value) : Except Fault Value :=
  match v with
  | .dict entries => .ok ((entryAt? name entries).getD substitute)
  | _ => .error (v.lacks "get")

/-- The entry of a dictionary, or null where it is missing. -/
def get (v : Value) (name : String) : Except Fault Value := v.getOr name .null

/-- The entry of a dictionary that has to be there. -/
def item (name : String) : Value → Except Fault Value
  | .dict entries =>
    match entryAt? name entries with
    | some v => .ok v
    | none => .error (.missingKey (.text name))
  | .text _ => .error (.textIndex "str")
  | .list _ => .error (.textIndex "list")
  | .tuple _ => .error (.textIndex "tuple")
  | v => .error (.notSubscriptable v.typeName)

/-- The entries of a dictionary that another one takes in. -/
def spread : Value → Except Fault (List (Key × Value))
  | .dict entries => .ok entries
  | .record kind attrs =>
    match attrs.lookup "keys" with
    | some keys => .error (.notCallable keys.typeName)
    | none => .error (.notMapping kind.name)
  | v => .error (.notMapping v.typeName)

@[simp]
theorem getOr_dict (entries : List (Key × Value)) (name : String) (substitute : Value) :
  (dict entries).getOr name substitute = .ok ((entryAt? name entries).getD substitute)
  := rfl

@[simp]
theorem get_dict (entries : List (Key × Value)) (name : String) :
  (dict entries).get name = .ok ((entryAt? name entries).getD .null)
  := rfl

@[simp]
theorem spread_dict (entries : List (Key × Value)) :
  (dict entries).spread = .ok entries
  := rfl

end Value

end Installation

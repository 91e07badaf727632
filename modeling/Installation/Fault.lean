import Installation.Value.Equality
import Installation.Value.Literal

/-!
# Faults

What can go wrong, by its cause.  A `Complaint` says what is wrong with data that a schema
rejects: texts about one value, or complaints about the entries of a dictionary.  A `Fault`
is the cause for which a computation stops, and `Fault.message` is what it tells the user,
a text or, for rejected data, the complaints themselves.
-/

namespace Installation

/-- What is wrong with data: texts, or complaints about the entries of a dictionary. -/
inductive Complaint where
  | texts (ts : List String)
  | entries (cs : List (Key × Complaint))

namespace Complaint

mutual

/-- A complaint as a value. -/
def toValue : Complaint → Value
  | .texts ts => .list (ts.map Value.text)
  | .entries cs => .dict (toEntries cs)

/-- Complaints about entries as entries. -/
def toEntries : List (Key × Complaint) → List (Key × Value)
  | [] => []
  | (k, c) :: cs => (k, toValue c) :: toEntries cs

end

end Complaint

/-- The cause for which a computation stops. -/
inductive Fault where
  /-- Data that a schema rejects. -/
  | rejected (complaint : Complaint)
  /-- An attribute name that is no text. -/
  | attributeNotText
  /-- An attribute under the name that a record has for itself. -/
  | attributeSelf
  /-- An attribute asked for by a value that is no text. -/
  | nameNotText (type : String)
  /-- A path without a name. -/
  | emptyPath
  /-- An ingress that is enabled and has no host. -/
  | hostRequired
  /-- A configuration that stays invalid until it is edited. -/
  | permanent (reason : String)
  /-- A value without an attribute or operation of the given name. -/
  | noAttribute (owner name : String)
  /-- A type without anything of the given name. -/
  | typeLacks (type name : String)
  /-- An attribute that is the same for all values of a type. -/
  | fixedAttribute (owner name : String)
  /-- An attribute that follows from its owner. -/
  | notWritable (owner name : String)
  /-- An attribute that cannot be replaced. -/
  | readOnly
  /-- A value in the place of a type. -/
  | notType (type : String)
  /-- A type whose attributes cannot be replaced. -/
  | fixedType (type name : String)
  /-- A value in the place of an operation. -/
  | notCallable (type : String)
  /-- A value without elements. -/
  | notIterable (type : String)
  /-- A value that cannot be asked what it contains. -/
  | notContainer (type : String)
  /-- A value without parts to look up. -/
  | notSubscriptable (type : String)
  /-- A sequence whose parts are looked up by a text. -/
  | textIndex (type : String)
  /-- A value in the place of a dictionary. -/
  | notMapping (type : String)
  /-- A value without parts to set. -/
  | notAssignable (type : String)
  /-- A value that cannot be a key. -/
  | unhashable (type : String)
  /-- Two values without an order between them. -/
  | incomparable (left right : String)
  /-- An element in the place of a pair, of another length. -/
  | pairLength (index length : Nat)
  /-- An element in the place of a pair, without elements. -/
  | notPair (index : Nat)
  /-- A key that is missing. -/
  | missingKey (key : Key)
  /-- Names of defaults that there are not. -/
  | unexpectedFields (names : List String)
  /-- A text that is no integer numeral. -/
  | malformedInteger (text : String)
  /-- An integer numeral with too many digits. -/
  | longInteger (digits : Nat)
  /-- A value that is no integer. -/
  | notInteger (type : String)
  /-- An infinity in the place of an integer. -/
  | infiniteInteger
  /-- The number that denotes no point in the place of an integer. -/
  | undefinedInteger

namespace Fault

/-- The most characters of a malformed numeral that a message shows. -/
def shownNumeral : Nat := 200

/-- The text of a fault about an invalid configuration. -/
def invalidConfiguration (reason : String) : String :=
  "Invalid Mattermost configuration: " ++ reason

/-- What a fault tells the user, when that is a text. -/
def text : Fault → String
  | .rejected complaint => complaint.toValue.toText
  | .attributeNotText => "keywords must be strings"
  | .attributeSelf => "BaseModel.__init__() got multiple values for argument 'self'"
  | .nameNotText type => s!"attribute name must be string, not '{type}'"
  | .emptyPath => "list index out of range"
  | .hostRequired => "ingress.host required, but not set"
  | .permanent reason => invalidConfiguration reason
  | .noAttribute owner name => s!"'{owner}' object has no attribute '{name}'"
  | .typeLacks type name => s!"type object '{type}' has no attribute '{name}'"
  | .fixedAttribute owner name => s!"'{owner}' object attribute '{name}' is read-only"
  | .notWritable owner name => s!"attribute '{name}' of '{owner}' objects is not writable"
  | .readOnly => "readonly attribute"
  | .notType type => s!"__class__ must be set to a class, not '{type}' object"
  | .fixedType type name =>
    "cannot set " ++ String.ofList (Value.text name).literal ++
      s!" attribute of immutable type '{type}'"
  | .notCallable type => s!"'{type}' object is not callable"
  | .notIterable type => s!"'{type}' object is not iterable"
  | .notContainer type => s!"argument of type '{type}' is not iterable"
  | .notSubscriptable type => s!"'{type}' object is not subscriptable"
  | .textIndex type =>
    if type = "str" then "string indices must be integers, not 'str'"
    else s!"{type} indices must be integers or slices, not str"
  | .notMapping type => s!"'{type}' object is not a mapping"
  | .notAssignable type => s!"'{type}' object does not support item assignment"
  | .unhashable type => s!"unhashable type: '{type}'"
  | .incomparable left right =>
    s!"'<' not supported between instances of '{left}' and '{right}'"
  | .pairLength index length =>
    s!"dictionary update sequence element #{index} has length {length}; 2 is required"
  | .notPair index =>
    s!"cannot convert dictionary update sequence element #{index} to a sequence"
  | .missingKey key => String.ofList key.literal
  | .unexpectedFields names =>
    "Got unexpected field names: " ++ (Value.list (names.map Value.text)).toText
  | .malformedInteger text =>
    "invalid literal for int() with base 10: " ++
      String.ofList ((Text.quote text.toList).take shownNumeral)
  | .longInteger digits =>
    "Exceeds the limit (4300 digits) for integer string conversion: value has " ++
      s!"{digits} digits; use sys.set_int_max_str_digits() to increase the limit"
  | .notInteger type =>
    s!"int() argument must be a string, a bytes-like object or a real number, not '{type}'"
  | .infiniteInteger => "cannot convert float infinity to integer"
  | .undefinedInteger => "cannot convert float NaN to integer"

/-- What a fault tells the user: the complaints about rejected data, and otherwise a
text. -/
def message : Fault → Value
  | .rejected complaint => complaint.toValue
  | fault => .text fault.text

end Fault

end Installation

import Installation.Value.Basic

/-!
# Types of values

Every value is of a `ValueType`, and so are the operations that it offers and the types
themselves.  Under some names all values of a type have the same `Feature`: an operation,
something that is fixed for the type, or something that follows from the value.
`ValueType.feature?` looks up features by their names.
-/

namespace Installation

/-- How an operation belongs to what offers it. -/
inductive Binding where
  /-- An operation by itself, which belongs to no value. -/
  | plain
  /-- An operation that a kind of records offers. -/
  | method
  /-- An operation that a type offers under a name of its own. -/
  | native
  /-- An operation that stands for a sign or a form of expression. -/
  | wrapper
deriving DecidableEq

/-- The types of values, of operations, and of types. -/
inductive ValueType where
  | null
  | bool
  | int
  | float
  | text
  | list
  | tuple
  | dict
  | record (kind : Kind)
  | operation (binding : Binding) (owner : ValueType)
  | type (inner : ValueType)
deriving DecidableEq

/-- What all values of a type have under a name. -/
inductive Feature where
  /-- An operation. -/
  | operation (binding : Binding)
  /-- Something that is the same for all values of the type. -/
  | constant (inner : ValueType)
  /-- Something that follows from the value. -/
  | property (inner : ValueType)
  /-- A part of the value that stays as it is. -/
  | member (inner : ValueType)
  /-- Something that anything may be put in the place of, without effect. -/
  | loose (inner : ValueType)
  /-- The type of the value. -/
  | type

/-- The name of the type of operations with a given binding in messages. -/
def Binding.name : Binding → String
  | .plain => "function"
  | .method => "method"
  | .native => "builtin_function_or_method"
  | .wrapper => "method-wrapper"

/-- The type of a value. -/
def Value.type : Value → ValueType
  | .null => .null
  | .bool _ => .bool
  | .int _ => .int
  | .float _ => .float
  | .text _ => .text
  | .list _ => .list
  | .tuple _ => .tuple
  | .dict _ => .dict
  | .record kind _ => .record kind

/-- The type of a feature of values of a type. -/
def Feature.typeIn (t : ValueType) : Feature → ValueType
  | .operation binding => .operation binding t
  | .constant inner => inner
  | .property inner => inner
  | .member inner => inner
  | .loose inner => inner
  | .type => .type t

namespace ValueType

/-- The name of a type in messages. -/
def name : ValueType → String
  | .null => "NoneType"
  | .bool => "bool"
  | .int => "int"
  | .float => "float"
  | .text => "str"
  | .list => "list"
  | .tuple => "tuple"
  | .dict => "dict"
  | .record kind => kind.name
  | .operation binding _ => binding.name
  | .type _ => "type"

/-- The name of the type that the properties of a type come from. -/
def origin : ValueType → String
  | .bool => int.name
  | .record _ => Kind.base.name
  | t => t.name

/-- Whether the values of a type take any attributes of their own. -/
def takesAny : ValueType → Bool
  | .record _ => true
  | .operation .plain _ => true
  | _ => false

/-- The features of a type that are no operations, apart from the type itself. -/
def traits : ValueType → List (String × Feature)
  | .null => [("__doc__", .constant .null)]
  | .bool | .int =>
    [("__doc__", .constant .text), ("denominator", .property .int), ("imag", .property .int),
     ("numerator", .property .int), ("real", .property .int)]
  | .float =>
    [("__doc__", .constant .text), ("imag", .property .float), ("real", .property .float)]
  | .text | .tuple => [("__doc__", .constant .text)]
  | .list | .dict => [("__doc__", .constant .text), ("__hash__", .constant .null)]
  | .record kind =>
    [("__dict__", .member .dict), ("__weakref__", .property .null),
     ("__doc__", .constant (if kind.description?.isSome then .text else .null)),
     ("__module__", .constant .text), ("__hash__", .constant .null)]
  | .operation .plain _ =>
    [("__doc__", .loose .null), ("__name__", .loose .text), ("__qualname__", .loose .text),
     ("__module__", .loose .text)]
  | .operation .method owner =>
    [("__doc__", .property .null), ("__func__", .member (.operation .plain owner)),
     ("__self__", .member owner)]
  | .operation .native owner =>
    [("__doc__", .property .text), ("__name__", .property .text),
     ("__qualname__", .property .text), ("__text_signature__", .property .text),
     ("__self__", .property owner), ("__module__", .loose .null)]
  | .operation .wrapper owner =>
    [("__doc__", .property .text), ("__name__", .property .text),
     ("__qualname__", .property .text), ("__text_signature__", .property .text),
     ("__objclass__", .property (.type owner)), ("__self__", .member owner)]
  | .type _ =>
    [("__doc__", .constant .text), ("__name__", .constant .text),
     ("__qualname__", .constant .text), ("__module__", .constant .text)]

/-- The operations that the records of a type offer. -/
def methods : ValueType → List String
  | .record kind => kind.operations ++ ["__init__", "__repr__"]
  | _ => []

/-- The wrappers that all values offer. -/
def commonWrappers : List String :=
  ["__delattr__", "__eq__", "__ge__", "__getattribute__", "__gt__", "__hash__", "__init__",
   "__le__", "__lt__", "__ne__", "__repr__", "__setattr__", "__str__"]

/-- The wrappers that numbers of all types offer. -/
def numberWrappers : List String :=
  ["__abs__", "__add__", "__bool__", "__divmod__", "__float__", "__floordiv__", "__int__",
   "__mod__", "__mul__", "__neg__", "__pos__", "__pow__", "__radd__", "__rdivmod__",
   "__rfloordiv__", "__rmod__", "__rmul__", "__rpow__", "__rsub__", "__rtruediv__", "__sub__",
   "__truediv__"]

/-- The wrappers that a type offers. -/
def wrappers : ValueType → List String
  | .null => ["__bool__"]
  | .bool | .int =>
    numberWrappers ++
      ["__and__", "__index__", "__invert__", "__lshift__", "__or__", "__rand__",
       "__rlshift__", "__ror__", "__rrshift__", "__rshift__", "__rxor__", "__xor__"]
  | .float => numberWrappers
  | .text =>
    ["__add__", "__contains__", "__getitem__", "__iter__", "__len__", "__mod__", "__mul__",
     "__rmod__", "__rmul__"]
  | .list =>
    ["__add__", "__contains__", "__delitem__", "__iadd__", "__imul__", "__iter__", "__len__",
     "__mul__", "__rmul__", "__setitem__"]
  | .tuple =>
    ["__add__", "__contains__", "__getitem__", "__iter__", "__len__", "__mul__", "__rmul__"]
  | .dict =>
    ["__delitem__", "__ior__", "__iter__", "__len__", "__or__", "__ror__", "__setitem__"]
  | .record _ => []
  | .operation _ _ => ["__call__"]
  | .type _ => ["__call__", "__or__", "__ror__"]

/-- The native operations that all values offer. -/
def commonNatives : List String :=
  ["__dir__", "__format__", "__getstate__", "__init_subclass__", "__new__", "__reduce__",
   "__reduce_ex__", "__sizeof__", "__subclasshook__"]

/-- The native operations that a type offers. -/
def natives : ValueType → List String
  | .null => []
  | .bool | .int =>
    ["__ceil__", "__floor__", "__getnewargs__", "__round__", "__trunc__", "as_integer_ratio",
     "bit_count", "bit_length", "conjugate", "from_bytes", "to_bytes"]
  | .float =>
    ["__ceil__", "__floor__", "__getformat__", "__getnewargs__", "__round__", "__trunc__",
     "as_integer_ratio", "conjugate", "fromhex", "hex", "is_integer"]
  | .text =>
    ["__getnewargs__", "capitalize", "casefold", "center", "count", "encode", "endswith",
     "expandtabs", "find", "format", "format_map", "index", "isalnum", "isalpha", "isascii",
     "isdecimal", "isdigit", "isidentifier", "islower", "isnumeric", "isprintable", "isspace",
     "istitle", "isupper", "join", "ljust", "lower", "lstrip", "maketrans", "partition",
     "removeprefix", "removesuffix", "replace", "rfind", "rindex", "rjust", "rpartition",
     "rsplit", "rstrip", "split", "splitlines", "startswith", "strip", "swapcase", "title",
     "translate", "upper", "zfill"]
  | .list =>
    ["__class_getitem__", "__getitem__", "__reversed__", "append", "clear", "copy", "count",
     "extend", "index", "insert", "pop", "remove", "reverse", "sort"]
  | .tuple => ["__class_getitem__", "__getnewargs__", "count", "index"]
  | .dict =>
    ["__class_getitem__", "__contains__", "__getitem__", "__reversed__", "clear", "copy",
     "fromkeys", "get", "items", "keys", "pop", "popitem", "setdefault", "update", "values"]
  | .record _ => []
  | .operation _ _ => []
  | .type _ => []

/-- The feature that a type has under a name. -/
def feature? (t : ValueType) (name : String) : Option Feature :=
  if name = "__class__" then some .type
  else
    match t.traits.lookup name with
    | some feature => some feature
    | none =>
      if t.methods.contains name then some (.operation .method)
      else if (commonWrappers ++ t.wrappers).contains name then some (.operation .wrapper)
      else if (commonNatives ++ t.natives).contains name then some (.operation .native)
      else none

end ValueType

theorem Value.name_type (v : Value) :
  v.type.name = v.typeName
  := by
  cases v <;> rfl

end Installation

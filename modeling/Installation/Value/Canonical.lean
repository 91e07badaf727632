import Installation.Text.Json
import Installation.Value.Conversion
import Installation.Value.Membership
import Installation.Value.Sorted

/-!
# Canonical text

`Value.canonical` is one text for all values that differ in the order of their keys alone.
Keys are sorted, and the value is written as JSON on one line.  What JSON does not have is
first replaced by what it has: keys that are no texts by the text that shows them, tuples by
lists, and records by the dictionaries of their attributes.  Entries under one of the
`reservedKeys` are left out, and so are the attributes that a record names itself, under
`hiddenAttribute`.

Before a record is replaced it is asked for the `rebuilders`, first among its attributes and
then in what it has under `listedAttribute`, unless it looks like a list.  The answers change
nothing, but something given there that cannot be asked is a fault.
-/

namespace Installation

/-- How numbers are written in canonical texts. -/
def jsonNumbers : NumberStyle where
  layout := literalNumbers.layout
  nan := "NaN"
  infinity := "Infinity"

namespace Value

/-- The keys of entries that a canonical text does not show. -/
def reservedKeys : List String :=
  ["py/bytes", "py/function", "py/id", "py/initargs", "py/iterator", "py/mod",
   "py/newargs", "py/newargsex", "py/newobj", "py/object", "py/property", "py/reduce",
   "py/ref", "py/repr", "py/seq", "py/set", "py/state", "py/tuple", "py/type"]

/-- The text of a key in canonical texts, if its entry is shown. -/
def shownKey? : Key → Option String
  | .text s => if reservedKeys.contains s then none else some s
  | .null => some "null"
  | k => some (String.ofList k.literal)

/-- The attribute whose elements are the names of attributes that are not shown. -/
def hiddenAttribute : String := "_jsonpickle_exclude"

/-- The texts among keys that values are. -/
def textKeys : List Value → Except Fault (List String)
  | [] => .ok []
  | v :: vs => do
    let k ← v.toKey
    let names ← textKeys vs
    match k with
    | .text s => .ok (s :: names)
    | _ => .ok names

/-- The names of the attributes that a record does not show. -/
def hiddenNames (attrs : List (String × Value)) : Except Fault (List String) :=
  match attrs.lookup hiddenAttribute with
  | none => .ok []
  | some v => do
    let names ← v.elements
    textKeys names

/-- The attribute under which a record lists what else it has. -/
def listedAttribute : String := "__slots__"

/-- The names under which a record is asked for a way to rebuild it. -/
def rebuilders : List String := ["__reduce__", "__reduce_ex__"]

/-- Whether attributes make a record look like a list. -/
def looksLikeList (attrs : List (String × Value)) : Bool :=
  ["__getitem__", "append"].all fun name => (attrs.lookup name).isSome

/-- Whether a record has one of the rebuilders, where it can be asked. -/
def hasRebuilder (attrs : List (String × Value)) (name : String) : Except Fault Bool :=
  let listed := (attrs.lookup listedAttribute).getD .null
  if (attrs.lookup name).isSome then .ok true
  else if listed.truthy then listed.contains name
  else .ok false

/-- The rebuilders that a record has, where it can be asked. -/
def foundRebuilders (attrs : List (String × Value)) : Except Fault (List String) :=
  if looksLikeList attrs then .ok [] else rebuilders.filterM (hasRebuilder attrs)

mutual

/-- A value with what JSON does not have replaced by what it has. -/
def flatten : Value → Except Fault Value
  | .list vs => (flattenAll vs).map Value.list
  | .tuple vs => (flattenAll vs).map Value.list
  | .dict entries => (flattenEntries entries).map fun es => .dict (Assoc.ofPairs es)
  | .record _ attrs =>
    match foundRebuilders attrs, hiddenNames attrs with
    | .error fault, _ => .error fault
    | _, .error fault => .error fault
    | _, .ok hidden => (flattenAttrs hidden attrs).map fun es => .dict (Assoc.ofPairs es)
  | v => .ok v

/-- The elements of a list with replacements. -/
def flattenAll : List Value → Except Fault (List Value)
  | [] => .ok []
  | v :: vs =>
    match flatten v with
    | .error fault => .error fault
    | .ok v => (flattenAll vs).map (v :: ·)

/-- The entries of a dictionary that are shown, with replacements. -/
def flattenEntries : List (Key × Value) → Except Fault (List (Key × Value))
  | [] => .ok []
  | (k, v) :: entries =>
    match shownKey? k with
    | none => flattenEntries entries
    | some s =>
      match flatten v with
      | .error fault => .error fault
      | .ok v => (flattenEntries entries).map ((.text s, v) :: ·)

/-- The attributes of a record that are shown as entries, with replacements. -/
def flattenAttrs (hidden : List String) :
    List (String × Value) → Except Fault (List (Key × Value))
  | [] => .ok []
  | (name, v) :: attrs =>
    if hidden.contains name || reservedKeys.contains name then flattenAttrs hidden attrs
    else
      match flatten v with
      | .error fault => .error fault
      | .ok v => (flattenAttrs hidden attrs).map ((.text name, v) :: ·)

end

mutual

/-- A value as JSON on one line. -/
def json : Value → List Char
  | .null => "null".toList
  | .bool b => (if b then "true" else "false").toList
  | .int i => integerText i
  | .float x => x.write jsonNumbers
  | .text s => Text.jsonString s.toList
  | .list vs => ['['] ++ commaSeparated (jsonAll vs) ++ [']']
  | .tuple vs => ['['] ++ commaSeparated (jsonAll vs) ++ [']']
  | .dict entries => ['\x7b'] ++ commaSeparated (jsonEntries entries) ++ ['\x7d']
  | .record _ attrs => ['\x7b'] ++ commaSeparated (jsonAttrs attrs) ++ ['\x7d']

/-- The elements of a list as JSON. -/
def jsonAll : List Value → List (List Char)
  | [] => []
  | v :: vs => json v :: jsonAll vs

/-- The entries of a dictionary as JSON. -/
def jsonEntries : List (Key × Value) → List (List Char)
  | [] => []
  | (k, v) :: entries =>
    (Text.jsonString k.plain ++ [':', ' '] ++ json v) :: jsonEntries entries

/-- The attributes of a record as JSON. -/
def jsonAttrs : List (String × Value) → List (List Char)
  | [] => []
  | (name, v) :: attrs =>
    (Text.jsonString name.toList ++ [':', ' '] ++ json v) :: jsonAttrs attrs

end

/-- The canonical text of a value. -/
def canonical (v : Value) : Except Fault (List Char) := do
  let sorted ← v.sortKeys
  let flat ← flatten sorted
  .ok (json flat)

end Value

end Installation

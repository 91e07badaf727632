import Installation.Number.Numeral
import Installation.Value.Attribute

/-!
# Conversions of values

Values where elements, a dictionary, an integer or a truth value are called for.
`Value.elements` are the parts of a value one after the other, `Value.toEntries` reads a
dictionary out of pairs, `Value.toInteger` reads numerals and cuts the fraction of
numbers, and `Value.truth?` knows the words for true and false.
-/

namespace Installation

namespace Value

/-- The parts of a value: the characters of a text, the elements of a list or tuple, the
keys of a dictionary. -/
def elements : Value → Except Fault (List Value)
  | .text s => .ok (s.toList.map fun c => .text (String.singleton c))
  | .list vs => .ok vs
  | .tuple vs => .ok vs
  | .dict entries => .ok (entries.map fun e => e.1.toValue)
  | v => .error (.notIterable v.typeName)

/-- A value as a key. -/
def toKey (v : Value) : Except Fault Key :=
  match v.asKey with
  | .ok k => .ok k
  | .error name => .error (.unhashable name)

/-- The entry that a pair stands for, the pair being the element at the given place. -/
def toEntry (index : Nat) (pair : Value) : Except Fault (Key × Value) :=
  match pair.elements with
  | .error _ => .error (.notPair index)
  | .ok [k, v] => do
    let k ← k.toKey
    .ok (k, v)
  | .ok parts => .error (.pairLength index parts.length)

/-- Put the entries that pairs stand for into a dictionary, counting from the given
place. -/
def insertPairs (index : Nat) (entries : List (Key × Value)) :
    List Value → Except Fault (List (Key × Value))
  | [] => .ok entries
  | pair :: pairs => do
    let (k, v) ← toEntry index pair
    insertPairs (index + 1) (Assoc.insert k v entries) pairs

/-- The entries of the dictionary that a value stands for. -/
def toEntries (v : Value) : Except Fault (List (Key × Value)) :=
  match v with
  | .dict entries => .ok entries
  | .record _ attrs =>
    match attrs.lookup "keys" with
    | some keys => .error (.notCallable keys.typeName)
    | none => .error (.notIterable v.typeName)
  | _ => do
    let pairs ← v.elements
    insertPairs 0 [] pairs

/-- The integer that a value stands for. -/
def toInteger : Value → Except Fault Int
  | .bool b => .ok (if b then 1 else 0)
  | .int i => .ok i
  | .float x =>
    match x.extended? with
    | some (.ratio num den) => .ok (num.tdiv den)
    | some _ => .error .infiniteInteger
    | none => .error .undefinedInteger
  | .text s =>
    match Numeral.integer s.toList with
    | .ok i => .ok i
    | .error .malformed => .error (.malformedInteger s)
    | .error (.tooLong digits) => .error (.longInteger digits)
  | v => .error (.notInteger v.typeName)

/-- The words for true. -/
def trueWords : List String :=
  ["t", "T", "true", "True", "TRUE", "on", "On", "ON", "y", "Y", "yes", "Yes", "YES", "1"]

/-- The words for false. -/
def falseWords : List String :=
  ["f", "F", "false", "False", "FALSE", "off", "Off", "OFF", "n", "N", "no", "No", "NO",
   "0"]

/-- The truth value that a word or one of the numbers one and zero stands for. -/
def truth? : Value → Option Bool
  | .text s =>
    if trueWords.contains s then some true
    else if falseWords.contains s then some false
    else none
  | v =>
    match v.number? with
    | some (some p) =>
      if p.same (.ofInt 1) then some true
      else if p.same (.ofInt 0) then some false
      else none
    | _ => none

end Value

end Installation

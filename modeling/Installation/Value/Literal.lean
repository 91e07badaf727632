import Installation.Number.Shortest
import Installation.Text.Quoted
import Installation.Value.Basic

/-!
# Values as text

`Value.literal` shows a value the way it would be written down: texts between quotes, the
parts of lists, tuples and dictionaries between brackets, and records with the name of
their kind and their attributes.  The text of a record is cut after eighty characters, so
that records inside records are cut first.  `Value.plain` is the same, except that a value
that is a text stands for itself.
-/

namespace Installation

/-- How numbers are written in texts of values: without an exponent when the point stands
at most three places before the first digit or sixteen after it. -/
def literalNumbers : NumberStyle where
  layout := ⟨-3, 16, 'e', 2⟩
  nan := "nan"
  infinity := "inf"

/-- Parts with a comma and a space between them. -/
def commaSeparated (parts : List (List Char)) : List Char := [',', ' '].intercalate parts

/-- Parts between parentheses, a comma following a single one. -/
def tupleText (parts : List (List Char)) : List Char :=
  match parts with
  | [part] => ['('] ++ part ++ [',', ')']
  | _ => ['('] ++ commaSeparated parts ++ [')']

/-- The most characters of the text of a record. -/
def recordTextLimit : Nat := 80

/-- A text that is cut when it is too long for a record. -/
def cutRecordText (cs : List Char) : List Char :=
  if recordTextLimit < cs.length then cs.take recordTextLimit ++ " ...)".toList else cs

namespace Key

mutual

/-- The text that shows a key. -/
def literal : Key → List Char
  | .null => "None".toList
  | .bool b => (if b then "True" else "False").toList
  | .int i => integerText i
  | .float x => x.write literalNumbers
  | .text s => Text.quote s.toList
  | .tuple ks => tupleText (literals ks)

/-- The texts that show keys. -/
def literals : List Key → List (List Char)
  | [] => []
  | k :: ks => literal k :: literals ks

end

/-- The text of a key: a text itself, and otherwise the text that shows the key. -/
def plain : Key → List Char
  | .text s => s.toList
  | k => k.literal

end Key

namespace Value

mutual

/-- The text that shows a value. -/
def literal : Value → List Char
  | .null => "None".toList
  | .bool b => (if b then "True" else "False").toList
  | .int i => integerText i
  | .float x => x.write literalNumbers
  | .text s => Text.quote s.toList
  | .list vs => ['['] ++ commaSeparated (literals vs) ++ [']']
  | .tuple vs => tupleText (literals vs)
  | .dict entries => ['\x7b'] ++ commaSeparated (entryLiterals entries) ++ ['\x7d']
  | .record kind attrs =>
    cutRecordText (kind.name.toList ++ ['('] ++ commaSeparated (attrLiterals attrs) ++ [')'])

/-- The texts that show values. -/
def literals : List Value → List (List Char)
  | [] => []
  | v :: vs => literal v :: literals vs

/-- The texts that show the entries of a dictionary. -/
def entryLiterals : List (Key × Value) → List (List Char)
  | [] => []
  | (k, v) :: entries => (k.literal ++ [':', ' '] ++ literal v) :: entryLiterals entries

/-- The texts that show the attributes of a record; one without a name is not shown. -/
def attrLiterals : List (String × Value) → List (List Char)
  | [] => []
  | (name, v) :: attrs =>
    if name.isEmpty then attrLiterals attrs
    else (name.toList ++ ['='] ++ literal v) :: attrLiterals attrs

end

/-- The text of a value: a text itself, and otherwise the text that shows the value. -/
def plain : Value → List Char
  | .text s => s.toList
  | v => v.literal

/-- The text of a value as a string. -/
def toText (v : Value) : String := String.ofList v.plain

end Value

end Installation

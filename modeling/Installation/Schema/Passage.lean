import Installation.Schema.Dump
import Installation.Value.Assignment

/-!
# Records that are passed on

A dump writes values anew, with one exception: a record somewhere in a map to values of any
shape is passed on as it is.  `Schema.passages` are the paths to such records in a value,
each with the path to it in the dump.
-/

namespace Installation

/-- The path to a record in a value, and the path to it in the dump of the value. -/
structure Passage where
  inside : Path
  outside : Path

/-- The paths to a record in a part as the paths to it in what the part belongs to. -/
def Passage.under (slot : Slot) (passage : Passage) : Passage :=
  ⟨.text slot.attr :: passage.inside, .text slot.wire :: passage.outside⟩

namespace Value

mutual

/-- The paths to the records of a value. -/
def recordPaths : Value → List Path
  | .record _ _ => [[]]
  | .dict entries => entryRecordPaths entries
  | _ => []

/-- The paths to the records among entries. -/
def entryRecordPaths : List (Key × Value) → List Path
  | [] => []
  | (k, v) :: entries => (recordPaths v).map (k :: ·) ++ entryRecordPaths entries

end

end Value

namespace Shape

/-- The records that the entries of a map pass on; an entry gives way to later ones whose
keys have the same text. -/
def entryPassages : List (Key × Value) → List Passage
  | [] => []
  | (k, v) :: entries =>
    if entries.any fun e => dumpKey e.1 == dumpKey k then entryPassages entries
    else (v.recordPaths.map fun path => ⟨k :: path, dumpKey k :: path⟩) ++ entryPassages entries

mutual

/-- The records that the value of a field passes on. -/
def passages : Shape → Value → List Passage
  | .rawMap, .dict entries => entryPassages entries
  | .part _ _ fields, v => fieldPassages fields v
  | _, _ => []

/-- The records that the fields of a part pass on. -/
def fieldPassages : List (Slot × Shape) → Value → List Passage
  | [], _ => []
  | (slot, shape) :: fields, v =>
    (match v.part? slot.attr with
      | none => []
      | some x => (passages shape x).map (Passage.under slot)) ++
    fieldPassages fields v

end

end Shape

/-- The records that a value passes on when it is dumped. -/
def Schema.passages (schema : Schema) (v : Value) : List Passage :=
  Shape.fieldPassages schema.fields v

end Installation

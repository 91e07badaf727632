import Installation.Schema.Basic
import Installation.Value.Conversion

/-!
# Loading

`Schema.load` reads data as it travels into a record.  The complaints about all fields of
a part are collected, under the names under which the fields travel; a part is read to its
end before it is rejected.  Entries that are no fields become attributes under their own
name, after the fields, and take the place of a field's attribute of that name.  Only an
entry that cannot be an attribute at all stops the loading at once.
-/

namespace Installation

/-- Data rejected with one text. -/
def Fault.because (text : String) : Fault := .rejected (.texts [text])

namespace Shape

/-- The complaint about a null where there has to be a value. -/
def nullText : String := "Field may not be null."

/-- The complaint about a value that is no text. -/
def notText : String := "Not a valid string."

/-- A text. -/
def loadText : Value → Except Fault Value
  | .text s => .ok (.text s)
  | _ => .error (.because notText)

/-- An integer: any value that stands for one, other than a boolean. -/
def loadInteger (v : Value) : Except Fault Value :=
  match v with
  | .bool _ => .error (.because "Not a valid integer.")
  | _ =>
    match v.toInteger with
    | .ok i => .ok (.int i)
    | .error .infiniteInteger => .error (.because "Number too large.")
    | .error _ => .error (.because "Not a valid integer.")

/-- A boolean: a word for it or one of the numbers one and zero. -/
def loadBoolean (v : Value) : Except Fault Value :=
  match v.truth? with
  | some b => .ok (.bool b)
  | none => .error (.because "Not a valid boolean.")

/-- The complaint about a key of a map, if there is one. -/
def keyComplaint? : Key → Option String
  | .text _ => none
  | .null => some nullText
  | _ => some notText

/-- The complaint about a value of a map, if there is one. -/
def valueComplaint? (raw : Bool) : Value → Option String
  | .null => some nullText
  | .text _ => none
  | _ => if raw then none else some notText

/-- The complaints about an entry of a map, if there are any. -/
def entryComplaint? (raw : Bool) (e : Key × Value) : Option (Key × Complaint) :=
  match keyComplaint? e.1, valueComplaint? raw e.2 with
  | none, none => none
  | some k, none => some (e.1, .entries [(.text "key", .texts [k])])
  | none, some v => some (e.1, .entries [(.text "value", .texts [v])])
  | some k, some v =>
    some (e.1, .entries [(.text "key", .texts [k]), (.text "value", .texts [v])])

/-- A map from texts to texts, or to values that are not null. -/
def loadMap (raw : Bool) : Value → Except Fault Value
  | .dict entries =>
    match entries.filterMap (entryComplaint? raw) with
    | [] => .ok (.dict entries)
    | complaints => .error (.rejected (.entries complaints))
  | _ => .error (.because "Not a valid mapping type.")

/-- The attributes and the complaints that the fields of a part gave. -/
structure Tally where
  attrs : List (String × Value)
  complaints : List (Key × Complaint)

namespace Tally

/-- A tally with the value of one more field in front. -/
def accept (slot : Slot) (v : Value) (tally : Tally) : Tally :=
  { tally with attrs := (slot.attr, v) :: tally.attrs }

/-- A tally with the complaint about one more field in front. -/
def complain (slot : Slot) (c : Complaint) (tally : Tally) : Tally :=
  { tally with complaints := (.text slot.wire, c) :: tally.complaints }

end Tally

/-- Whether an entry travels under the name of a field. -/
def isModelled (fields : List (Slot × Shape)) (k : Key) : Bool :=
  fields.any fun field => k == .text field.1.wire

/-- The entries that are no fields. -/
def unmodelled (fields : List (Slot × Shape)) (entries : List (Key × Value)) :
    List (Key × Value) :=
  entries.filter fun e => !isModelled fields e.1

/-- Entries as attributes; none when a key is no text. -/
def asAttrs? : List (Key × Value) → Option (List (String × Value))
  | [] => some []
  | (.text name, v) :: entries => (asAttrs? entries).map ((name, v) :: ·)
  | _ :: _ => none

/-- The record with the given attributes and those that further entries give. -/
def build (kind : Kind) (attrs : List (String × Value)) (extra : List (Key × Value)) :
    Except Fault Value :=
  match asAttrs? extra with
  | none => .error .attributeNotText
  | some extra =>
    if extra.any fun a => a.1 == "self" then .error .attributeSelf
    else .ok (.record kind (Assoc.overlay attrs extra))

/-- The record of a part, from what its fields gave and from the entries that are no
fields. -/
def finish (kind : Kind) (fields : List (Slot × Shape)) (entries : List (Key × Value))
    (tally : Tally) : Except Fault Value :=
  match tally.complaints with
  | [] => build kind tally.attrs (unmodelled fields entries)
  | complaints => .error (.rejected (.entries complaints))

/-- The complaint about data that is no dictionary. -/
def notDictionary : Complaint :=
  .entries [(.text "_schema", .texts ["Invalid input type."])]

mutual

/-- The value of a field that is there. -/
def load : Shape → Value → Except Fault Value
  | .part required kind fields, v =>
    match v with
    | .null => if required then .error (.because nullText) else .ok .null
    | .dict entries =>
      match loadFields fields entries with
      | .ok tally => finish kind fields entries tally
      | .error fault => .error fault
    | _ => .error (.rejected notDictionary)
  | _, .null => .ok .null
  | .text, v => loadText v
  | .integer, v => loadInteger v
  | .boolean, v => loadBoolean v
  | .textMap, v => loadMap false v
  | .rawMap, v => loadMap true v

/-- What the fields of a part give. -/
def loadFields : List (Slot × Shape) → List (Key × Value) → Except Fault Tally
  | [], _ => .ok ⟨[], []⟩
  | (slot, shape) :: fields, entries =>
    let found :=
      match Value.entryAt? slot.wire entries with
      | some v => load shape v
      | none => .ok shape.absent
    match found with
    | .ok v => (loadFields fields entries).map (Tally.accept slot v)
    | .error (.rejected complaint) =>
      (loadFields fields entries).map (Tally.complain slot complaint)
    | .error fault => .error fault

end

end Shape

namespace Schema

/-- The record that data gives. -/
def load (schema : Schema) (data : Value) : Except Fault Value :=
  match data with
  | .dict entries =>
    match Shape.loadFields schema.fields entries with
    | .ok tally => Shape.finish schema.kind schema.fields entries tally
    | .error fault => .error fault
  | _ => .error (.rejected Shape.notDictionary)

end Schema

end Installation

import Installation.Value.Conversion
import Installation.Value.Literal

/-!
# Labels

The labels of an installation's objects.  `Labels.ofResource` marks everything that was
created for an installation, `Labels.selector` picks the pods that run it, and `Labels.all`
are the labels of its objects: those of the selector with the ones that the spec asks for
on top, which win over reserved keys.  Labels of one key are replaced in place, so that the
selector keeps its text.
-/

namespace Installation

/-- Labels by key. -/
structure Labels where
  entries : List (Key × Value)

namespace Labels

/-- The label of everything that was created for an installation. -/
def resourceLabel : String := "installation.mattermost.com/resource"

/-- The label of all components of an installation. -/
def installationLabel : String := "installation.mattermost.com/installation"

/-- The label of the application. -/
def appLabel : String := "app"

/-- The name of the application, which is also that of its container. -/
def appName : String := "mattermost"

/-- No labels. -/
def empty : Labels := ⟨[]⟩

/-- Labels with one more, or one of them replaced. -/
def put (label : Key) (v : Value) (labels : Labels) : Labels :=
  ⟨Assoc.insert label v labels.entries⟩

/-- Labels with others on top. -/
def overlay (labels others : Labels) : Labels :=
  ⟨Assoc.overlay labels.entries others.entries⟩

/-- Labels with those on top that a value stands for: a dictionary or a list of pairs. -/
def update (labels : Labels) : Value → Except Fault Labels
  | .dict entries => .ok (labels.overlay ⟨entries⟩)
  | .list pairs => (Value.insertPairs 0 labels.entries pairs).map Labels.mk
  | v => .error (v.lacks "copy")

/-- Whether all of the other labels are among these, with the same values. -/
def contains (labels others : Labels) : Bool :=
  others.entries.all fun e =>
    match labels.entries.lookup e.1 with
    | some v => v == e.2
    | none => false

/-- A label as text. -/
def entryText (e : Key × Value) : List Char := e.1.plain ++ ['='] ++ e.2.plain

/-- Labels as text, with commas between them. -/
def text (labels : Labels) : String :=
  String.ofList ([','].intercalate (labels.entries.map entryText))

/-- Labels the way they are shown. -/
def shown (labels : Labels) : String :=
  String.ofList ("Labels<".toList ++ (Value.dict labels.entries).literal ++ ['>'])

/-- The number of labels. -/
def size (labels : Labels) : Nat := labels.entries.length

/-- The label of everything that was created for an installation, as labels. -/
def ofResource (name : Value) : Labels := empty.put (.text resourceLabel) name

/-- The labels that pick the pods that run an installation. -/
def selector (name : Value) : Labels :=
  ((ofResource name).put (.text installationLabel) name).put (.text appLabel)
    (.text appName)

/-- The labels of an installation's objects, where custom ones may be asked for. -/
def all (custom name : Value) : Except Fault Labels :=
  (selector name).update (custom.orElse (.dict []))

@[simp]
theorem entries_put (label : Key) (v : Value) (labels : Labels) :
  (labels.put label v).entries = Assoc.insert label v labels.entries
  := rfl

@[simp]
theorem entries_overlay (labels others : Labels) :
  (labels.overlay others).entries = Assoc.overlay labels.entries others.entries
  := rfl

@[simp]
theorem update_dict (labels : Labels) (entries : List (Key × Value)) :
  labels.update (.dict entries) = .ok (labels.overlay ⟨entries⟩)
  := rfl

/-- The selector names the installation twice and the application once. -/
theorem entries_selector (name : Value) :
  (selector name).entries =
    [(.text resourceLabel, name), (.text installationLabel, name),
     (.text appLabel, .text appName)]
  := by
  simp [selector, ofResource, empty, Assoc.insert, resourceLabel, installationLabel,
    appLabel]

end Labels

end Installation

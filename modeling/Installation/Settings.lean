import Installation.Defaults

/-!
# Settings

The settings of an operator: the defaults that it fills gaps with, and whether it writes
them back into the specs.  `Settings.read` reads a variable of an environment, in which some
words stand for true and false.
-/

namespace Installation

/-- The settings of an operator. -/
structure Settings where
  defaults : Defaults
  writeBack : Value

namespace Settings

/-- The words for true in an environment. -/
def yesWords : List String := ["True", "true", "yes", "1"]

/-- The words for false in an environment. -/
def noWords : List String := ["False", "false", "no", "0"]

/-- The value that the text of a variable stands for. -/
def reading (s : String) : Value :=
  if yesWords.contains s then .bool true
  else if noWords.contains s then .bool false
  else .text s

/-- The value of a variable, or else the first of the substitutes. -/
def read (env : Environment) (name : String) (substitutes : List Value) :
    Except Fault Value :=
  match env.lookup name with
  | some s => .ok (reading s)
  | none =>
    match substitutes with
    | v :: _ => .ok v
    | [] => .error (.missingKey (.text name))

/-- The variable that says whether defaults are written back. -/
def writeBackVariable : String := "WRITE_BACK_DEFAULTS"

/-- The settings of an operator whose environment says nothing. -/
def builtin : Settings := ⟨.builtin, .bool true⟩

/-- The settings of an environment; defaults are written back unless it says otherwise. -/
def ofEnvironment (env : Environment) : Settings where
  defaults := .ofEnvironment env
  writeBack :=
    match env.lookup writeBackVariable with
    | some s => .bool (reading s).truthy
    | none => builtin.writeBack

/-- The settings with some defaults replaced by name, and with another word on whether
they are written back unless it is null. -/
def change (defaults : List (String × Value)) (writeBack : Value) (settings : Settings) :
    Except Fault Settings := do
  let defaults ← settings.defaults.update defaults
  .ok ⟨defaults, if writeBack.isNull then settings.writeBack else writeBack⟩

end Settings

end Installation

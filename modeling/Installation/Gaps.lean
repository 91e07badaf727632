import Installation.Attempt
import Installation.Defaults
import Installation.Ingress

/-!
# Filling gaps

`fillSpec` fills the gaps of a spec with defaults: image, version and pull policy, and
what the managed file store and the managed database lack.  Where neither an external file
store (database) nor a managed one is given, a managed one is put in.  A spec whose ingress
is enabled and has no host is left as it is.

What is found in the place of a file store or database decides for itself how its gaps are
filled, by the operation of its kind; what has no such operation stops the update.
-/

namespace Installation

/-- Attributes with a value in the place of one that is not given. -/
def fillGap (name : String) (v : Value) (attrs : List (String × Value)) :
    List (String × Value) :=
  if ((attrs.lookup name).getD .null).truthy then attrs else Assoc.insert name v attrs

namespace Value

/-- Whether an attribute of a record is set, asked by the operation that tells so. -/
def tells (operation name : String) (v : Value) : Except Fault Bool := do
  let _ ← v.offers operation
  let x ← v.attr name
  .ok !x.isNull

/-- Whether an external file store or database is given. -/
def isExternal (v : Value) : Except Fault Bool := v.tells "is_external" "external"

/-- Whether a volume is given as the file store. -/
def isExternalVolume (v : Value) : Except Fault Bool :=
  v.tells "is_external_volume" "external_volume"

/-- Whether a file store is run elsewhere, in either of two ways. -/
def isElsewhere (v : Value) : Except Fault Bool := do
  if ← v.isExternal then .ok true else v.isExternalVolume

end Value

/-- The attributes of a managed file store with its gaps filled. -/
def fillManagedFileStore (d : Defaults) (attrs : List (String × Value)) :
    List (String × Value) :=
  fillGap "storage_size" d.fileStoreSize attrs

/-- The attributes of a managed database with its gaps filled. -/
def fillManagedDatabase (d : Defaults) (attrs : List (String × Value)) :
    List (String × Value) :=
  fillGap "storage_size" d.databaseSize (fillGap "type" d.databaseType attrs)

/-- The managed file store that is put in. -/
def freshFileStore (d : Defaults) : Value :=
  .record .managedFileStore (fillManagedFileStore d [])

/-- The managed database that is put in. -/
def freshDatabase (d : Defaults) : Value :=
  .record .managedDatabase (fillManagedDatabase d [])

mutual

/-- A part of a spec with its gaps filled. -/
def fillPart (d : Defaults) : Value → Attempt Value
  | .record kind attrs =>
    let part := Value.record kind attrs
    match part.offers "set_defaults" with
    | .error fault => .failed part fault
    | .ok _ =>
      match kind with
      | .managedFileStore => .done (.record kind (fillManagedFileStore d attrs))
      | .managedDatabase => .done (.record kind (fillManagedDatabase d attrs))
      | .fileStore =>
        match part.isElsewhere with
        | .error fault => .failed part fault
        | .ok true => .done part
        | .ok false => (fillManaged d (freshFileStore d) attrs).map (Value.record kind)
      | .database =>
        match part.isExternal with
        | .error fault => .failed part fault
        | .ok true => .done part
        | .ok false => (fillManaged d (freshDatabase d) attrs).map (Value.record kind)
      | _ => .done part
  | part => .failed part (part.lacks "set_defaults")

/-- Attributes with the gaps of the managed one among them filled, or with a fresh one. -/
def fillManaged (d : Defaults) (fresh : Value) :
    List (String × Value) → Attempt (List (String × Value))
  | [] => .done [("operator_managed", fresh)]
  | (name, v) :: attrs =>
    if name = "operator_managed" then
      if v.isNull then .done ((name, fresh) :: attrs)
      else (fillPart d v).map fun v => (name, v) :: attrs
    else (fillManaged d fresh attrs).map ((name, v) :: ·)

end

/-- A part of a spec with its gaps filled, some of the defaults being replaced by name.  That
the part lacks the operation comes to light before the defaults are looked at. -/
def fillPartWith (changes : List (String × Value)) (part : Value) : Attempt Value :=
  match part.offers "set_defaults", Defaults.builtin.update changes with
  | .error (.noAttribute owner name), _ => .failed part (.noAttribute owner name)
  | _, .error fault => .failed part fault
  | _, .ok d => fillPart d part

/-- A spec with a value in the place of an attribute that is not given. -/
def fillAttr (name : String) (v : Value) (spec : Value) : Attempt Value :=
  match spec.attr name with
  | .error fault => .failed spec fault
  | .ok x => .done (if x.truthy then spec else spec.setAttr name v)

/-- A spec with an empty record in the place of a part that is null. -/
def addPart (name : String) (kind : Kind) (spec : Value) : Attempt Value :=
  match spec.attr name with
  | .error fault => .failed spec fault
  | .ok part => .done (if part.isNull then spec.setAttr name (.record kind []) else spec)

/-- A spec with the gaps of one of its parts filled. -/
def fillPartAt (d : Defaults) (name : String) (spec : Value) : Attempt Value :=
  match spec.attr name with
  | .error fault => .failed spec fault
  | .ok part => (fillPart d part).map fun part => spec.setAttr name part

/-- A spec with its gaps filled. -/
def fillSpec (d : Defaults) (spec : Value) : Attempt Value :=
  match resolveIngress spec with
  | .error fault => .failed spec fault
  | .ok view =>
    if view.enabled && !view.host.truthy then .failed spec .hostRequired
    else
      (fillAttr "image" d.image spec)
        |>.andThen (fillAttr "version" d.version)
        |>.andThen (fillAttr "image_pull_policy" d.pullPolicy)
        |>.andThen (addPart "file_store" .fileStore)
        |>.andThen (addPart "database" .database)
        |>.andThen (fillPartAt d "file_store")
        |>.andThen (fillPartAt d "database")

end Installation

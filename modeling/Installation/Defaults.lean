import Installation.Fault
import Installation.Value.Assignment

/-!
# Defaults

The values that are used where a spec leaves a gap.  They are texts wherever they come
from an environment; `Defaults.update` replaces some of them by name, with values of any
shape.
-/

namespace Installation

/-- The variables of an environment. -/
abbrev Environment := List (String × String)

/-- The values that are used where a spec leaves a gap. -/
structure Defaults where
  image : Value
  version : Value
  pullPolicy : Value
  fileStoreSize : Value
  databaseType : Value
  databaseSize : Value

namespace Defaults

/-- The defaults of an environment that has none of its own. -/
def builtin : Defaults where
  image := .text "mattermost/mattermost-enterprise-edition"
  version := .text "5.37.1"
  pullPolicy := .text "IfNotPresent"
  fileStoreSize := .text "50Gi"
  databaseType := .text "mysql"
  databaseSize := .text "50Gi"

/-- The value of a variable as it stands, or a default. -/
def variableOr (env : Environment) (name : String) (fallback : Value) : Value :=
  match env.lookup name with
  | some s => .text s
  | none => fallback

/-- The defaults of an environment. -/
def ofEnvironment (env : Environment) : Defaults where
  image := variableOr env "DEFAULT_MATTERMOST_IMAGE" builtin.image
  version := variableOr env "DEFAULT_MATTERMOST_VERSION" builtin.version
  pullPolicy := variableOr env "DEFAULT_PULL_POLICY" builtin.pullPolicy
  fileStoreSize := variableOr env "DEFAULT_FILESTORE_STORAGE_SIZE" builtin.fileStoreSize
  databaseType := variableOr env "DEFAULT_DATABASE_TYPE" builtin.databaseType
  databaseSize := variableOr env "DEFAULT_DATABASE_STORAGE_SIZE" builtin.databaseSize

/-- The defaults by name. -/
def toPairs (d : Defaults) : List (String × Value) :=
  [("image", d.image), ("version", d.version), ("pull_policy", d.pullPolicy),
   ("filestore_storage_size", d.fileStoreSize), ("database_type", d.databaseType),
   ("database_storage_size", d.databaseSize)]

/-- The names of the defaults. -/
def names : List String := builtin.toPairs.map (·.1)

/-- The defaults with one of them replaced. -/
def set (d : Defaults) (name : String) (v : Value) : Defaults :=
  match name with
  | "image" => { d with image := v }
  | "version" => { d with version := v }
  | "pull_policy" => { d with pullPolicy := v }
  | "filestore_storage_size" => { d with fileStoreSize := v }
  | "database_type" => { d with databaseType := v }
  | "database_storage_size" => { d with databaseSize := v }
  | _ => d

/-- The defaults with some of them replaced by name. -/
def update (d : Defaults) (pairs : List (String × Value)) : Except Fault Defaults :=
  match (pairs.map (·.1)).filter fun name => !names.contains name with
  | [] => .ok (pairs.foldl (fun d (name, v) => d.set name v) d)
  | unknown => .error (.unexpectedFields unknown)

/-- The defaults with a part of one of them replaced, which a path leads to that starts with
the name of the default. -/
def replace (v : Value) (path : Path) (d : Defaults) : Defaults :=
  match path with
  | .text name :: path =>
    match d.toPairs.lookup name with
    | none => d
    | some part => d.set name (part.replace v path)
  | _ => d

end Defaults

end Installation

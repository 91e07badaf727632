import Installation.Value.Equality

/-!
# Replacing parts of values

`Value.replace` replaces the part of a value that a path leads to: through the entries of
dictionaries by their keys, and through the attributes of records by texts, their names.
Where the path leaves the parts that there are, the value stays as it is, apart from the end
of the path, which may be new.
-/

namespace Installation

/-- The way to a part of a value. -/
abbrev Path := List Key

namespace Value

/-- A value with the part at the end of a path replaced. -/
def replace (v new : Value) (path : Path) : Value :=
  match path, v with
  | [], _ => new
  | k :: path, .dict entries =>
    .dict (Assoc.insert k (replace ((entries.lookup k).getD .null) new path) entries)
  | .text name :: path, .record kind attrs =>
    .record kind (Assoc.insert name (replace ((attrs.lookup name).getD .null) new path) attrs)
  | _, v => v

@[simp]
theorem replace_nil (v new : Value) :
  v.replace new [] = new
  := by
  simp [replace]

@[simp]
theorem replace_dict (new : Value) (k : Key) (path : Path) (entries : List (Key × Value)) :
  (dict entries).replace new (k :: path) =
    dict (Assoc.insert k (((entries.lookup k).getD null).replace new path) entries)
  := by
  simp [replace]

@[simp]
theorem replace_record (new : Value) (name : String) (path : Path) (kind : Kind)
    (attrs : List (String × Value)) :
  (record kind attrs).replace new (.text name :: path) =
    record kind (Assoc.insert name (((attrs.lookup name).getD null).replace new path) attrs)
  := by
  simp [replace]

end Value

end Installation

import Installation.Gaps

/-!
# The places of gaps

Where the gaps of a spec are.  A `Gap` is the path to an attribute without a given value,
and the name of the default that fills it.  `specGaps` are the gaps that an update of a spec
fills, in the order in which it fills them; the gaps of parts that stop the update, and of
those after them, are not among them.
-/

namespace Installation

/-- A place for a default: the path to it, and the name of the default. -/
structure Gap where
  path : Path
  source : String

/-- A gap of a part as a gap of what the part belongs to. -/
def Gap.under (name : String) (gap : Gap) : Gap := { gap with path := .text name :: gap.path }

/-- The gap at an attribute, unless it has a value. -/
def gapAt (name source : String) (v : Value) : List Gap :=
  if v.truthy then [] else [⟨[.text name], source⟩]

/-- The gaps of a managed file store. -/
def managedFileStoreGaps (attrs : List (String × Value)) : List Gap :=
  gapAt "storage_size" "filestore_storage_size" ((attrs.lookup "storage_size").getD .null)

/-- The gaps of a managed database. -/
def managedDatabaseGaps (attrs : List (String × Value)) : List Gap :=
  gapAt "type" "database_type" ((attrs.lookup "type").getD .null) ++
    gapAt "storage_size" "database_storage_size" ((attrs.lookup "storage_size").getD .null)

mutual

/-- The gaps of a part of a spec, or the fault that stops their filling. -/
def partGaps : Value → Except Fault (List Gap)
  | .record kind attrs =>
    let part := Value.record kind attrs
    match part.offers "set_defaults" with
    | .error fault => .error fault
    | .ok _ =>
      match kind with
      | .managedFileStore => .ok (managedFileStoreGaps attrs)
      | .managedDatabase => .ok (managedDatabaseGaps attrs)
      | .fileStore =>
        match part.isElsewhere with
        | .error fault => .error fault
        | .ok true => .ok []
        | .ok false => managedGaps (managedFileStoreGaps []) attrs
      | .database =>
        match part.isExternal with
        | .error fault => .error fault
        | .ok true => .ok []
        | .ok false => managedGaps (managedDatabaseGaps []) attrs
      | _ => .ok []
  | part => .error (part.lacks "set_defaults")

/-- The gaps of the managed part among attributes, or those of a fresh one. -/
def managedGaps (fresh : List Gap) : List (String × Value) → Except Fault (List Gap)
  | [] => .ok (fresh.map (Gap.under "operator_managed"))
  | (name, v) :: attrs =>
    if name = "operator_managed" then
      if v.isNull then .ok (fresh.map (Gap.under "operator_managed"))
      else (partGaps v).map fun gaps => gaps.map (Gap.under "operator_managed")
    else managedGaps fresh attrs

end

/-- The gaps of one of the parts of a spec, which is a fresh one where it is null. -/
def gapsOfPart (name : String) (kind : Kind) (spec : Value) : Except Fault (List Gap) :=
  let part := spec.attrOr name .null
  (partGaps (if part.isNull then .record kind [] else part)).map fun gaps =>
    gaps.map (Gap.under name)

/-- The gaps of the file store of a spec, and of its database behind those. -/
def gapsOfParts (spec : Value) : List Gap :=
  match gapsOfPart "file_store" .fileStore spec with
  | .error _ => []
  | .ok gaps =>
    match gapsOfPart "database" .database spec with
    | .error _ => gaps
    | .ok others => gaps ++ others

/-- The gaps of a spec. -/
def specGaps (spec : Value) : List Gap :=
  match resolveIngress spec with
  | .error _ => []
  | .ok view =>
    if view.enabled && !view.host.truthy then []
    else
      gapAt "image" "image" (spec.attrOr "image" .null) ++
        gapAt "version" "version" (spec.attrOr "version" .null) ++
        gapAt "image_pull_policy" "pull_policy" (spec.attrOr "image_pull_policy" .null) ++
        gapsOfParts spec

end Installation

import Installation.Digest.Fingerprint
import Installation.Gaps
import Installation.Image
import Installation.Labels.Basic
import Installation.Log
import Installation.Schema.Catalog
import Installation.Schema.Dump
import Installation.Schema.Load
import Installation.Value.Nulls
import Installation.Value.Route

/-!
# Resources

A `Resource` is an installation: its name, its spec, and the fields of its spec that the
last filling of gaps has changed.  `Resource.dumpSpec` is the spec as it travels, without
nulls, and everything that is published about a resource comes from there or from the spec
itself: the fingerprint, the image, the endpoint and the labels.  `Resource.fillGaps` fills
the gaps of the spec and keeps account of the fields that are different afterwards.
-/

namespace Installation

/-- The name of the kind of resource in log lines and messages. -/
def resourceKind : String := "Mattermost"

/-- An installation. -/
structure Resource where
  name : String
  spec : Value
  defaulted : List (Key × Value)

namespace Resource

/-- A resource whose gaps were not filled yet. -/
def ofSpec (name : String) (spec : Value) : Resource := ⟨name, spec, []⟩

/-- The resource of a spec as it travels. -/
def load (name : String) (data : Value) : Except Fault Resource :=
  (Schema.spec.load data).map (ofSpec name)

/-- A spec as it travels, without nulls. -/
def wireEntries (spec : Value) : Except Fault (List (Key × Value)) :=
  (Schema.spec.dump spec).map Value.dropNullEntries

/-- The spec of a resource as it travels, without nulls. -/
def dumpSpec (r : Resource) : Except Fault (List (Key × Value)) := wireEntries r.spec

/-- Whether a value is other than the one that was held under a key before, if any was. -/
def differs (before : List (Key × Value)) (e : Key × Value) : Bool :=
  !(((before.lookup e.1).getD .null).same e.2)

/-- The entries that are different from those before. -/
def changes (before after : List (Key × Value)) : List (Key × Value) :=
  after.filter (differs before)

/-- A resource with the gaps of its spec filled. -/
def fillGaps (d : Defaults) (r : Resource) : Attempt Resource :=
  match r.dumpSpec with
  | .error fault => .failed r fault
  | .ok before =>
    ((fillSpec d r.spec).map fun spec => { r with spec := spec }).andThen fun r =>
      match r.dumpSpec with
      | .error fault => .failed r fault
      | .ok after => .done { r with defaulted := changes before after }

/-- The texts among the keys of entries, in order, with commas between them. -/
def keyNames (entries : List (Key × Value)) : String :=
  let names := entries.map fun e => String.ofList e.1.plain
  ", ".intercalate (names.mergeSort fun s t => decide (s ≤ t))

/-- What is said about the fields that were filled. -/
def defaultedLines (r : Resource) : List LogLine :=
  if r.defaulted.isEmpty then []
  else [⟨.debug, s!"Defaulted {keyNames r.defaulted} for {resourceKind} {r.name}"⟩]

/-- What is said about an attempt to fill gaps. -/
def fillingLines (a : Attempt Resource) : List LogLine :=
  match a.fault? with
  | none => a.state.defaultedLines
  | some _ => []

/-- How the resource is reached. -/
def ingress (r : Resource) : Except Fault IngressView := resolveIngress r.spec

/-- The reference to the image that the resource runs. -/
def image (r : Resource) : Except Fault String := do
  let image ← r.spec.attr "image"
  let version ← r.spec.attr "version"
  imageReference image version

/-- The name of the deployment that runs the resource. -/
def deploymentName (r : Resource) : String := r.name

/-- The label of everything that was created for the resource. -/
def resourceLabels (r : Resource) : Labels := .ofResource (.text r.name)

/-- The labels that pick the pods that run the resource. -/
def selectorLabels (r : Resource) : Labels := .selector (.text r.name)

/-- The labels of the objects of the resource. -/
def labels (r : Resource) : Except Fault Labels := do
  let custom ← r.spec.attr "resource_labels"
  Labels.all custom (.text r.name)

/-- The fingerprint of the spec as it travels. -/
def specHash (r : Resource) : Except Fault String := do
  let entries ← r.dumpSpec
  (Value.dict entries).fingerprint

/-- The fields of the spec that the last filling of gaps has changed, as a patch. -/
def specPatch (r : Resource) : List (Key × Value) := r.defaulted

/-- The host of a resource that is reached, and nothing for one that is not. -/
def endpoint (view : IngressView) : Value := if view.enabled then view.host else .text ""

/-- What is published about a resource. -/
def status (r : Resource) : Except Fault (List (Key × Value)) := do
  let image ← r.spec.attr "image"
  let version ← r.spec.attr "version"
  let view ← r.ingress
  let hash ← r.specHash
  .ok [(.text "image", image), (.text "version", version),
    (.text "endpoint", endpoint view), (.text "selector", .text r.selectorLabels.text),
    (.text "specHash", .text hash)]

/-- A resource with a part of its spec replaced. -/
def edit (route : Route) (v : Value) (r : Resource) : Except Fault Resource :=
  (r.spec.assign v route).map fun spec => { r with spec := spec }

/-- The resource of the spec as it travels, read again. -/
def reload (r : Resource) : Except Fault Resource := do
  let entries ← r.dumpSpec
  load r.name (.dict entries)

end Resource

end Installation

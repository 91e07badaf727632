import Installation.Condition
import Installation.Resource
import Installation.Schema.Refresh
import Installation.Settings

/-!
# Reconciling

`reconcile` looks at a resource after an event: it reads the spec, fills its gaps and
publishes what it found out.  The result is a `Patch` of the resource, which has an entry
for the spec where defaults are written back, and one for the status, with a condition that
says whether the spec could be resolved.  A spec whose ingress has no host is reported in
the status and stops the update for good; any other fault stops it without a report, and
with the part of the patch that was there before.
-/

namespace Installation

/-- A resource at an event, with the time of the event and the settings in force. -/
structure Event where
  name : String
  metadata : Value
  now : String
  spec : Value
  status : Value
  settings : Settings

/-- The changes of a resource's spec and status; none where a part is left alone. -/
structure Patch where
  spec? : Option (List (Key × Value))
  status? : Option (List (Key × Value))

/-- What came of an event. -/
structure Outcome where
  fault? : Option Fault
  patch : Patch
  log : List LogLine

namespace Patch

/-- The patch that changes nothing. -/
def empty : Patch := ⟨none, none⟩

end Patch

namespace Event

/-- The reason of the condition of a spec that was resolved. -/
def resolvedReason : String := "SpecResolved"

/-- The reason of the condition of a spec with an invalid configuration. -/
def invalidReason : String := "InvalidConfiguration"

/-- The generation of the resource. -/
def generation (event : Event) : Except Fault Value :=
  event.metadata.getOr "generation" (.int 0)

/-- The conditions that the status has so far. -/
def conditions (event : Event) : Except Fault Value :=
  (event.status.orElse (.dict [])).getOr "conditions" (.list [])

/-- The condition that says whether the spec could be resolved. -/
def readyCondition (ready : Bool) (reason message : String) (generation : Value) : Value :=
  .dict
    [(.text "type", .text "Ready"), (.text "status", .text (if ready then "True" else "False")),
     (.text "reason", .text reason), (.text "message", .text message),
     (.text "observedGeneration", generation)]

/-- The entries of the status about whether the spec could be resolved, next to those about
the resource. -/
def statusEntries (event : Event) (ready : Bool) (reason message : String) (error : Value)
    (about : Except Fault (List (Key × Value))) : Except Fault (List (Key × Value)) := do
  let generation ← event.generation
  let conditions ← event.conditions
  let condition := readyCondition ready reason message generation
  let conditions ← Condition.upsert event.now conditions condition
  let about ← about
  .ok (about ++
    [(.text "conditions", .list conditions), (.text "error", error),
     (.text "observedGeneration", generation)])

/-- What comes of a spec with an invalid configuration. -/
def reject (event : Event) : Outcome :=
  let text := Fault.hostRequired.text
  let log : List LogLine :=
    [⟨.error, s!"{resourceKind} {event.name} has an invalid spec: {text}"⟩]
  match event.statusEntries false invalidReason text (.text text) (.ok []) with
  | .error fault => ⟨some fault, .empty, log⟩
  | .ok status => ⟨some (.permanent text), ⟨none, some status⟩, log⟩

/-- The changes of the spec that are written back, if there are any. -/
def writeBack? (event : Event) (r : Resource) : Option (List (Key × Value)) :=
  if event.settings.writeBack.truthy && !r.specPatch.isEmpty then some r.specPatch else none

/-- What is said about the changes that are written back. -/
def writeBackLines (event : Event) (patch? : Option (List (Key × Value))) : List LogLine :=
  match patch? with
  | none => []
  | some patch =>
    [⟨.info, s!"Writing defaults for {Resource.keyNames patch} to {resourceKind} {event.name}"⟩]

/-- What comes of a spec that was resolved. -/
def publish (event : Event) (r : Resource) : Outcome :=
  let patch? := event.writeBack? r
  let log := r.defaultedLines ++ event.writeBackLines patch?
  let message := s!"{resourceKind} {r.name} spec resolved"
  match event.statusEntries true resolvedReason message .null r.status with
  | .error fault => ⟨some fault, ⟨patch?, none⟩, log⟩
  | .ok status => ⟨none, ⟨patch?, some status⟩, log⟩

/-- The spec of the resource after its gaps were filled, apart from what is written back. -/
def specAfter (event : Event) : Value :=
  match Resource.load event.name event.spec with
  | .error _ => event.spec
  | .ok loaded =>
    let filled := loaded.fillGaps event.settings.defaults
    Schema.spec.refresh filled.state.spec event.spec

end Event

/-- What comes of an event. -/
def reconcile (event : Event) : Outcome :=
  match Resource.load event.name event.spec with
  | .error fault => ⟨some fault, .empty, []⟩
  | .ok loaded =>
    match loaded.fillGaps event.settings.defaults with
    | ⟨r, none⟩ => event.publish r
    | ⟨_, some .hostRequired⟩ => event.reject
    | ⟨_, some fault⟩ => ⟨some fault, .empty, []⟩

end Installation

import Installation.Resource
import Installation.Settings
import Installation.Sharing

/-!
# Sessions

A `Session` is a resource that is worked on under the settings of an operator: its gaps are
filled, parts of its spec are edited, other settings come into force, and it is read again
from the spec as it travels.  An edit inside of a part that stands in several places is made
in all of them.
-/

namespace Installation

/-- A resource and the settings under which it is worked on. -/
structure Session where
  settings : Settings
  resource : Resource
  sharing : Sharing

namespace Session

/-- A session before anything was done. -/
def start (settings : Settings) (resource : Resource) : Session :=
  ⟨settings, resource, .none⟩

/-- The sharing after an attempt to fill the gaps of the spec. -/
def sharingAfter (s : Session) (a : Attempt Resource) : Sharing :=
  let filled := (specGaps s.resource.spec).foldl Sharing.fill s.sharing
  match a.fault? with
  | some _ => filled
  | none =>
    let changed := fun passage : Passage =>
      a.state.defaulted.any fun e => passage.outside.head?.any fun k => e.1 == k
    ((Schema.spec.passages a.state.spec).filter changed).foldl Sharing.pass
      (filled.release .defaulted)

/-- A session with the gaps of the spec filled. -/
def fillGaps (s : Session) : Attempt Session :=
  match s.resource.dumpSpec with
  | .error fault => .failed s fault
  | .ok _ =>
    let a := s.resource.fillGaps s.settings.defaults
    a.map fun resource => { s with resource := resource, sharing := s.sharingAfter a }

/-- A session with what is at a place replaced. -/
def put (v : Value) (s : Session) : Place → Session
  | ⟨.spec, path⟩ =>
    { s with resource := { s.resource with spec := s.resource.spec.replace v path } }
  | ⟨.defaulted, path⟩ =>
    match (Value.dict s.resource.defaulted).replace v path with
    | .dict entries => { s with resource := { s.resource with defaulted := entries } }
    | _ => s
  | ⟨.defaults, path⟩ =>
    { s with settings := { s.settings with defaults := s.settings.defaults.replace v path } }

/-- A session with a part of the spec replaced, in all of the places where it stands. -/
def replace (path : Path) (v : Value) (s : Session) : Session :=
  let place : Place := ⟨.spec, path⟩
  let places := place :: s.sharing.others place
  { places.foldl (put v) s with sharing := s.sharing.replace places }

/-- A session with the part of the spec at the end of a route replaced. -/
def edit (route : Route) (v : Value) (s : Session) : Except Fault Session :=
  (s.resource.spec.locate v route).map fun path? =>
    match path? with
    | some path => s.replace path v
    | none => s

/-- An edit of a resource that shares nothing is an edit of its spec alone. -/
theorem edit_start (settings : Settings) (resource : Resource) (route : Route) (v : Value) :
  (start settings resource).edit route v = (resource.edit route v).map (start settings)
  := by
  simp only [edit, start, Resource.edit, Value.assign]
  cases resource.spec.locate v route with
  | error fault => rfl
  | ok path? => cases path? <;> rfl

/-- A session with other settings. -/
def configure (settings : Settings) (s : Session) : Session :=
  { s with settings := settings, sharing := s.sharing.release .defaults }

/-- A session with the resource read again from its spec as it travels. -/
def reload (s : Session) : Except Fault Session :=
  s.resource.reload.map fun resource => { s with resource := resource, sharing := .none }

end Session

end Installation

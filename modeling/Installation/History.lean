import Installation.Reconcile
import Installation.Value.Lookup
import Installation.Value.Merge

/-!
# Histories

The events of a resource one after the other.  A `Stored` resource takes in the patch of
each of them, also of one that was stopped, and is what the next one finds, unless somebody
has replaced its spec or status in between.  A spec without a patch stays as it is, of
whatever shape.  A status that is given and is no dictionary takes in nothing, which ends the
history.  Records that stand in the stored spec itself keep what the filling of gaps has put
into them.
-/

namespace Installation

/-- A resource as it is stored. -/
structure Stored where
  spec : Value
  status : Value

/-- An event of a stored resource, with the spec and status that replace those that are
stored. -/
structure Occurrence where
  name : String
  metadata : Value
  now : String
  settings : Settings
  spec? : Option Value
  status? : Option Value

namespace Stored

/-- A resource of which nothing is known. -/
def blank : Stored := ⟨.dict [], .dict []⟩

/-- The entries of a status, which may be left out. -/
def statusEntries (status : Value) : Except Fault (List (Key × Value)) :=
  if status.truthy then status.spread else .ok []

/-- A stored resource with a patch taken in. -/
def apply (patch : Patch) (stored : Stored) : Except Fault Stored :=
  (statusEntries stored.status).map fun entries =>
    { spec :=
        match patch.spec? with
        | some changes => stored.spec.merge (.dict changes)
        | none => stored.spec
      status := .dict (Assoc.overlay entries (patch.status?.getD [])) }

/-- A stored resource with its spec and status replaced where something was said. -/
def amend (occurrence : Occurrence) (stored : Stored) : Stored where
  spec := occurrence.spec?.getD stored.spec
  status := occurrence.status?.getD stored.status

/-- The event that an occurrence is for a stored resource. -/
def event (occurrence : Occurrence) (stored : Stored) : Event where
  name := occurrence.name
  metadata := occurrence.metadata
  now := occurrence.now
  spec := stored.spec
  status := stored.status
  settings := occurrence.settings

/-- What comes of an occurrence, and the resource that is stored afterwards. -/
def step (occurrence : Occurrence) (stored : Stored) : Except Fault (Outcome × Stored) :=
  let found := stored.amend occurrence
  let event := found.event occurrence
  let outcome := reconcile event
  ({ found with spec := event.specAfter }.apply outcome.patch).map fun next => (outcome, next)

/-- What comes of occurrences one after the other, and the resource that is stored in the
end. -/
def run (stored : Stored) : List Occurrence → Except Fault (List Outcome × Stored)
  | [] => .ok ([], stored)
  | occurrence :: rest =>
    match stored.step occurrence with
    | .error fault => .error fault
    | .ok (outcome, next) => (run next rest).map fun (outcomes, last) => (outcome :: outcomes, last)

@[simp]
theorem run_nil (stored : Stored) :
  stored.run [] = .ok ([], stored)
  := rfl

theorem run_cons (stored : Stored) (occurrence : Occurrence) (rest : List Occurrence) :
  stored.run (occurrence :: rest) =
    (stored.step occurrence).bind fun (outcome, next) =>
      (next.run rest).map fun (outcomes, last) => (outcome :: outcomes, last)
  := by
  rw [run]
  cases stored.step occurrence <;> rfl

/-- A run goes on from where an earlier one has ended. -/
theorem run_append (stored : Stored) (before after : List Occurrence) :
  stored.run (before ++ after) =
    (stored.run before).bind fun (outcomes, next) =>
      (next.run after).map fun (others, last) => (outcomes ++ others, last)
  := by
  induction before generalizing stored with
  | nil =>
    simp only [List.nil_append, run_nil, Except.bind]
    cases stored.run after <;> rfl
  | cons occurrence rest ih =>
    rw [List.cons_append, run_cons, run_cons]
    cases stored.step occurrence with
    | error fault => rfl
    | ok taken =>
      obtain ⟨outcome, next⟩ := taken
      simp only [Except.bind]
      rw [ih]
      cases next.run rest with
      | error fault => rfl
      | ok done =>
        obtain ⟨outcomes, last⟩ := done
        simp only [Except.bind, Except.map]
        cases last.run after <;> rfl

end Stored

end Installation

import Installation.Proofs.Reconcile.Data
import Installation.Proofs.Schema.Path

/-!
# Entries that are no fields

An entry that is no field becomes an attribute of the record that is read.  Nothing comes of
it where its name stands in nobody's way: specs that agree in all of their fields have the
same outcome, `reconcile_agree`.  Each of the other names does matter: for each of them, and
for each part where it is no field, one of the `intrusions` changes an outcome, so that a name
is `Harmless` in a part exactly when the part spares it: `harmless_iff`.
-/

namespace Installation

open Shape Value

/-- What an event changes: the fault that stopped it and the patch that it left. -/
def Outcome.effect (o : Outcome) : Option Fault × Patch := (o.fault?, o.patch)

/-- Whether no event of an inert spec has another effect after an entry of the given name was
put in at the end of a path. -/
def Harmless (path : List String) (name : String) : Prop :=
  ∀ (event : Event) (x : Value), event.settings.defaults.AreTexts → event.spec.IsJson →
    (Schema.spec.toShape true).inert event.spec → x.IsJson →
    (∃ es, along path event.spec = .dict es) →
    (reconcile { event with spec := putAt name x path event.spec }).effect =
      (reconcile event).effect

section Path

variable {path : List String} {kind : Kind} {fields : List (Slot × Shape)} {name : String}
  (hpath : (Schema.spec.toShape true).partAt? path = some (kind, fields))
  (hname : name ∉ wires fields)

include hpath hname

/-- Names that a part spares are harmless there. -/
theorem harmless_of_spared (hspared : kind.spares (.text name)) :
  Harmless path name
  := by
  intro event x hd hjson hinert hx hdict
  have hagree := agree_putAt (regular_spec true) hpath hname hdict x
  have hinert' := inert_putAt (regular_spec true) hjson hinert hpath hname hspared hdict
    (x := x)
  rw [reconcile_agree hd hjson (hjson.putAt hx name path) hinert hinert' hagree]

end Path

/-! ### Intrusions -/

/-- An entry put into a spec at the end of a path. -/
structure Intrusion where
  path : List String
  name : String
  value : Value
  spec : Value

/-- A spec with its own gaps filled. -/
def filledSpec (pairs : List (String × Value)) : Value :=
  object
    (("image", .text "team") :: ("version", .text "5") :: ("imagePullPolicy", .text "Always") ::
      pairs)

/-- A spec without gaps whose file store and database are managed. -/
def managedSpec : Value :=
  filledSpec
    [("ingress", object []),
     ("fileStore", object [("operatorManaged", object [("storageSize", .text "1Gi")])]),
     ("database", object [("operatorManaged",
       object [("type", .text "mysql"), ("storageSize", .text "1Gi")])])]

/-- A spec without gaps whose file store is a volume. -/
def volumeSpec : Value :=
  filledSpec
    [("ingressName", .text "chat.example.com"),
     ("fileStore", object [("externalVolume", object [])]),
     ("database", object [("external", object [])])]

/-- A spec without gaps whose file store is reached through an address. -/
def addressSpec : Value :=
  filledSpec
    [("ingressName", .text "chat.example.com"),
     ("fileStore", object [("external", object [])]),
     ("database", object [("external", object [])])]

/-- Entries with names that parts do not spare, for each of these names. -/
def intrusions : List Intrusion :=
  [⟨[], "self", .null, managedSpec⟩,
   ⟨[], "image_pull_policy", .text "", managedSpec⟩,
   ⟨[], "ingress_name", .text "", volumeSpec⟩,
   ⟨[], "ingress_annotations", .int 0, managedSpec⟩,
   ⟨[], "use_ingress_tls", .bool true, managedSpec⟩,
   ⟨[], "resource_labels", .int 0, managedSpec⟩,
   ⟨[], "file_store", .int 0, managedSpec⟩,
   ⟨["ingress"], "self", .null, managedSpec⟩,
   ⟨["ingress"], "tls_secret", .text "", managedSpec⟩,
   ⟨["fileStore"], "self", .null, managedSpec⟩,
   ⟨["fileStore"], "external_volume", .null, volumeSpec⟩,
   ⟨["fileStore"], "operator_managed", .null, managedSpec⟩,
   ⟨["fileStore"], "is_external", .null, managedSpec⟩,
   ⟨["fileStore"], "is_external_volume", .null, managedSpec⟩,
   ⟨["fileStore"], "set_defaults", .null, managedSpec⟩,
   ⟨["fileStore", "external"], "self", .null, addressSpec⟩,
   ⟨["fileStore", "externalVolume"], "self", .null, volumeSpec⟩,
   ⟨["fileStore", "externalVolume"], "volume_claim_name", .text "", volumeSpec⟩,
   ⟨["fileStore", "operatorManaged"], "self", .null, managedSpec⟩,
   ⟨["fileStore", "operatorManaged"], "storage_size", .null, managedSpec⟩,
   ⟨["fileStore", "operatorManaged"], "set_defaults", .null, managedSpec⟩,
   ⟨["database"], "self", .null, managedSpec⟩,
   ⟨["database"], "operator_managed", .null, managedSpec⟩,
   ⟨["database"], "is_external", .null, managedSpec⟩,
   ⟨["database"], "set_defaults", .null, managedSpec⟩,
   ⟨["database", "external"], "self", .null, volumeSpec⟩,
   ⟨["database", "operatorManaged"], "self", .null, managedSpec⟩,
   ⟨["database", "operatorManaged"], "storage_size", .null, managedSpec⟩,
   ⟨["database", "operatorManaged"], "set_defaults", .null, managedSpec⟩]

/-- The fingerprint in the status of a patch. -/
def Patch.print? (patch : Patch) : Option String :=
  match patch.status?.bind (entryAt? "specHash") with
  | some (.text s) => some s
  | _ => none

/-- Whether two effects differ in a fault, in a spec to write back or in a fingerprint. -/
def unlike (e e' : Option Fault × Patch) : Bool :=
  e.1.isNone != e'.1.isNone || e.2.spec?.isNone != e'.2.spec?.isNone ||
    e.2.print? != e'.2.print?

theorem ne_of_unlike {e e' : Option Fault × Patch} (h : unlike e e') :
  e ≠ e'
  := by
  rintro rfl
  simp [unlike] at h

/-- Each of the intrusions changes an effect. -/
theorem unlike_of_mem_intrusions :
  ∀ i ∈ intrusions, unlike
    (reconcile (.ofSpec (putAt i.name i.value i.path i.spec) .builtin)).effect
    (reconcile (.ofSpec i.spec .builtin)).effect
  := by
  decide +kernel

theorem isJson_of_mem_intrusions :
  ∀ i ∈ intrusions, i.spec.IsJson ∧ i.value.IsJson
  := by
  simp [intrusions, managedSpec, volumeSpec, addressSpec, filledSpec, isJson_object, IsJson]

theorem inert_of_mem_intrusions :
  ∀ i ∈ intrusions, (Schema.spec.toShape true).inert i.spec
  := by
  decide +kernel

theorem exists_dict_of_mem_intrusions :
  ∀ i ∈ intrusions, ∃ es, along i.path i.spec = .dict es
  := by
  have hobject (pairs : List (String × Value)) : ∃ es, object pairs = .dict es := ⟨_, rfl⟩
  simp [intrusions, managedSpec, volumeSpec, addressSpec, filledSpec, along, List.lookup_cons,
    hobject]

/-- There is an intrusion for each name that a part does not spare, unless it is a field. -/
theorem exists_intrusion :
  ∀ part ∈ parts (Schema.spec.toShape true),
    ∀ name ∈ "self" :: (part.2.1.declared ++ part.2.1.operations),
      name ∈ wires part.2.2 ∨ ∃ i ∈ intrusions, i.path = part.1 ∧ i.name = name
  := by
  decide +kernel

theorem mem_of_not_spared {kind : Kind} {name : String} (h : ¬kind.spares (.text name)) :
  name ∈ "self" :: (kind.declared ++ kind.operations)
  := by
  by_contra hnot
  simp only [List.mem_cons, List.mem_append, not_or] at hnot
  obtain ⟨hself, hdeclared, hoperation⟩ := hnot
  exact h (by simp [Kind.spares, hself, hdeclared, hoperation])

/-- A name is harmless in a part where it is no field exactly when the part spares it. -/
theorem harmless_iff {path : List String} {kind : Kind} {fields : List (Slot × Shape)}
    {name : String} (hpath : (Schema.spec.toShape true).partAt? path = some (kind, fields))
    (hname : name ∉ wires fields) :
  Harmless path name ↔ kind.spares (.text name)
  := by
  constructor
  · intro h
    by_contra hspared
    obtain hwire | ⟨i, hi, rfl, rfl⟩ :=
      exists_intrusion _ (mem_parts hpath) name (mem_of_not_spared hspared)
    · exact hname hwire
    · obtain ⟨hjson, hjson'⟩ := isJson_of_mem_intrusions i hi
      exact ne_of_unlike (unlike_of_mem_intrusions i hi)
        (h (.ofSpec i.spec .builtin) i.value Defaults.areTexts_builtin hjson
          (inert_of_mem_intrusions i hi) hjson' (exists_dict_of_mem_intrusions i hi))
  · exact harmless_of_spared hpath hname

/-- Entries that are no fields change nothing as long as each of them has a name that its part
spares, and there is no other such name in any part of a spec. -/
theorem unmodelled_exact (event : Event) (hd : event.settings.defaults.AreTexts)
    (hjson : event.spec.IsJson) (hinert : (Schema.spec.toShape true).inert event.spec) :
  (∀ spec : Value, spec.IsJson → (Schema.spec.toShape true).inert spec →
    Agree (Schema.spec.toShape true) event.spec spec →
    reconcile { event with spec := spec } = reconcile event) ∧
  ∀ (path : List String) (kind : Kind) (fields : List (Slot × Shape)) (name : String),
    (Schema.spec.toShape true).partAt? path = some (kind, fields) → name ∉ wires fields →
    (Harmless path name ↔ kind.spares (.text name))
  := by
  constructor
  · intro spec hjson' hinert' h
    exact reconcile_agree hd hjson hjson' hinert hinert' h
  · intro path kind fields name hpath hname
    exact harmless_iff hpath hname

/-- A backup address of a managed database changes nothing, an entry `self` of an ingress
does. -/
theorem unmodelled_exact_backup :
  reconcile (.ofSpec (putAt "backupURL" (.text "s3://backups") ["database", "operatorManaged"]
    managedSpec) .builtin) = reconcile (.ofSpec managedSpec .builtin) ∧
  ¬Harmless ["ingress"] "self"
  := by
  have hjson : managedSpec.IsJson := by
    simp [managedSpec, filledSpec, isJson_object, IsJson]
  obtain ⟨hsame, hexact⟩ := unmodelled_exact (.ofSpec managedSpec .builtin)
    Defaults.areTexts_builtin hjson (by decide +kernel)
  constructor
  · apply hsame
    · exact hjson.putAt (show IsJson (.text "s3://backups") from trivial) _ _
    · decide +kernel
    · exact agree_putAt (regular_spec true) rfl (by decide) ⟨_, rfl⟩ _
  · rw [hexact ["ingress"] .ingress Schema.ingress.fields "self" rfl (by decide)]
    decide

/-- A spec with a pull policy. -/
def policySpec : Value :=
  object [("ingressName", .text "chat.example.com"), ("imagePullPolicy", .text "Always")]

/-- An entry that travels under the name of an attribute and is no field hides the pull policy,
which is written back then. -/
theorem policy_written_back :
  policySpec.IsJson ∧ (putAt "image_pull_policy" (.text "") [] policySpec).IsJson ∧
  Agree (Schema.spec.toShape true) policySpec
    (putAt "image_pull_policy" (.text "") [] policySpec) ∧
  ((reconcile (.ofSpec policySpec .builtin)).patch.spec?.bind
    (entryAt? "imagePullPolicy")).isSome = false ∧
  ((reconcile (.ofSpec (putAt "image_pull_policy" (.text "") [] policySpec)
    .builtin)).patch.spec?.bind (entryAt? "imagePullPolicy")).isSome = true
  := by
  have hjson : policySpec.IsJson := by
    simp [policySpec, isJson_object, IsJson]
  refine ⟨hjson, ?_, ?_, ?_, ?_⟩
  · exact hjson.putAt (show IsJson (.text "") from trivial) _ _
  · exact agree_putAt (regular_spec true) rfl (by decide) ⟨_, rfl⟩ _
  · decide +kernel
  · decide +kernel

end Installation

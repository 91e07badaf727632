import Installation.Proofs.Permanent
import Installation.Proofs.Reconcile.Verdict
import Installation.Proofs.Resource.Status

/-!
# What a stopped event leaves behind

An event that is stopped for good reports so in the status, and leaves the spec alone.  One that
is stopped by any other fault leaves the status alone.  It leaves the spec alone, too, unless
the spec was resolved and only its condition cannot be merged into the status: the defaults
that are to be written back are in the patch by then, `reconcile_atomic`.  Which statuses a
condition can be merged into is said by `Event.TakesCondition`.
-/

namespace Installation

open Shape Value

/-! ### Statuses that take a condition -/

/-- Whether a condition of the given type can be merged into conditions: all of them are
dictionaries, up to the first one of the type. -/
def Condition.Takes (type : Value) : List Value → Prop
  | [] => True
  | .dict entries :: conditions =>
    ((entryAt? "type" entries).getD .null == type) = true ∨ Takes type conditions
  | _ :: _ => False

/-- Whether the condition of a resource can be merged into conditions, which may be left out. -/
def Value.TakesCondition (conditions : Value) : Prop :=
  conditions.truthy → ∃ vs, conditions = .list vs ∧ Condition.Takes (.text "Ready") vs

/-- Whether the condition of a resource can be merged into the status of an event, which may be
left out.  The generation is taken from the metadata, which has to be a dictionary. -/
def Event.TakesCondition (event : Event) : Prop :=
  (∃ metadata, event.metadata = .dict metadata) ∧
    (event.status.truthy → (∃ entries, event.status = .dict entries) ∧
      (event.status.under "conditions").TakesCondition)

theorem exists_bind_ok {α β : Type} {x : Except Fault α} {f : α → Except Fault β} :
  (∃ b, (x >>= f) = .ok b) ↔ ∃ a, x = .ok a ∧ ∃ b, f a = .ok b
  := by
  cases x with
  | error fault => simp [bind, Except.bind]
  | ok a => simp [bind, Except.bind]

namespace Condition

variable (now : String) (ready : Bool) (reason message : String) (generation : Value)

theorem merge_ok_iff (conditions : List Value) :
  (∃ merged, merge now (Event.readyCondition ready reason message generation) conditions =
    .ok merged) ↔ Takes (.text "Ready") conditions
  := by
  induction conditions with
  | nil => exact ⟨fun _ => trivial, fun _ => ⟨_, rfl⟩⟩
  | cons c conditions ih =>
    cases c with
    | dict entries =>
      rw [Takes, ← ih, merge]
      change (∃ merged, (if ((entryAt? "type" entries).getD .null == Value.text "Ready") = true
        then _ else _) = Except.ok merged) ↔ _
      by_cases htype : ((entryAt? "type" entries).getD .null == Value.text "Ready") = true
      · rw [if_pos htype]
        exact ⟨fun _ => .inl htype, fun _ => ⟨_, rfl⟩⟩
      · rw [if_neg htype, exists_bind_ok]
        simp [htype]
    | _ => simp [merge, Takes]

/-- A condition can be merged into JSON conditions exactly when these take it. -/
theorem upsert_ok_iff {conditions : Value} (h : conditions.IsJson) :
  (∃ merged, upsert now conditions (Event.readyCondition ready reason message generation) =
    .ok merged) ↔ conditions.TakesCondition
  := by
  rw [upsert, exists_bind_ok, ofValue, Value.TakesCondition]
  by_cases htruthy : conditions.truthy = true
  · rw [if_pos htruthy]
    simp only [htruthy, true_implies, merge_ok_iff]
    -- the parts of a text and the keys of a dictionary are no dictionaries
    cases conditions with
    | list vs => simp [elements]
    | text s =>
      cases hs : s.toList with
      | nil => simp_all [truthy]
      | cons c cs => simp [elements, hs, Takes]
    | dict entries =>
      cases entries with
      | nil => contradiction
      | cons e entries =>
        obtain ⟨k, v⟩ := e
        cases k <;> simp [elements, Key.toValue, Takes]
    | tuple vs => contradiction
    | _ => simp [elements]
  · rw [if_neg htruthy]
    refine ⟨fun _ h => absurd h htruthy, fun _ => ⟨[], rfl, ?_⟩⟩
    exact (merge_ok_iff now ready reason message generation []).mpr trivial

end Condition

namespace Event

variable (event : Event)

theorem generation_ok_iff :
  (∃ generation, event.generation = .ok generation) ↔
    ∃ metadata, event.metadata = .dict metadata
  := by
  rw [generation]
  cases event.metadata <;> simp [getOr]

/-- The conditions of a status that is left out or a dictionary. -/
theorem exists_conditions_iff :
  (∃ conditions, event.conditions = .ok conditions ∧ conditions.TakesCondition) ↔
    (event.status.truthy → (∃ entries, event.status = .dict entries) ∧
      (event.status.under "conditions").TakesCondition)
  := by
  have hempty : Value.TakesCondition (.list []) := by
    intro h
    contradiction
  rw [conditions, Value.orElse]
  by_cases htruthy : event.status.truthy = true
  · rw [if_pos htruthy]
    simp only [htruthy, true_implies]
    cases event.status with
    | dict entries =>
      have hnull : Value.TakesCondition .null := by
        intro h
        contradiction
      rw [getOr_dict, Value.under]
      cases entryAt? "conditions" entries with
      | none => simp [hempty, hnull]
      | some v => simp
    | _ => simp [getOr]
  · rw [if_neg htruthy]
    exact ⟨fun _ h => absurd h htruthy, fun _ => ⟨_, rfl, hempty⟩⟩

theorem isJson_conditions (hstatus : event.status.IsJson) {conditions : Value}
    (h : event.conditions = .ok conditions) :
  conditions.IsJson
  := by
  rw [Event.conditions, Value.orElse] at h
  split at h
  · cases hcases : event.status with
    | dict entries =>
      have hunder := hstatus.under "conditions"
      rw [hcases, getOr_dict] at h
      rw [hcases, Value.under] at hunder
      obtain rfl := Except.ok.inj h
      cases hfound : entryAt? "conditions" entries with
      | none => simp [isJson_list]
      | some v => simpa [hfound] using hunder
    | _ => simp [hcases, getOr] at h
  · obtain rfl := Except.ok.inj h
    simp [entryAt?, isJson_list]

/-- The entries about whether a spec could be resolved can be put together exactly when the
status takes the condition. -/
theorem statusEntries_ok_iff (hstatus : event.status.IsJson) (ready : Bool)
    (reason message : String) (error : Value) (about : List (Key × Value)) :
  (∃ es, event.statusEntries ready reason message error (.ok about) = .ok es) ↔
    event.TakesCondition
  := by
  rw [TakesCondition, ← generation_ok_iff, ← exists_conditions_iff]
  unfold statusEntries
  simp only [exists_bind_ok]
  constructor
  · rintro ⟨generation, hgeneration, conditions, hconditions, merged, hmerged, -⟩
    have hjson := event.isJson_conditions hstatus hconditions
    exact ⟨⟨generation, hgeneration⟩, conditions, hconditions,
      (Condition.upsert_ok_iff _ _ _ _ _ hjson).mp ⟨merged, hmerged⟩⟩
  · rintro ⟨⟨generation, hgeneration⟩, conditions, hconditions, htakes⟩
    have hjson := event.isJson_conditions hstatus hconditions
    obtain ⟨merged, hmerged⟩ :=
      (Condition.upsert_ok_iff event.now ready reason message generation hjson).mpr htakes
    exact ⟨generation, hgeneration, conditions, hconditions, merged, hmerged, about, rfl, _, rfl⟩

/-! ### Stopped events -/

/-- Whether the spec of an event is resolved as the spec of a resource. -/
def Resolves (r : Resource) : Prop :=
  ∃ loaded, Resource.load event.name event.spec = .ok loaded ∧
    loaded.fillGaps event.settings.defaults = .done r

variable {event}

/-- A spec that is resolved is published. -/
theorem Resolves.reconcile_eq {r : Resource} (h : event.Resolves r) :
  reconcile event = event.publish r
  := by
  obtain ⟨loaded, hload, hfill⟩ := h
  rw [reconcile, hload]
  simp only [hfill, Attempt.done]

/-- What can come of an event: it is stopped before anything is patched, by a fault that is not
permanent, or its configuration is invalid, or its spec is resolved. -/
theorem reconcile_cases (event : Event) :
  (∃ fault, fault.isPermanent = false ∧ reconcile event = ⟨some fault, .empty, []⟩) ∨
    reconcile event = event.reject ∨ ∃ r, event.Resolves r
  := by
  cases hload : Resource.load event.name event.spec with
  | error fault =>
    refine .inl ⟨fault, Resource.passing_load _ _ _ hload, ?_⟩
    rw [reconcile, hload]
  | ok loaded =>
    have hpassing := Resource.passing_fillGaps event.settings.defaults loaded
    cases hfill : loaded.fillGaps event.settings.defaults with
    | mk r fault =>
      rw [hfill] at hpassing
      cases fault with
      | none => exact .inr (.inr ⟨r, loaded, hload, hfill⟩)
      | some fault =>
        by_cases hhost : fault = .hostRequired
        · refine .inr (.inl ?_)
          rw [reconcile, hload]
          simp only [hfill, hhost]
        · refine .inl ⟨fault, hpassing fault rfl, ?_⟩
          rw [reconcile, hload]
          simp only [hfill]

/-- What an invalid configuration leaves behind: a report in the status, or nothing where that
fails. -/
theorem reject_leaves {fault : Fault} (h : event.reject.fault? = some fault) :
  if fault.isPermanent then event.reject.patch.spec? = none ∧
    ∃ status, event.reject.Reports ["conditions", "error", "observedGeneration"] status
  else event.reject.patch = .empty
  := by
  have hpassing := event.passing_statusEntries false invalidReason Fault.hostRequired.text
    (.text Fault.hostRequired.text) (passing_ok [])
  rw [reject] at h ⊢
  cases hentries : event.statusEntries false invalidReason Fault.hostRequired.text
    (.text Fault.hostRequired.text) (.ok []) with
  | error other =>
    rw [hentries] at h
    obtain rfl : other = fault := Option.some.inj h
    rw [if_neg (by simp [hpassing _ hentries])]
  | ok status =>
    rw [hentries] at h
    obtain rfl : .permanent Fault.hostRequired.text = fault := Option.some.inj h
    obtain ⟨conditions, generation, rfl⟩ := exists_conditions_of_statusEntries hentries
    exact ⟨rfl, _, rfl, rfl⟩

/-- A resolved spec is published exactly when the status takes the condition; what was to be
written back is left behind otherwise. -/
theorem publish_leaves (hstatus : event.status.IsJson) {r : Resource}
    {about : List (Key × Value)} (habout : r.status = .ok about) :
  ((event.publish r).fault? = none ↔ event.TakesCondition) ∧
  ∀ fault, (event.publish r).fault? = some fault →
    fault.isPermanent = false ∧ (event.publish r).patch = ⟨event.writeBack? r, none⟩
  := by
  have hpassing := event.passing_statusEntries true resolvedReason
    s!"{resourceKind} {r.name} spec resolved" .null (passing_ok about)
  rw [← event.statusEntries_ok_iff hstatus true resolvedReason
    s!"{resourceKind} {r.name} spec resolved" .null about]
  unfold publish
  rw [habout]
  cases hentries : event.statusEntries true resolvedReason
    s!"{resourceKind} {r.name} spec resolved" .null (.ok about) with
  | error fault =>
    simp only [hentries]
    refine ⟨by simp, ?_⟩
    rintro other ⟨⟩
    exact ⟨hpassing fault hentries, trivial⟩
  | ok status =>
    simp only [hentries]
    refine ⟨by simp, ?_⟩
    rintro other ⟨⟩

end Event

section Atomic

variable {event : Event} (hjson : event.spec.IsJson) (hstatus : event.status.IsJson)

include hjson hstatus

/-- What comes of an event whose spec is resolved. -/
theorem reconcile_of_resolves {r : Resource} (h : event.Resolves r) :
  ((reconcile event).fault? = none ↔ event.TakesCondition) ∧
  ∀ fault, (reconcile event).fault? = some fault →
    fault.isPermanent = false ∧ (reconcile event).patch = ⟨event.writeBack? r, none⟩
  := by
  rw [h.reconcile_eq]
  obtain ⟨loaded, hload, hfill⟩ := h
  obtain ⟨about, habout⟩ := Resource.exists_status hjson hload hfill
  exact Event.publish_leaves hstatus habout

/-- An event that is stopped for good leaves the spec alone and reports in the status.  One that
is stopped by any other fault leaves the status alone, and it leaves the spec alone, too, unless
the spec was resolved and the status does not take the condition: then, what was to be written
back is left behind. -/
theorem reconcile_atomic :
  (∀ fault, (reconcile event).fault? = some fault →
    if fault.isPermanent then (reconcile event).patch.spec? = none ∧
      ∃ status, (reconcile event).Reports ["conditions", "error", "observedGeneration"] status
    else (reconcile event).patch.status? = none ∧ ((reconcile event).patch.spec? = none ∨
      ¬event.TakesCondition ∧ ∃ r, event.Resolves r)) ∧
  ∀ r, event.Resolves r → ¬event.TakesCondition →
    (reconcile event).fault?.isSome ∧ (reconcile event).patch = ⟨event.writeBack? r, none⟩
  := by
  constructor
  · intro fault h
    obtain ⟨other, hother, hstopped⟩ | hreject | ⟨r, hresolves⟩ :=
      Event.reconcile_cases event
    · rw [hstopped] at h ⊢
      obtain rfl : other = fault := Option.some.inj h
      rw [if_neg (by simp [hother])]
      exact ⟨rfl, .inl rfl⟩
    · rw [hreject] at h ⊢
      have hleaves := Event.reject_leaves h
      split
      · rename_i hpermanent
        rwa [if_pos hpermanent] at hleaves
      · rename_i hpassing
        rw [if_neg hpassing] at hleaves
        rw [hleaves]
        exact ⟨rfl, .inl rfl⟩
    · obtain ⟨hpublished, hstopped⟩ := reconcile_of_resolves hjson hstatus hresolves
      obtain ⟨hpassing, hpatch⟩ := hstopped fault h
      have htakes : ¬event.TakesCondition := by
        rw [← hpublished, h]
        simp
      rw [if_neg (by simp [hpassing]), hpatch]
      exact ⟨rfl, .inr ⟨htakes, r, hresolves⟩⟩
  · intro r hresolves htakes
    obtain ⟨hpublished, hstopped⟩ := reconcile_of_resolves hjson hstatus hresolves
    cases hfault : (reconcile event).fault? with
    | none => exact absurd (hpublished.mp hfault) htakes
    | some fault => exact ⟨rfl, (hstopped fault hfault).2⟩

end Atomic

/-- An event with an ingress that is enabled without a host, and with a condition of another
type. -/
def hostlessEvent : Event where
  name := "chat"
  metadata := object [("generation", .int 1)]
  now := "noon"
  spec := object [("ingress", object [("enabled", .bool true)])]
  status := object [("conditions", .list [object [("type", .text "Available")]])]
  settings := .builtin

theorem reconcile_atomic_hostless :
  (reconcile hostlessEvent).patch.spec? = none ∧
  ∃ status, (reconcile hostlessEvent).Reports ["conditions", "error", "observedGeneration"] status
  := by
  have hspec : hostlessEvent.spec.IsJson := by
    simp [hostlessEvent, isJson_object, IsJson]
  have hstatus : hostlessEvent.status.IsJson := by
    simp [hostlessEvent, isJson_object, IsJson, AreJson]
  obtain ⟨hatomic, -⟩ := reconcile_atomic hspec hstatus
  have hstopped : (reconcile hostlessEvent).fault?.map Fault.isPermanent = some true := by
    decide +kernel
  obtain ⟨fault, hfault, hpermanent⟩ := Option.map_eq_some_iff.mp hstopped
  have hleaves := hatomic fault hfault
  rwa [if_pos hpermanent] at hleaves

/-- An event with a condition that is no dictionary. -/
def staleEvent : Event where
  name := "chat"
  metadata := object [("generation", .int 1)]
  now := "noon"
  spec := object [("ingressName", .text "chat.example.com")]
  status := object [("conditions", .list [.int 1])]
  settings := .builtin

/-- The event is stopped by a fault that is not permanent, and defaults are left behind in the
patch. -/
theorem defaults_left_behind :
  staleEvent.spec.IsJson ∧ staleEvent.status.IsJson ∧
  (reconcile staleEvent).fault?.map Fault.isPermanent = some false ∧
  (reconcile staleEvent).patch.spec?.map List.isEmpty = some false
  := by
  refine ⟨?_, ?_, ?_, ?_⟩
  · simp [staleEvent, isJson_object, IsJson]
  · simp [staleEvent, isJson_object, IsJson, AreJson]
  · decide +kernel
  · decide +kernel

end Installation

import Installation.Proofs.Reconcile.Condition
import Installation.Proofs.Schema.Complaint
import Installation.Proofs.Schema.Held

/-!
# What can come of an event

An event has one of three verdicts.  Its spec is rejected with complaints, and nothing is
patched; or the spec is read and lacks a host, `Value.LacksHost`, which is reported in the
status and stops the update for good; or the spec is resolved and published.  Nothing else can
come of an event whose spec is inert, and each event has exactly one verdict:
`existsUnique_verdict`.
-/

namespace Installation

open Shape Value

/-! ### Rejected specs -/

/-- An inert spec that is not read is rejected with a complaint. -/
theorem Schema.load_spec_rejected {v : Value} (hv : v.IsJson)
    (hinert : (Schema.spec.toShape true).inert v) {fault : Fault}
    (h : Schema.spec.load v = .error fault) :
  ∃ c, fault = .rejected c
  := by
  cases v with
  | dict entries =>
    rw [Schema.load_dict] at h
    exact load_rejected hv (selfless_of_inert hv hinert) h
  | _ => exact ⟨_, (Except.error.inj h).symm⟩

/-! ### Specs without a host -/

/-- Whether a value is null or an empty text. -/
def Value.IsVacant (v : Value) : Prop := v = .null ∨ v = .text ""

/-- Whether a spec is reached without having a host: it has no ingress part, and no host is
given in the older form, or its ingress part is enabled and gives none. -/
def Value.LacksHost (spec : Value) : Prop :=
  attrIn "ingress" spec.attrs = .null ∧ IsVacant (attrIn "ingress_name" spec.attrs) ∨
    attrIn "enabled" (attrIn "ingress" spec.attrs).attrs = .bool true ∧
      IsVacant (attrIn "host" (attrIn "ingress" spec.attrs).attrs)

/-- A text that may be left out is given unless it is vacant. -/
theorem vacant_iff {v : Value} (h : Shape.text.Fits v) :
  (v.orElse (.text "")).truthy = false ↔ v.IsVacant
  := by
  obtain rfl | ⟨s, rfl⟩ := h
  · simp [IsVacant, Value.orElse, truthy]
  · by_cases hs : s = ""
    · simp [IsVacant, Value.orElse, truthy, hs]
    · simp [IsVacant, Value.orElse, truthy, hs]

/-- Data is blocked where the spec that travels as it lacks a host. -/
theorem isBlocked_iff {r w : Value} (h : Travels (Schema.spec.toShape true) r w) :
  w.isBlocked = true ↔ r.LacksHost
  := by
  have hgiven := given_of_required h
  have hingress := h.attrIn hgiven (Schema.spec.mem_fields "ingress" rfl)
  obtain ⟨hname, hnameFits⟩ :=
    (h.attrIn hgiven (Schema.spec.mem_fields "ingressName" rfl)).leaf_eq rfl
  simp only at hingress hname hnameFits
  rw [isBlocked, isReached, hostOf, LacksHost, hname]
  by_cases hnull : attrIn "ingress" r.attrs = .null
  · have hdata := hingress.eq_null_iff.mp hnull
    have hempty : attrIn "enabled" (Value.attrs .null) = .null := rfl
    simp [hnull, hdata, isNull, hempty, vacant_iff hnameFits]
  · have hdata : (w.under "ingress").isNull = false :=
      Bool.eq_false_iff.mpr (mt isNull_iff.mp (mt hingress.eq_null_iff.mpr hnull))
    obtain ⟨henabled, hfits⟩ :=
      (hingress.attrIn hnull (.head _)).leaf_eq rfl
    obtain ⟨hhost, hhostFits⟩ :=
      (hingress.attrIn hnull (.tail _ (.head _))).leaf_eq rfl
    change attrIn "enabled" _ = (w.under "ingress").under "enabled" at henabled
    change attrIn "host" _ = (w.under "ingress").under "host" at hhost
    change Shape.text.Fits ((w.under "ingress").under "host") at hhostFits
    have hreached : ((w.under "ingress").under "enabled").truthy = true ↔
        (w.under "ingress").under "enabled" = .bool true := by
      obtain hnone | ⟨b, hb⟩ := hfits
      · change (w.under "ingress").under "enabled" = _ at hnone
        simp [hnone, truthy]
      · change (w.under "ingress").under "enabled" = _ at hb
        simp [hb, truthy]
    simpa [hnull, hdata, henabled, hhost, hreached] using fun _ => vacant_iff hhostFits

/-! ### Verdicts -/

/-- What can come of an event. -/
inductive Verdict where
  /-- The spec cannot be read. -/
  | rejected
  /-- The configuration is invalid. -/
  | invalid
  /-- The spec was resolved. -/
  | resolved
deriving DecidableEq

/-- Whether an outcome has a status with exactly the given entries. -/
def Outcome.Reports (outcome : Outcome) (names : List String) (status : List (Key × Value)) :
    Prop :=
  outcome.patch.status? = some status ∧ status.map Prod.fst = names.map Key.text

/-- Whether a verdict is due on an event, and its outcome is the one that goes with the
verdict. -/
def Event.ComesTo (event : Event) : Verdict → Prop
  | .rejected =>
    ∃ complaint, Schema.spec.load event.spec = .error (.rejected complaint) ∧
      (reconcile event).fault? = some (.rejected complaint) ∧ (reconcile event).patch = .empty
  | .invalid =>
    ∃ spec status, Schema.spec.load event.spec = .ok spec ∧ spec.LacksHost ∧
      (reconcile event).fault? = some (.permanent Fault.hostRequired.text) ∧
      (reconcile event).patch.spec? = none ∧
      (reconcile event).Reports ["conditions", "error", "observedGeneration"] status
  | .resolved =>
    ∃ spec status, Schema.spec.load event.spec = .ok spec ∧ ¬spec.LacksHost ∧
      (reconcile event).fault? = none ∧
      (reconcile event).Reports
        ["image", "version", "endpoint", "selector", "specHash", "conditions", "error",
         "observedGeneration"] status ∧
      entryAt? "error" status = some .null

/-- No two verdicts are due on an event. -/
theorem Event.ComesTo.unique {event : Event} {verdict verdict' : Verdict}
    (h : event.ComesTo verdict) (h' : event.ComesTo verdict') :
  verdict = verdict'
  := by
  have hfault {spec : Value} {fault : Fault} (hok : Schema.spec.load event.spec = .ok spec)
      (herror : Schema.spec.load event.spec = .error fault) : False := by
    rw [hok] at herror
    contradiction
  have hhost {spec spec' : Value} (hok : Schema.spec.load event.spec = .ok spec)
      (hok' : Schema.spec.load event.spec = .ok spec') (hlacks : spec.LacksHost)
      (hnot : ¬spec'.LacksHost) : False := by
    obtain rfl := Except.ok.inj (hok.symm.trans hok')
    exact hnot hlacks
  cases verdict with
  | rejected =>
    obtain ⟨complaint, herror, -⟩ := h
    cases verdict' with
    | rejected => rfl
    | invalid =>
      obtain ⟨spec, status, hok, -⟩ := h'
      exact (hfault hok herror).elim
    | resolved =>
      obtain ⟨spec, status, hok, -⟩ := h'
      exact (hfault hok herror).elim
  | invalid =>
    obtain ⟨spec, status, hok, hlacks, -⟩ := h
    cases verdict' with
    | rejected =>
      obtain ⟨complaint, herror, -⟩ := h'
      exact (hfault hok herror).elim
    | invalid => rfl
    | resolved =>
      obtain ⟨spec', status', hok', hnot, -⟩ := h'
      exact (hhost hok hok' hlacks hnot).elim
  | resolved =>
    obtain ⟨spec, status, hok, hnot, -⟩ := h
    cases verdict' with
    | rejected =>
      obtain ⟨complaint, herror, -⟩ := h'
      exact (hfault hok herror).elim
    | invalid =>
      obtain ⟨spec', status', hok', hlacks, -⟩ := h'
      exact (hhost hok' hok hlacks hnot).elim
    | resolved => rfl

section Verdict

variable {event : Event} {metadata : List (Key × Value)}
  (hd : event.settings.defaults.AreTexts)
  (hmetadata : event.metadata = .dict metadata) (hstatus : WellFormedStatus event.status)
  {r w : Value} (hload : Schema.spec.load event.spec = .ok r)
  (h : Travels (Schema.spec.toShape true) r w)

include hd hmetadata hstatus hload h

/-- An event whose spec lacks a host is reported and stopped for good. -/
theorem comesTo_invalid (hblocked : w.isBlocked = true) :
  event.ComesTo .invalid
  := by
  have hrun := reconcile_travels hd hload h
  rw [if_pos hblocked] at hrun
  obtain ⟨merged, hentries⟩ := statusEntries_conditions hstatus hmetadata false
    Event.invalidReason Fault.hostRequired.text (.text Fault.hostRequired.text) []
  rw [Event.ComesTo, hrun, Event.reject]
  simp only [hentries]
  exact ⟨r, _, hload, (isBlocked_iff h).mp hblocked, trivial, trivial, rfl, rfl⟩

/-- An event whose spec has a host, or is not reached, is published. -/
theorem comesTo_resolved (hblocked : w.isBlocked = false) :
  event.ComesTo .resolved
  := by
  have hrun := reconcile_travels hd hload h
  rw [if_neg (by simp [hblocked])] at hrun
  obtain ⟨resource, hpublish, -, -, hpublished⟩ := hrun
  obtain ⟨merged, hentries⟩ := statusEntries_conditions hstatus hmetadata true
    Event.resolvedReason s!"{resourceKind} {resource.name} spec resolved" .null
    (named (Resource.aboutPairs event.name (w.fillData event.settings.defaults)))
  have hhost : ¬r.LacksHost := by
    rw [← isBlocked_iff h, hblocked]
    simp
  rw [Event.ComesTo, hpublish, Event.publish, hpublished]
  simp only [hentries]
  exact ⟨r, _, hload, hhost, trivial, ⟨rfl, rfl⟩, rfl⟩

end Verdict

/-- Exactly one of three verdicts is due on each event whose spec is inert, and comes of it. -/
theorem existsUnique_verdict {event : Event} {metadata : List (Key × Value)}
    (hd : event.settings.defaults.AreTexts) (hjson : event.spec.IsJson)
    (hinert : (Schema.spec.toShape true).inert event.spec)
    (hmetadata : event.metadata = .dict metadata) (hstatus : WellFormedStatus event.status) :
  ∃! verdict, event.ComesTo verdict
  := by
  have hexists : ∃ verdict, event.ComesTo verdict := by
    cases hload : Schema.spec.load event.spec with
    | error fault =>
      obtain ⟨complaint, rfl⟩ := Schema.load_spec_rejected hjson hinert hload
      refine ⟨.rejected, complaint, hload, ?_⟩
      simp only [reconcile, Resource.load, hload, Except.map]
      exact ⟨trivial, trivial⟩
    | ok r =>
      obtain ⟨w, htravels⟩ := Schema.load_spec_travels hjson hinert hload
      cases hblocked : w.isBlocked with
      | true => exact ⟨_, comesTo_invalid hd hmetadata hstatus hload htravels hblocked⟩
      | false => exact ⟨_, comesTo_resolved hd hmetadata hstatus hload htravels hblocked⟩
  obtain ⟨verdict, hverdict⟩ := hexists
  exact ⟨verdict, hverdict, fun other hother => hother.unique hverdict⟩

/-- An event with an ingress that is enabled by a word, next to an entry that is no field, and
with a condition of another type. -/
def enabledEvent : Event where
  name := "chat"
  metadata := .dict []
  now := "noon"
  spec := object
    [("ingress", object [("enabled", .text "yes"), ("class", .text "nginx")]),
     ("backupURL", .text "s3://backups")]
  status := object [("conditions", .list [object [("type", .text "Available")]])]
  settings := .builtin

/-- Exactly one verdict is due on the event. -/
theorem existsUnique_verdict_enabled :
  ∃! verdict, enabledEvent.ComesTo verdict
  := by
  apply existsUnique_verdict Defaults.areTexts_builtin
  · simp [enabledEvent, isJson_object, IsJson]
  · decide
  · rfl
  · refine .inr ⟨_, rfl, ?_⟩
    rintro v ⟨⟩
    exact .inr ⟨_, rfl, by simp [object]⟩

end Installation

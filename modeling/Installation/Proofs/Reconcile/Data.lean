import Installation.Proofs.Canonical.Shown
import Installation.Proofs.Gaps.Fill
import Installation.Reconcile

/-!
# Reconciling, told from the data

What comes of an event with an inert spec can be told from the data that the spec travels as:
`reconcile_travels`.  Two specs that agree in all of their fields have the same outcome,
`reconcile_agree`, since they travel as the same data.
-/

namespace Installation

open Shape

namespace Value

/-- The entries of a dictionary. -/
def entries : Value → List (Key × Value)
  | .dict entries => entries
  | _ => []

@[simp]
theorem entries_object (pairs : List (String × Value)) :
  (object pairs).entries = named pairs
  := rfl

/-- The fingerprint of JSON data. -/
def print (w : Value) : String := fingerprintOfText w.shown.ordered.json

theorem fingerprint_eq {v : Value} (h : IsJson v) :
  v.fingerprint = .ok v.print
  := by
  rw [fingerprint, canonical_eq h]
  rfl

end Value

namespace Resource

/-- What is published about a resource whose spec travels as some data. -/
def aboutPairs (name : String) (w : Value) : List (String × Value) :=
  [("image", w.under "image"), ("version", w.under "version"),
   ("endpoint", if w.isReached then w.hostOf else .text ""),
   ("selector", .text (Labels.selector (.text name)).text),
   ("specHash", .text w.dropNulls.print)]

/-- The fields of data that are different once its gaps are filled. -/
def changesData (d : Defaults) (w : Value) : List (Key × Value) :=
  changes w.dropNulls.entries (w.fillData d).dropNulls.entries

/-- The entries of a spec that can be dumped. -/
theorem wireEntries_of_dump {required : Bool} {attrs : List (String × Value)} {w : Value}
    (h : (Schema.spec.toShape required).dump (.record .spec attrs) = .ok w) :
  wireEntries (.record .spec attrs) = .ok w.dropNulls.entries
  := by
  change (dumpFields Schema.spec.fields (.record .spec attrs)).map Value.dict = .ok w at h
  rw [wireEntries, Schema.dump]
  cases hfields : dumpFields Schema.spec.fields (.record .spec attrs) with
  | error fault => simp [hfields, Except.map] at h
  | ok es =>
    rw [hfields] at h
    obtain rfl := Except.ok.inj h
    simp only [Value.dropNulls]
    rfl

theorem dumpSpec_travels {r : Resource} {w : Value}
    (h : Travels (Schema.spec.toShape true) r.spec w) :
  r.dumpSpec = .ok w.dropNulls.entries
  := by
  have hdump := h.dump (regular_spec true)
  obtain ⟨attrs, hrecord⟩ : ∃ attrs, r.spec = .record .spec attrs :=
    exists_record h (given_of_required h)
  rw [hrecord] at hdump
  rw [dumpSpec, hrecord]
  exact wireEntries_of_dump hdump

/-- What comes of a resource that can be dumped before and after its gaps are filled. -/
theorem fillGaps_of_done {d : Defaults} {r : Resource} {spec : Value}
    {before after : List (Key × Value)} (hbefore : wireEntries r.spec = .ok before)
    (hfill : fillSpec d r.spec = .done spec) (hafter : wireEntries spec = .ok after) :
  r.fillGaps d = .done ⟨r.name, spec, changes before after⟩
  := by
  have hdump : dumpSpec { r with spec := spec } = .ok after := hafter
  rw [fillGaps, dumpSpec, hbefore, hfill, Attempt.map_done]
  simp only [Attempt.andThen_done, hdump]

/-- The gaps of a resource are filled along with those of the data that its spec travels as,
unless the data is blocked. -/
theorem fillGaps_travels {d : Defaults} (hd : d.AreTexts) {r : Resource} {w : Value}
    (h : Travels (Schema.spec.toShape true) r.spec w) :
  if w.isBlocked then r.fillGaps d = .failed r .hostRequired
  else ∃ spec, r.fillGaps d = .done ⟨r.name, spec, changesData d w⟩ ∧
    Travels (Schema.spec.toShape true) spec (w.fillData d)
  := by
  have hfill := fillSpec_travels hd h
  have hbefore := dumpSpec_travels h
  cases hblocked : w.isBlocked with
  | true =>
    simp only [hblocked, if_true] at hfill ⊢
    rw [fillGaps, hbefore, hfill]
    rfl
  | false =>
    simp only [hblocked, Bool.false_eq_true, if_false] at hfill ⊢
    obtain ⟨spec, hdone, htravels⟩ := hfill
    have hafter : (ofSpec r.name spec).dumpSpec = _ := dumpSpec_travels htravels
    exact ⟨spec, fillGaps_of_done hbefore hdone hafter, htravels⟩

/-- What is published about a resource can be told from the data that its spec travels as. -/
theorem status_travels {r : Resource} {w : Value}
    (h : Travels (Schema.spec.toShape true) r.spec w) :
  r.status = .ok (named (aboutPairs r.name w))
  := by
  have hgiven := given_of_required h
  obtain ⟨himage, -⟩ := attr_leaf regularPart_spec h hgiven (Schema.spec.mem_fields "image" rfl) rfl
  obtain ⟨hversion, -⟩ :=
    attr_leaf regularPart_spec h hgiven (Schema.spec.mem_fields "version" rfl) rfl
  obtain ⟨view, hview, henabled, hhost⟩ := resolveIngress_travels h
  have hhash : r.specHash = .ok w.dropNulls.print := by
    have hobject : .dict w.dropNulls.entries = w.dropNulls := by
      obtain ⟨pairs, rfl⟩ := exists_object h hgiven
      rw [Value.dropNulls_object]
      rfl
    rw [specHash, dumpSpec_travels h]
    change (Value.dict w.dropNulls.entries).fingerprint = _
    rw [hobject, Value.fingerprint_eq (h.isJson (regular_spec true)).dropNulls]
  unfold status
  rw [himage, hversion, ingress, hview, hhash]
  simp only [bind, Except.bind, endpoint, henabled, hhost]
  rfl

end Resource

namespace Event

/-- An event with a spec and settings alone. -/
def ofSpec (spec : Value) (settings : Settings) : Event :=
  ⟨"chat", .dict [], "noon", spec, .null, settings⟩

/-- What is published depends on the resource through its name, its changes and its status,
and not on the spec of the event. -/
theorem publish_congr {event event' : Event} {r r' : Resource}
    (hevent : event' = { event with spec := event'.spec }) (hname : r.name = r'.name)
    (hdefaulted : r.defaulted = r'.defaulted) (hstatus : r.status = r'.status) :
  event.publish r = event'.publish r'
  := by
  rw [hevent]
  simp only [publish, writeBack?, Resource.specPatch, Resource.defaultedLines, writeBackLines,
    hname, hdefaulted, hstatus]
  rfl

end Event

/-- What comes of an event whose spec is read as a record that travels as some data. -/
theorem reconcile_travels {event : Event} (hd : event.settings.defaults.AreTexts) {r w : Value}
    (hload : Schema.spec.load event.spec = .ok r)
    (h : Travels (Schema.spec.toShape true) r w) :
  if w.isBlocked then reconcile event = event.reject
  else ∃ resource, reconcile event = event.publish resource ∧ resource.name = event.name ∧
    resource.defaulted = Resource.changesData event.settings.defaults w ∧
    resource.status =
      .ok (named (Resource.aboutPairs event.name (w.fillData event.settings.defaults)))
  := by
  have hloaded : Resource.load event.name event.spec = .ok (.ofSpec event.name r) := by
    rw [Resource.load, hload]
    rfl
  have hfill := Resource.fillGaps_travels hd (r := .ofSpec event.name r) h
  rw [reconcile, hloaded]
  cases hblocked : w.isBlocked with
  | true =>
    simp only [hblocked, if_true] at hfill ⊢
    rw [hfill]
    rfl
  | false =>
    simp only [hblocked, Bool.false_eq_true, if_false] at hfill ⊢
    obtain ⟨spec, hdone, htravels⟩ := hfill
    rw [hdone]
    exact ⟨_, rfl, rfl, rfl, Resource.status_travels htravels⟩

/-- Specs that agree in all of their fields have the same outcome, whatever inert entries they
have besides. -/
theorem reconcile_agree {event : Event} {spec : Value} (hd : event.settings.defaults.AreTexts)
    (hjson : event.spec.IsJson) (hjson' : spec.IsJson)
    (hinert : (Schema.spec.toShape true).inert event.spec)
    (hinert' : (Schema.spec.toShape true).inert spec)
    (h : Agree (Schema.spec.toShape true) event.spec spec) :
  reconcile { event with spec := spec } = reconcile event
  := by
  have htwin := load_twin (regular_spec true) hjson hjson' hinert hinert' h
  obtain heq | ⟨es, fs, hes, hfs⟩ :
      event.spec = spec ∨ ∃ es fs, event.spec = .dict es ∧ spec = .dict fs := by
    generalize event.spec = s at h
    cases h with
    | refl => exact .inl rfl
    | part there h => exact .inr ⟨_, _, rfl, rfl⟩
  · rw [← heq]
  · have hleft : Schema.spec.load event.spec = (Schema.spec.toShape true).load event.spec := by
      rw [hes, Schema.load_dict]
    have hright : Schema.spec.load spec = (Schema.spec.toShape true).load spec := by
      rw [hfs, Schema.load_dict]
    rw [← hleft, ← hright] at htwin
    cases hload : Schema.spec.load event.spec with
    | error fault =>
      rw [hload] at htwin
      have hload' := (htwin.error_iff fault).mp rfl
      simp only [reconcile, Resource.load, hload, hload']
      rfl
    | ok r =>
      rw [hload] at htwin
      generalize hload' : Schema.spec.load spec = x at htwin
      cases htwin with
      | @ok _ r' w hr hr' =>
        have hrun := reconcile_travels hd hload hr
        have hrun' := @reconcile_travels { event with spec := spec } hd r' w hload' hr'
        cases hblocked : w.isBlocked with
        | true =>
          simp only [hblocked, if_true] at hrun hrun'
          rw [hrun, hrun']
          rfl
        | false =>
          simp only [hblocked, Bool.false_eq_true, if_false] at hrun hrun'
          obtain ⟨resource, hpublish, hname, hdefaulted, hstatus⟩ := hrun
          obtain ⟨resource', hpublish', hname', hdefaulted', hstatus'⟩ := hrun'
          rw [hpublish, hpublish']
          symm
          apply Event.publish_congr rfl
          · rw [hname, hname']
          · rw [hdefaulted, hdefaulted']
          · rw [hstatus, hstatus']

end Installation

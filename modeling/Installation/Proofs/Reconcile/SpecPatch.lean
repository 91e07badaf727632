import Installation.Proofs.Reconcile.Verdict
import Installation.Proofs.Resource.Changes
import Installation.Proofs.Resource.Reload

/-!
# What the patch of a spec consists of

The patch of a resource that was read, and whose gaps were filled, has an entry for each field
of the spec with a gap, `HasGap`, and no others: a field is different afterwards if and only if
it had a gap, `gap_iff`.  The entry is what the field travels as, without nulls.  An event
writes back the patch as it is or nothing at all, and publishes the same status in both cases:
`reconcile_specPatch`.
-/

namespace Installation

open Shape Value

/-! ### Gaps of fields -/

/-- Whether a service has a gap.  It is not run elsewhere, and it is not managed either or lacks
something that it needs. -/
def Service.HasGap (s : Service) (v : Value) : Prop :=
  (∀ name ∈ s.places, attrIn name v.attrs = .null) ∧
    (attrIn "operator_managed" v.attrs = .null ∨
      ∃ name ∈ s.needs, (attrIn name (attrIn "operator_managed" v.attrs).attrs).IsVacant)

/-- Whether a field of a spec has a gap, by the name under which it travels. -/
def HasGap (attrs : List (String × Value)) : String → Prop
  | "image" => (attrIn "image" attrs).IsVacant
  | "version" => (attrIn "version" attrs).IsVacant
  | "imagePullPolicy" => (attrIn "image_pull_policy" attrs).IsVacant
  | "fileStore" => Service.fileStore.HasGap (attrIn "file_store" attrs)
  | "database" => Service.database.HasGap (attrIn "database" attrs)
  | _ => False

/-- A text that is not vacant is given. -/
theorem truthy_of_not_vacant {v : Value} (hfits : Shape.text.Fits v) (h : ¬v.IsVacant) :
  v.truthy
  := by
  obtain rfl | ⟨s, rfl⟩ := hfits
  · exact absurd (.inl rfl) h
  · simpa [IsVacant, truthy] using h

/-- What is put in for a vacant text is something else. -/
theorem text_gap_iff {v x y : Value} {s : String} (hfits : Shape.text.Fits v) (hs : s ≠ "")
    (hx : Shape.text.dump v = .ok x) (hy : Shape.text.dump (v.orElse (.text s)) = .ok y) :
  y.dropNulls ≠ x.dropNulls ↔ v.IsVacant
  := by
  rw [hfits.dump] at hx
  obtain rfl := Except.ok.inj hx
  by_cases hvacant : v.IsVacant
  · refine iff_of_true ?_ hvacant
    have hfilled : v.orElse (.text s) = .text s := by
      obtain rfl | rfl := hvacant
      all_goals rfl
    have hfits' : Shape.text.Fits (.text s) := .inr ⟨s, rfl⟩
    rw [hfilled, hfits'.dump] at hy
    obtain rfl := Except.ok.inj hy
    obtain rfl | rfl := hvacant
    all_goals simp [hs]
  · refine iff_of_false ?_ hvacant
    rw [orElse_of_truthy (truthy_of_not_vacant hfits hvacant), hfits.dump] at hy
    obtain rfl := Except.ok.inj hy
    simp

namespace Service

variable (s : Service) {d : Defaults} {v x y : Value}

/-- A service that travels is left as it is if it has no gap. -/
theorem filled_of_not_gap (h : Travels (s.schema.toShape true) v x) (hgap : ¬s.HasGap v) :
  s.filled d v = v
  := by
  rw [filled]
  split
  · rfl
  · rename_i helsewhere
    have hplaces : ∀ name ∈ s.places, attrIn name v.attrs = .null := by
      intro name hname
      by_contra hgiven
      exact helsewhere (isElsewhere_iff.mpr ⟨name, hname, hgiven⟩)
    rw [HasGap, not_and_or, not_or] at hgap
    obtain ⟨hmanaged, hneeds⟩ := hgap.resolve_left (not_not_intro hplaces)
    have hgiven := given_of_required h
    have htravels := h.attrIn hgiven s.managed_mem
    obtain ⟨others, hothers⟩ := exists_record htravels hmanaged
    obtain ⟨attrs, rfl⟩ := exists_record h hgiven
    simp only [attrs_record] at hothers hmanaged hneeds htravels ⊢
    have hkept : s.filledManaged d (attrIn "operator_managed" attrs) =
        attrIn "operator_managed" attrs := by
      rw [filledManaged, fillManaged_eq_alterAttrs, alterAttrs_of_given, hothers, attrs_record,
        ← s.managedSchema_kind]
      intro step hstep
      obtain ⟨gap, hmem, rfl⟩ := List.mem_map.mp hstep
      have hneed : gap.1 ∈ s.needs := s.map_fst_gaps d ▸ List.mem_map_of_mem hmem
      obtain ⟨f, hf, hname, htext⟩ := s.text_of_needs hneed
      have hfield := htravels.attrIn hmanaged hf
      rw [htext, hname] at hfield
      obtain ⟨heq, hfits⟩ := hfield.leaf_eq rfl
      have htruthy := truthy_of_not_vacant (heq ▸ hfits) fun hvacant =>
        hneeds ⟨gap.1, hneed, hvacant⟩
      exact ⟨orElse_of_truthy htruthy gap.2, ne_null_of_truthy htruthy⟩
    rw [alterAttr_of_given _ hkept hmanaged, ← s.schema_kind]

/-- A service travels as something else after its gap was filled. -/
theorem dump_ne_of_gap (hd : d.AreTexts) (hfull : ∀ p ∈ d.toPairs, p.2.truthy)
    (h : Travels (s.schema.toShape true) v x) (hy : dump (s.schema.toShape true) (s.filled d v) =
      .ok y) (hjson : y.IsJson) (hgap : s.HasGap v) :
  y.dropNulls ≠ x.dropNulls
  := by
  intro heq
  have hsame : SameData x y := ⟨h.isJson (s.regular_schema true), hjson, heq.symm⟩
  obtain ⟨hplaces, hmanaged⟩ := hgap
  have hhere : ¬s.isElsewhere v.attrs = true := by
    rw [isElsewhere_iff]
    rintro ⟨name, hname, hgiven⟩
    exact hgiven (hplaces name hname)
  -- what is managed, and what it travels as before and afterwards
  have hbefore := h.attrIn (given_of_required h) s.managed_mem
  have hafter := dump_under s.regularPart_schema hy s.managed_mem
  rw [filled, if_neg hhere, partOr_record, attrIn_alterAttr] at hafter
  simp only at hbefore hafter
  generalize attrIn "operator_managed" v.attrs = m at hmanaged hbefore hafter
  have hunder := hsame.under "operatorManaged"
  by_cases hnull : m = .null
  · obtain ⟨pairs, hpairs, -⟩ :=
      exists_of_dump_part s.regularPart_managedSchema (by simp [filledManaged]) hafter
    rw [hbefore.eq_null_iff.mp hnull, hpairs] at hunder
    simpa [object] using hunder.null_iff
  · obtain ⟨name, hname, hvacant⟩ := hmanaged.resolve_left hnull
    obtain ⟨f, hf, rfl, htext⟩ := s.text_of_needs hname
    obtain ⟨p, hp, hbecomes⟩ := s.attrIn_fillManaged d hname m.attrs
    obtain ⟨t, ht⟩ := hd p hp
    have hfield := hbefore.attrIn hnull hf
    have hfilled := dump_under s.regularPart_managedSchema hafter hf
    rw [filledManaged, partOr_record, hbecomes, htext, ht] at hfilled
    rw [htext] at hfield
    obtain ⟨hread, hfits⟩ := hfield.leaf_eq rfl
    have ht' : t ≠ "" := by simpa [ht, truthy] using hfull p hp
    exact (text_gap_iff (hread ▸ hfits) ht' (hread ▸ hfits.dump) hfilled).mpr hvacant
      (hread ▸ (hunder.under f.1.wire).eq.symm)

/-- A service is different after it was filled if and only if it had a gap. -/
theorem gap_iff (hd : d.AreTexts) (hfull : ∀ p ∈ d.toPairs, p.2.truthy)
    (h : Travels (s.schema.toShape true) v x) (hy : dump (s.schema.toShape true) (s.filled d v) =
      .ok y) (hjson : y.IsJson) :
  y.dropNulls ≠ x.dropNulls ↔ s.HasGap v
  := by
  constructor
  · contrapose!
    intro hgap
    rw [s.filled_of_not_gap h hgap, h.dump (s.regular_schema true)] at hy
    rw [Except.ok.inj hy]
  · exact s.dump_ne_of_gap hd hfull h hy hjson

end Service

/-! ### Gaps of a spec -/

/-- The attributes of a spec that may have gaps. -/
theorem gap_or_kept :
  ∀ f ∈ Schema.spec.fields,
    f.1.attr ∈ ["image", "version", "image_pull_policy", "file_store", "database"] ∨
    f.1.attr ∉ ["image", "version", "image_pull_policy", "file_store", "database"] ∧
      f.1.wire ∉ ["image", "version", "imagePullPolicy", "fileStore", "database"]
  := by
  decide

theorem HasGap.mem {attrs : List (String × Value)} {name : String} (h : HasGap attrs name) :
  name ∈ ["image", "version", "imagePullPolicy", "fileStore", "database"]
  := by
  unfold HasGap at h
  split at h
  all_goals simp at h ⊢

/-- Gaps are in fields of the spec. -/
theorem exists_field_of_gap {attrs : List (String × Value)} {name : String}
    (h : HasGap attrs name) :
  ∃ f ∈ Schema.spec.fields, f.1.wire = name
  := by
  have hwires : ∀ name ∈ ["image", "version", "imagePullPolicy", "fileStore", "database"],
      ∃ f ∈ Schema.spec.fields, f.1.wire = name := by
    decide
  exact hwires name h.mem

/-- A field of a spec is different after the gaps were filled if and only if it had a gap. -/
theorem gap_iff {d : Defaults} {attrs : List (String × Value)} {w w' : Value} (hd : d.AreTexts)
    (hfull : ∀ p ∈ d.toPairs, p.2.truthy)
    (h : Travels (Schema.spec.toShape true) (.record .spec attrs) w)
    (hdump : (Schema.spec.toShape true).dump (.record .spec (filledAttrs d attrs)) = .ok w')
    (hjson : w'.IsJson) {f : Slot × Shape} (hf : f ∈ Schema.spec.fields) :
  (w'.under f.1.wire).dropNulls ≠ (w.under f.1.wire).dropNulls ↔ HasGap attrs f.1.wire
  := by
  have hbefore {g : Slot × Shape} (hg : g ∈ Schema.spec.fields) :
      Travels g.2 (attrIn g.1.attr attrs) (w.under g.1.wire) := h.attrIn (by simp) hg
  have hafter {g : Slot × Shape} (hg : g ∈ Schema.spec.fields) :
      g.2.dump (attrIn g.1.attr (filledAttrs d attrs)) = .ok (w'.under g.1.wire) := by
    rw [← partOr_record g.1.attr .spec]
    exact dump_under regularPart_spec hdump hg
  have hown {g : Slot × Shape} {v : Value} (hg : g ∈ Schema.spec.fields) (htext : g.2 = .text)
      (hstep : (g.1.attr, fun x => x.orElse v) ∈ ownSteps d) (hv : ∃ p ∈ d.toPairs, p.2 = v) :
      (w'.under g.1.wire).dropNulls ≠ (w.under g.1.wire).dropNulls ↔
        (attrIn g.1.attr attrs).IsVacant := by
    obtain ⟨p, hp, rfl⟩ := hv
    obtain ⟨t, ht⟩ := hd p hp
    have ht' : t ≠ "" := by simpa [ht, truthy] using hfull p hp
    have htravels := hbefore hg
    have hfilled := hafter hg
    rw [htext] at htravels hfilled
    obtain ⟨heq, hfits⟩ := htravels.leaf_eq rfl
    rw [attrIn_filledAttrs_own d attrs hstep, ht] at hfilled
    exact text_gap_iff (heq ▸ hfits) ht' (heq ▸ hfits.dump) hfilled
  have hservice (s : Service) {wire : String}
      (hg : (⟨wire, s.attrName⟩, s.schema.toShape true) ∈ Schema.spec.fields)
      (hfilled : attrIn s.attrName (filledAttrs d attrs) = s.filled d (attrIn s.attrName attrs)) :
      (w'.under wire).dropNulls ≠ (w.under wire).dropNulls ↔
        s.HasGap (attrIn s.attrName attrs) := by
    have hdumped := hafter hg
    simp only [hfilled] at hdumped
    exact s.gap_iff hd hfull (hbefore hg) hdumped (hjson.under wire)
  obtain hmem | ⟨hattr, hwire⟩ := gap_or_kept f hf
  · simp only [List.mem_cons, List.not_mem_nil, or_false] at hmem
    obtain hattr | hattr | hattr | hattr | hattr := hmem
    · obtain rfl := spec_field_unique hf (Schema.spec.mem_fields "image" rfl) hattr
      exact hown hf rfl (.head _) ⟨("image", d.image), .head _, rfl⟩
    · obtain rfl := spec_field_unique hf (Schema.spec.mem_fields "version" rfl) hattr
      exact hown hf rfl (.tail _ (.head _)) ⟨("version", d.version), .tail _ (.head _), rfl⟩
    · obtain rfl := spec_field_unique hf (Schema.spec.mem_fields "imagePullPolicy" rfl) hattr
      exact hown hf rfl (.tail _ (.tail _ (.head _)))
        ⟨("pull_policy", d.pullPolicy), .tail _ (.tail _ (.head _)), rfl⟩
    · obtain rfl := spec_field_unique hf (Schema.spec.mem_fields "fileStore" rfl) hattr
      exact hservice .fileStore hf (attrIn_filledAttrs d attrs).1
    · obtain rfl := spec_field_unique hf (Schema.spec.mem_fields "database" rfl) hattr
      exact hservice .database hf (attrIn_filledAttrs d attrs).2
  · refine iff_of_false (not_not_intro ?_) (mt HasGap.mem hwire)
    have hkept : attrIn f.1.attr (filledAttrs d attrs) = attrIn f.1.attr attrs := by
      rw [attrIn, filledAttrs, lookup_alterAttrs_of_not_mem (by simpa [ownSteps] using hattr),
        attrIn]
    have hdumped := hafter hf
    rw [hkept, (hbefore hf).dump (regularPart_spec.fields_regular f hf)] at hdumped
    rw [Except.ok.inj hdumped]

/-! ### Patches -/

/-- A resource that was read and whose gaps were filled, with the data that its spec travels as
before and afterwards. -/
theorem Resource.exists_of_filled {d : Defaults} (hd : d.AreTexts) {name : String} {data : Value}
    (hjson : data.IsJson) (hinert : (Schema.spec.toShape true).inert data) {r : Resource}
    (hload : load name data = .ok r) (hfilled : (r.fillGaps d).fault? = none) :
  ∃ attrs w w', r.spec = .record .spec attrs ∧
    Travels (Schema.spec.toShape true) (.record .spec attrs) w ∧
    (Schema.spec.toShape true).dump (.record .spec (filledAttrs d attrs)) = .ok w' ∧
    w'.IsJson ∧ Grows (Schema.spec.toShape true) w w' ∧
    r.fillGaps d = .done ⟨r.name, .record .spec (filledAttrs d attrs),
      changes w.dropNulls.entries w'.dropNulls.entries⟩
  := by
  obtain ⟨attrs, rfl, hheld⟩ := exists_of_load hjson hload
  have hspec : Schema.spec.load data = .ok (.record .spec attrs) := by
    rw [load] at hload
    cases hread : Schema.spec.load data with
    | error fault => simp [hread, Except.map] at hload
    | ok spec =>
      rw [hread] at hload
      have heq := congrArg Resource.spec (Except.ok.inj hload)
      exact congrArg Except.ok heq
  obtain ⟨w, htravels⟩ := Schema.load_spec_travels hjson hinert hspec
  have hrun := @fillGaps_travels d hd (ofSpec name (.record .spec attrs)) w htravels
  cases hblocked : w.isBlocked with
  | true =>
    rw [if_pos hblocked] at hrun
    rw [hrun] at hfilled
    contradiction
  | false =>
    rw [if_neg (by simp [hblocked])] at hrun
    obtain ⟨spec, hdone, htravels'⟩ := hrun
    obtain ⟨_, _, hfill, -, hstate⟩ := exists_of_fillGaps hfilled
    obtain ⟨hfill', -⟩ := fillSpec_of_held hheld hfill
    obtain rfl : spec = .record .spec (filledAttrs d attrs) := by
      rw [hdone] at hstate
      have heq := congrArg Resource.spec (Attempt.done_inj.mp hstate)
      rw [show (ofSpec name (.record .spec attrs)).spec = .record .spec attrs from rfl,
        hfill'] at heq
      exact heq
    exact ⟨attrs, w, w.fillData d, rfl, htravels, htravels'.dump (regular_spec true),
      htravels'.isJson (regular_spec true), (grows_fillData hd htravels).1, hdone⟩

namespace Event

/-- An event with another word on whether defaults are written back. -/
def withWriteBack (writeBack : Value) (event : Event) : Event :=
  { event with settings := { event.settings with writeBack := writeBack } }

/-- What is written back is the patch of the resource or nothing. -/
theorem publish_spec? (event : Event) (r : Resource) :
  (event.publish r).patch.spec?.getD [] =
    if event.settings.writeBack.truthy then r.specPatch else []
  := by
  have hpatch : (event.publish r).patch.spec? = event.writeBack? r := by
    rw [publish]
    split <;> rfl
  rw [hpatch, writeBack?]
  cases event.settings.writeBack.truthy with
  | false => rfl
  | true =>
    cases hempty : r.specPatch with
    | nil => rfl
    | cons e es => rfl

/-- The status does not depend on what is written back. -/
theorem publish_status? (writeBack : Value) (event : Event) (r : Resource) :
  ((event.withWriteBack writeBack).publish r).patch.status? = (event.publish r).patch.status?
  := by
  have hentries (ready : Bool) (reason message : String) (error : Value)
      (about : Except Fault (List (Key × Value))) :
      (event.withWriteBack writeBack).statusEntries ready reason message error about =
        event.statusEntries ready reason message error about := rfl
  rw [publish, publish, hentries]
  split <;> rfl

end Event

/-- The patch of a spec is exact.  Where a spec was read and its gaps were filled with defaults
that are texts and not empty, the patch is made up of named values, one for each field that had
a gap and none besides, and each of them is what the field travels as by then, without nulls.
An event writes back this patch if it writes back at all, and nothing otherwise, and it
publishes the same status in both cases. -/
theorem reconcile_specPatch {event : Event} (hd : event.settings.defaults.AreTexts)
    (hfull : ∀ p ∈ event.settings.defaults.toPairs, p.2.truthy) (hjson : event.spec.IsJson)
    (hinert : (Schema.spec.toShape true).inert event.spec) {r : Resource}
    (hload : Resource.load event.name event.spec = .ok r)
    (hfilled : (r.fillGaps event.settings.defaults).fault? = none) :
  (∃ pairs, (r.fillGaps event.settings.defaults).state.specPatch = named pairs ∧
    (pairs.map Prod.fst).Nodup ∧
    (∀ name, name ∈ pairs.map Prod.fst ↔ HasGap r.spec.attrs name) ∧
    ∀ p ∈ pairs, ∃ f ∈ Schema.spec.fields, f.1.wire = p.1 ∧ ∃ data,
      f.2.dump (attrIn f.1.attr (r.fillGaps event.settings.defaults).state.spec.attrs) =
        .ok data ∧ p.2 = data.dropNulls) ∧
  ∀ writeBack,
    (reconcile (event.withWriteBack writeBack)).patch.spec?.getD [] =
      (if writeBack.truthy then (r.fillGaps event.settings.defaults).state.specPatch else []) ∧
    (reconcile (event.withWriteBack writeBack)).patch.status? = (reconcile event).patch.status?
  := by
  obtain ⟨attrs, w, w', hspec, htravels, hdump, hjson', hgrows, hdone⟩ :=
    Resource.exists_of_filled hd hjson hinert hload hfilled
  have hgiven : w ≠ .null := mt htravels.eq_null_iff.mpr (by simp)
  have hchanges {f : Slot × Shape} (hf : f ∈ Schema.spec.fields) {v : Value} :=
    @Resource.mem_changes _ _ _ _ _ (regular_spec true) hgrows hgiven hjson'.sound f hf v
  have hgap {f : Slot × Shape} (hf : f ∈ Schema.spec.fields) :=
    gap_iff hd hfull htravels hdump hjson' hf
  constructor
  · obtain ⟨pairs, hpairs, hsub⟩ := Resource.exists_changed hgrows hgiven
    have hmem {name : String} {v : Value} : (name, v) ∈ pairs ↔
        (Key.text name, v) ∈ Resource.changes w.dropNulls.entries w'.dropNulls.entries := by
      rw [hpairs]
      simp [named]
    rw [hdone, hspec, attrs_record]
    refine ⟨pairs, hpairs, regularPart_spec.wires_nodup.sublist hsub, fun name => ?_, ?_⟩
    · constructor
      · intro hname
        obtain ⟨⟨_, v⟩, hp, rfl⟩ := List.mem_map.mp hname
        obtain ⟨f, hf, rfl⟩ := List.mem_map.mp (hsub.subset hname)
        obtain ⟨rfl, hne⟩ := (hchanges hf).mp (hmem.mp hp)
        exact (hgap hf).mp hne
      · intro hname
        obtain ⟨f, hf, rfl⟩ := exists_field_of_gap hname
        exact List.mem_map.mpr ⟨_, hmem.mpr ((hchanges hf).mpr ⟨rfl, (hgap hf).mpr hname⟩), rfl⟩
    · rintro ⟨name, v⟩ hp
      obtain ⟨f, hf, rfl⟩ := List.mem_map.mp (hsub.subset (List.mem_map_of_mem hp))
      have hfield := dump_under regularPart_spec hdump hf
      rw [partOr_record] at hfield
      exact ⟨f, hf, rfl, _, hfield, ((hchanges hf).mp (hmem.mp hp)).1⟩
  · intro writeBack
    have hrun (event' : Event) (hload' : Resource.load event'.name event'.spec = .ok r)
        (hdefaults : event'.settings.defaults = event.settings.defaults) :
        reconcile event' = event'.publish (r.fillGaps event.settings.defaults).state := by
      rw [reconcile, hload']
      simp only [hdefaults]
      rw [hdone]
      rfl
    rw [hrun _ hload rfl, hrun (event.withWriteBack writeBack) hload rfl, Event.publish_spec?,
      Event.publish_status?]
    exact ⟨rfl, rfl⟩

/-- The sample spec lacks all but its host and a count. -/
theorem reconcile_specPatch_sample :
  let event := Event.ofSpec sampleSpec .builtin
  ∃ r pairs, Resource.load event.name event.spec = .ok r ∧
    (r.fillGaps .builtin).state.specPatch = named pairs ∧
    (∀ name, name ∈ pairs.map Prod.fst ↔ HasGap r.spec.attrs name) ∧
    (reconcile (event.withWriteBack (.bool true))).patch.spec?.getD [] = named pairs ∧
    (reconcile (event.withWriteBack (.bool false))).patch.spec?.getD [] = [] ∧
    (reconcile (event.withWriteBack (.bool false))).patch.status? =
      (reconcile event).patch.status?
  := by
  intro event
  have hjson : event.spec.IsJson := by
    simp [event, Event.ofSpec, sampleSpec, isJson_object, IsJson]
  have hload : ∃ r, Resource.load event.name event.spec = .ok r ∧
      (r.fillGaps event.settings.defaults).fault? = none := ⟨_, rfl, by decide +kernel⟩
  obtain ⟨r, hload, hfilled⟩ := hload
  obtain ⟨⟨pairs, hpatch, -, hgaps, -⟩, hwrite⟩ :=
    reconcile_specPatch Defaults.areTexts_builtin (by decide) hjson (by decide) hload hfilled
  obtain ⟨hwritten, -⟩ := hwrite (.bool true)
  obtain ⟨hkept, hstatus⟩ := hwrite (.bool false)
  exact ⟨r, pairs, hload, hpatch, hgaps, hwritten.trans hpatch, hkept, hstatus⟩

end Installation

import Installation.Proofs.Resource.Reload

/-!
# What is published once gaps are filled

A resource that was read and whose gaps were filled can be published, whatever entries the data
had besides its fields and whatever the defaults are: `exists_status`.  The only part of the
status that could be wanting is the fingerprint, which is taken of the dump, and what the filled
spec is dumped as travels, `filledAttrs_dumpsAsJson`.
-/

namespace Installation

open Value

namespace Shape

/-- Whether a value travels as JSON data, if it can be dumped. -/
def DumpsAsJson (shape : Shape) (v : Value) : Prop := ∀ w, shape.dump v = .ok w → w.IsJson

/-- Whatever is in the place of a text is dumped as one. -/
theorem dumpsAsJson_text (v : Value) :
  DumpsAsJson .text v
  := by
  intro w h
  by_cases hnull : v = .null
  · rw [hnull, dump_null] at h
    obtain rfl := Except.ok.inj h
    trivial
  · rw [dump] at h
    · obtain rfl := Except.ok.inj h
      exact isJson_dumpText v
    · exact hnull

theorem Held.dumpsAsJson {shape : Shape} (hregular : shape.regular) {v : Value}
    (h : Held shape v) :
  DumpsAsJson shape v
  := fun _ => dump_isJson hregular h

/-- A record travels as JSON data if its attributes do. -/
theorem dumpsAsJson_record {required : Bool} {kind : Kind} {fields : List (Slot × Shape)}
    {attrs : List (String × Value)} (hpart : RegularPart kind fields)
    (h : ∀ f ∈ fields, DumpsAsJson f.2 (attrIn f.1.attr attrs)) :
  DumpsAsJson (.part required kind fields) (.record kind attrs)
  := by
  intro w hdump
  apply dump_part_isJson hpart hdump
  intro f hf x hx
  rw [partOr_record] at hx
  exact h f hf x hx

end Shape

open Shape

/-! ### Filled specs -/

namespace Service

variable (s : Service) (d : Defaults) {required : Bool} {v : Value}

theorem filledManaged_dumpsAsJson (h : Held (s.managedSchema.toShape required) v) :
  DumpsAsJson (s.managedSchema.toShape required) (s.filledManaged d v)
  := by
  rw [filledManaged, ← s.managedSchema_kind]
  apply dumpsAsJson_record s.regularPart_managedSchema
  rw [fillManaged_eq_alterAttrs]
  apply @forall_attrIn_alterAttrs _ v.attrs v.attrs _ (fun f v _ => DumpsAsJson f.2 v)
  · exact fun f hf =>
      (h.attrs f hf).dumpsAsJson (s.regularPart_managedSchema.fields_regular f hf)
  · intro step hstep f hf hattr x _ _
    obtain ⟨gap, hgap, rfl⟩ := List.mem_map.mp hstep
    obtain ⟨g, hg, hname, htext⟩ := s.exists_text_of_gap gap hgap
    obtain rfl := eq_of_attr_eq s.regularPart_managedSchema.attrNames_nodup hf hg
      (hattr.trans hname.symm)
    rw [htext]
    exact dumpsAsJson_text _

theorem filled_dumpsAsJson (h : Held (s.schema.toShape required) v) :
  DumpsAsJson (s.schema.toShape required) (s.filled d v)
  := by
  rw [filled]
  split
  · exact h.dumpsAsJson (s.regular_schema required)
  · rw [← s.schema_kind]
    apply dumpsAsJson_record s.regularPart_schema
    intro f hf
    by_cases hname : f.1.attr = "operator_managed"
    · obtain rfl := eq_of_attr_eq s.regularPart_schema.attrNames_nodup hf s.managed_mem hname
      rw [attrIn_alterAttr]
      exact s.filledManaged_dumpsAsJson d (h.attrs _ s.managed_mem)
    · rw [attrIn_alterAttr_ne _ _ hname]
      exact (h.attrs f hf).dumpsAsJson (s.regularPart_schema.fields_regular f hf)

end Service

/-- A spec that is filled travels as JSON data, whatever the defaults are. -/
theorem filledAttrs_dumpsAsJson {attrs : List (String × Value)}
    (h : HeldAttrs Schema.spec.fields attrs) (d : Defaults) :
  DumpsAsJson (Schema.spec.toShape true) (.record .spec (filledAttrs d attrs))
  := by
  obtain ⟨hfile, hdatabase⟩ := attrIn_filledAttrs d attrs
  apply dumpsAsJson_record regularPart_spec
  intro f hf
  by_cases hown : f.1.attr ∈ ["image", "version", "image_pull_policy"]
  · have htext : f.2 = .text := by
      simp only [List.mem_cons, List.not_mem_nil, or_false] at hown
      obtain hname | hname | hname := hown
      · rw [spec_field_unique hf (Schema.spec.mem_fields "image" rfl) hname]
      · rw [spec_field_unique hf (Schema.spec.mem_fields "version" rfl) hname]
      · rw [spec_field_unique hf (Schema.spec.mem_fields "imagePullPolicy" rfl) hname]
    rw [htext]
    exact dumpsAsJson_text _
  · by_cases hname : f.1.attr = "file_store"
    · obtain rfl := spec_field_unique hf (Schema.spec.mem_fields "fileStore" rfl) hname
      rw [hname, hfile]
      exact Service.fileStore.filled_dumpsAsJson d (h _ (Schema.spec.mem_fields "fileStore" rfl))
    · by_cases hname' : f.1.attr = "database"
      · obtain rfl := spec_field_unique hf (Schema.spec.mem_fields "database" rfl) hname'
        rw [hname', hdatabase]
        exact Service.database.filled_dumpsAsJson d (h _ (Schema.spec.mem_fields "database" rfl))
      · have hrest : attrIn f.1.attr (filledAttrs d attrs) = attrIn f.1.attr attrs := by
          rw [attrIn, filledAttrs, lookup_alterAttrs_of_not_mem, attrIn]
          simpa [ownSteps, hname, hname'] using hown
        rw [hrest]
        exact (h f hf).dumpsAsJson (regularPart_spec.fields_regular f hf)

namespace Resource

/-- What is published about a resource that was read and whose gaps were filled. -/
theorem exists_status {data : Value} (hdata : data.IsJson) {name : String} {loaded r : Resource}
    (hload : load name data = .ok loaded) {d : Defaults} (hfill : loaded.fillGaps d = .done r) :
  ∃ about, r.status = .ok about
  := by
  obtain ⟨attrs, rfl, hheld⟩ := exists_of_load hdata hload
  obtain ⟨before, entries, hspec, hentries, hdone⟩ := exists_of_fillGaps (by rw [hfill]; rfl)
  obtain rfl := Attempt.done_inj.mp (hfill.symm.trans hdone)
  obtain ⟨hfilled, view, hview, -⟩ := fillSpec_of_held hheld hspec
  rw [show (ofSpec name (.record .spec attrs)).spec = .record .spec attrs from rfl, hfilled]
    at hentries ⊢
  obtain ⟨w, hdump, hw⟩ := exists_of_wireEntries hentries
  have hjson : (dict entries).IsJson := by
    rw [hw]
    exact (filledAttrs_dumpsAsJson hheld d w hdump).dropNulls
  have hhash : specHash ⟨name, .record .spec (filledAttrs d attrs), changes before entries⟩ =
      .ok (dict entries).print :=
    specHash_eq hentries hjson
  have hstatus : ∃ about,
      status ⟨name, .record .spec (filledAttrs d attrs), changes before entries⟩ = .ok about := by
    unfold status
    rw [hhash, ingress, hview, attr_declared (by decide), attr_declared (by decide)]
    exact ⟨_, rfl⟩
  exact hstatus

end Resource

end Installation

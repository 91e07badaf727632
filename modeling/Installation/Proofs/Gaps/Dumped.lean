import Installation.Proofs.Gaps.Contract
import Installation.Proofs.Schema.Reread
import Installation.Proofs.Value.Sound

/-!
# Dumps of filled specs

What the filling of a spec does to its dump.  A spec of which all attributes are of their
declared types, and in which nothing is there twice, can be dumped before and after its gaps are
filled.  Its data has grown then, field by field: `dumpsTo_filledAttrs`.
-/

namespace Installation

open Shape Value

theorem Value.Sound.attrIn {v : Value} (h : v.Sound) (name : String) :
  (attrIn name v.attrs).Sound
  := by
  cases v with
  | record kind attrs =>
    rw [attrs_record, Installation.attrIn]
    cases hfound : attrs.lookup name with
    | none => trivial
    | some x => exact attrsSound_iff.mp h.2 _ (Assoc.mem_of_lookup hfound)
  | _ => trivial

namespace Shape

/-- Whether two values of a field can be dumped, and the data of the second one is what that of
the first one has grown to. -/
def DumpsTo (shape : Shape) (v w : Value) : Prop :=
  ∃ x y, shape.dump v = .ok x ∧ shape.dump w = .ok y ∧ Grows shape x y ∧ y.Sound

/-! ### Typed values can be dumped -/

/-- The dump of a map whose keys are texts. -/
theorem exists_dumpMap (raw : Bool) {entries : List (Key × Value)}
    (hnames : ∀ e ∈ entries, ∃ name, e.1 = .text name) (hsound : (dict entries).Sound) :
  ∃ x, dumpMap raw (.dict entries) = .ok x ∧ x.Sound
  := by
  obtain ⟨pairs, rfl⟩ := exists_named hnames
  obtain ⟨distinct, hpairs⟩ := sound_object.mp hsound
  refine ⟨_, dumpMap_object raw distinct, sound_object.mpr ⟨?_, ?_⟩⟩
  · rw [List.map_map]
    exact distinct
  · rw [List.forall_mem_map]
    intro p hp
    cases raw with
    | true => exact hpairs p hp
    | false => exact (isJson_dumpText p.2).sound

/-- The dump of a field without fields of its own. -/
theorem Admits.exists_dump {shape : Shape} {v : Value} (h : shape.Admits v) (hsound : v.Sound) :
  ∃ x, shape.dump v = .ok x ∧ x.Sound
  := by
  cases shape with
  | text =>
    have hfits : Shape.text.Fits v := h
    exact ⟨v, hfits.dump, hsound⟩
  | integer =>
    obtain rfl | ⟨i, rfl⟩ | ⟨b, rfl⟩ := h
    all_goals exact ⟨_, rfl, trivial⟩
  | boolean =>
    obtain rfl | ⟨b, rfl⟩ := h
    all_goals exact ⟨_, rfl, trivial⟩
  | textMap =>
    obtain rfl | ⟨entries, rfl, hentries⟩ := h
    · exact ⟨_, rfl, trivial⟩
    · exact exists_dumpMap false (fun e he => (hentries e he).1) hsound
  | rawMap =>
    obtain rfl | ⟨entries, rfl, hnames⟩ := h
    · exact ⟨_, rfl, trivial⟩
    · exact exists_dumpMap true hnames hsound
  | part required kind fields => contradiction

theorem Admits.dumpsTo {shape : Shape} {v : Value} (h : shape.Admits v) (hsound : v.Sound) :
  DumpsTo shape v v
  := by
  obtain ⟨x, hdump, hx⟩ := h.exists_dump hsound
  have hleaf : shape.isPart = false := by
    cases shape with
    | part required kind fields => contradiction
    | _ => rfl
  exact ⟨x, x, hdump, hdump, .same hleaf x, hx⟩

/-- A record, or the one that is put in for null, whose attributes are dumped to what the data
of others has grown to. -/
theorem dumpsTo_record (required : Bool) {kind : Kind} {fields : List (Slot × Shape)} {v : Value}
    {attrs : List (String × Value)} (hpart : RegularPart kind fields)
    (hv : (v = .null ∧ ∀ f ∈ fields, vacant f.2 = .null) ∨ ∃ others, v = .record kind others)
    (h : ∀ f ∈ fields, DumpsTo f.2 (attrIn f.1.attr v.attrs) (attrIn f.1.attr attrs)) :
  DumpsTo (.part required kind fields) v (.record kind attrs)
  := by
  choose! x y hx hy hgrows hsound using h
  have hnames (data : Slot × Shape → Value) :
      (fields.map fun f => (f.1.wire, data f)).map Prod.fst = wires fields := by
    rw [List.map_map]
    rfl
  have hlookup (data : Slot × Shape → Value) {f : Slot × Shape} (hf : f ∈ fields) :
      ((fields.map fun f => (f.1.wire, data f)).lookup f.1.wire).getD .null = data f := by
    rw [lookup_wires hpart.wires_nodup data hf]
    rfl
  have hafter := dump_record required hpart.declared hy
  have hobject : (object (fields.map fun f => (f.1.wire, y f))).Sound := by
    rw [sound_object, hnames, List.forall_mem_map]
    exact ⟨hpart.wires_nodup, hsound⟩
  obtain ⟨rfl, hvacant⟩ | ⟨others, rfl⟩ := hv
  · refine ⟨.null, _, dump_null _, hafter, .added (hnames y) fun f hf => ?_, hobject⟩
    have hnull : x f = .null := by
      have hdump := hx f hf
      change f.2.dump .null = _ at hdump
      rw [dump_null] at hdump
      exact (Except.ok.inj hdump).symm
    rw [hlookup y hf, hvacant f hf, ← hnull]
    exact hgrows f hf
  · refine ⟨_, _, dump_record required hpart.declared hx, hafter,
      .part (hnames x) (hnames y) fun f hf => ?_, hobject⟩
    rw [hlookup x hf, hlookup y hf]
    exact hgrows f hf

/-- A value of its declared type can be dumped. -/
theorem Typed.dumpsTo {shape : Shape} (hregular : shape.regular) {v : Value} (h : Typed shape v)
    (hsound : v.Sound) :
  DumpsTo shape v v
  := by
  induction h with
  | leaf admits => exact admits.dumpsTo hsound
  | null => exact ⟨.null, .null, rfl, rfl, .null, trivial⟩
  | @part required kind fields attrs offered h ih =>
    have hpart := regularPart hregular
    apply dumpsTo_record required hpart (.inr ⟨attrs, rfl⟩)
    intro f hf
    exact ih f hf (hpart.fields_regular f hf) (hsound.attrIn f.1.attr)

end Shape

/-! ### Filled values -/

/-- A text that may be filled. -/
theorem dumpsTo_orElse {v : Value} {s : String} (h : Shape.text.Admits v) :
  DumpsTo .text v (v.orElse (.text s))
  := by
  have hsound : v.Sound := by
    obtain rfl | ⟨t, rfl⟩ := h
    all_goals trivial
  by_cases hgiven : v.truthy = true
  · rw [orElse_of_truthy hgiven]
    exact h.dumpsTo hsound
  · have hfits : Shape.text.Fits v := h
    have hfits' : Shape.text.Fits (.text s) := .inr ⟨s, rfl⟩
    rw [orElse, if_neg hgiven]
    exact ⟨v, .text s, hfits.dump, hfits'.dump, .text v s (by simpa using hgiven), trivial⟩

/-- Attributes some of which are replaced, each by what its data has grown to. -/
theorem dumpsTo_alterAttrs {fields : List (Slot × Shape)} {attrs : List (String × Value)}
    {steps : List (String × (Value → Value))} (distinct : (steps.map Prod.fst).Nodup)
    (h : ∀ f ∈ fields, DumpsTo f.2 (attrIn f.1.attr attrs) (attrIn f.1.attr attrs))
    (hstep : ∀ step ∈ steps, ∀ f ∈ fields, f.1.attr = step.1 →
      DumpsTo f.2 (attrIn f.1.attr attrs) (step.2 (attrIn f.1.attr attrs))) :
  ∀ f ∈ fields, DumpsTo f.2 (attrIn f.1.attr attrs) (attrIn f.1.attr (alterAttrs steps attrs))
  := by
  intro f hf
  obtain ⟨-, hsame⟩ | ⟨g, hg, hfound⟩ := lookup_alterAttrs_cases distinct f.1.attr attrs
  · have hattr : attrIn f.1.attr (alterAttrs steps attrs) = attrIn f.1.attr attrs := by
      rw [attrIn, hsame, attrIn]
    exact hattr ▸ h f hf
  · rw [show attrIn f.1.attr (alterAttrs steps attrs) = g (attrIn f.1.attr attrs) by
      rw [attrIn, hfound, Option.getD_some]]
    exact hstep _ hg f hf rfl

namespace Service

variable (s : Service) {d : Defaults} {required : Bool} {v : Value}

/-- Nothing in a service is required, nor in a managed one. -/
theorem vacant_fields :
  (∀ f ∈ s.schema.fields, vacant f.2 = .null) ∧ ∀ f ∈ s.managedSchema.fields, vacant f.2 = .null
  := by
  cases s <;> simp [schema, managedSchema, Schema.fileStore, Schema.database,
    Schema.managedFileStore, Schema.managedDatabase, Schema.field, Schema.renamed,
    Schema.toShape, vacant]

/-- The dump of a managed service whose gaps are filled. -/
theorem dumpsTo_filledManaged (hd : d.AreTexts)
    (typed : Typed (s.managedSchema.toShape false) v) (hsound : v.Sound) :
  DumpsTo (s.managedSchema.toShape false) v (s.filledManaged d v)
  := by
  rw [filledManaged, ← s.managedSchema_kind]
  apply dumpsTo_record false s.regularPart_managedSchema
  · exact typed.accepts.1.imp_left fun hnull => ⟨hnull, s.vacant_fields.2⟩
  · have hfields := s.regularPart_managedSchema
    rw [fillManaged_eq_alterAttrs]
    apply dumpsTo_alterAttrs (s.nodup_gapSteps d)
    · intro f hf
      exact (typed.attr hf).dumpsTo (hfields.fields_regular f hf) (hsound.attrIn f.1.attr)
    · intro step hstep f hf hattr
      obtain ⟨gap, hgap, rfl⟩ := List.mem_map.mp hstep
      have hneed : gap.1 ∈ s.needs := s.map_fst_gaps d ▸ List.mem_map_of_mem hgap
      obtain ⟨g, hg, hname, htext⟩ := s.exists_text_of_gap gap hgap
      obtain rfl := eq_of_attr_eq hfields.attrNames_nodup hf hg (hattr.trans hname.symm)
      obtain ⟨t, ht⟩ := s.exists_text_of_gaps hd gap hgap
      simp only [htext, ht, hattr]
      exact dumpsTo_orElse (s.admits_needs typed hneed)

/-- The dump of a service whose gaps are filled. -/
theorem dumpsTo_filled (hd : d.AreTexts) (typed : Typed (s.schema.toShape required) v)
    (hsound : v.Sound) :
  DumpsTo (s.schema.toShape required) v (s.filled d v)
  := by
  rw [filled]
  split
  · exact typed.dumpsTo (s.regular_schema required) hsound
  · have hfields := s.regularPart_schema
    rw [← s.schema_kind]
    apply dumpsTo_record required hfields
    · exact typed.accepts.1.imp_left fun hnull => ⟨hnull, s.vacant_fields.1⟩
    · change ∀ f ∈ s.schema.fields, DumpsTo f.2 (attrIn f.1.attr v.attrs)
        (attrIn f.1.attr (alterAttrs [("operator_managed", s.filledManaged d)] v.attrs))
      refine dumpsTo_alterAttrs (List.nodup_singleton _) ?_ ?_
      · intro f hf
        exact (typed.attr hf).dumpsTo (hfields.fields_regular f hf) (hsound.attrIn f.1.attr)
      · rintro step (_ | ⟨_, ⟨⟩⟩) f hf hattr
        obtain rfl := eq_of_attr_eq hfields.attrNames_nodup hf s.managed_mem hattr
        exact s.dumpsTo_filledManaged hd (typed.attr hf) (hsound.attrIn _)

end Service

/-- The dumps of the attributes of a spec whose gaps are filled. -/
theorem dumpsTo_filledAttrs {d : Defaults} {attrs : List (String × Value)} (hd : d.AreTexts)
    (typed : Typed (Schema.spec.toShape true) (.record .spec attrs))
    (hsound : (Value.record .spec attrs).Sound) :
  DumpsTo (Schema.spec.toShape true) (.record .spec attrs) (.record .spec (filledAttrs d attrs))
  := by
  have hown {f g : Slot × Shape} {v : Value} (hf : f ∈ Schema.spec.fields)
      (hg : g ∈ Schema.spec.fields) (hattr : f.1.attr = g.1.attr) (htext : g.2 = .text)
      (hv : ∃ t, v = .text t) :
      DumpsTo f.2 (attrIn f.1.attr attrs) ((attrIn f.1.attr attrs).orElse v) := by
    obtain rfl := spec_field_unique hf hg hattr
    obtain ⟨t, rfl⟩ := hv
    have hadmits := typed.attr hf
    rw [htext] at hadmits ⊢
    exact dumpsTo_orElse (hadmits.admits rfl)
  have hservice (s : Service) {f g : Slot × Shape} {required : Bool} (hf : f ∈ Schema.spec.fields)
      (hg : g ∈ Schema.spec.fields) (hattr : f.1.attr = g.1.attr)
      (hshape : g.2 = s.schema.toShape required) :
      DumpsTo f.2 (attrIn f.1.attr attrs) (s.filled d (attrIn f.1.attr attrs)) := by
    obtain rfl := spec_field_unique hf hg hattr
    have htyped := typed.attr hf
    rw [hshape] at htyped ⊢
    exact s.dumpsTo_filled hd htyped (hsound.attrIn _)
  apply dumpsTo_record true regularPart_spec (.inr ⟨attrs, rfl⟩)
  apply dumpsTo_alterAttrs (nodup_specSteps ..)
  · intro f hf
    exact (typed.attr hf).dumpsTo (regularPart_spec.fields_regular f hf) (hsound.attrIn _)
  · simp only [ownSteps, List.cons_append, List.nil_append, List.forall_mem_cons,
      List.not_mem_nil, false_implies, implies_true, and_true]
    refine ⟨?_, ?_, ?_, ?_, ?_⟩
    · exact fun f hf hattr => hown hf (Schema.spec.mem_fields "image" rfl) hattr rfl hd.image
    · exact fun f hf hattr => hown hf (Schema.spec.mem_fields "version" rfl) hattr rfl hd.version
    · exact fun f hf hattr =>
        hown hf (Schema.spec.mem_fields "imagePullPolicy" rfl) hattr rfl hd.pullPolicy
    · exact fun f hf hattr =>
        hservice .fileStore hf (Schema.spec.mem_fields "fileStore" rfl) hattr rfl
    · exact fun f hf hattr =>
        hservice .database hf (Schema.spec.mem_fields "database" rfl) hattr rfl

end Installation

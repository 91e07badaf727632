import Installation.Proofs.Gaps.Settled
import Installation.Proofs.Gaps.Spec
import Installation.Proofs.Number.Text
import Installation.Proofs.Schema.Reread

/-!
# Filling what records hold

A spec that was read holds what it may hold, `Shape.HeldAttrs`, and still does so once its gaps
are filled: `heldAttrs_filledAttrs`.  Whatever it held before, the dump of the filled spec is
settled for the same defaults, `settled_dump`, and is not blocked, `isBlocked_dump`.
-/

namespace Installation

open Shape Value

/-! ### Texts and booleans in a dump -/

/-- The text of a value that is given is not empty. -/
theorem Value.toText_ne_empty {v : Value} (hv : v.IsJson) (h : v.truthy) :
  v.toText ≠ ""
  := by
  have hplain : v.plain ≠ [] := by
    cases v with
    | null => contradiction
    | bool b => cases b <;> simp [plain, literal]
    | int i =>
      have hdigits := digitsOf_ne_nil i.natAbs
      simp only [plain, literal, integerText, signed]
      split <;> simp [hdigits]
    | float x =>
      cases x with
      | nan payload => simp [plain, literal, Binary64.write, literalNumbers]
      | infinite negative =>
        cases negative <;> simp [plain, literal, Binary64.write, literalNumbers, signed]
      | finite negative m q reduced =>
        rw [plain, literal]
        · obtain hmem | hmem :=
            Binary64.point_or_mark_mem_write literalNumbers negative m q reduced
          · exact List.ne_nil_of_mem hmem
          · exact List.ne_nil_of_mem hmem
        · simp
    | text s => simpa [plain, truthy] using h
    | list vs => simp [plain, literal]
    | dict entries => simp [plain, literal]
    | _ => contradiction
  intro hempty
  rw [toText] at hempty
  apply hplain
  simpa using congrArg String.toList hempty

/-- What is not given is not dumped as true. -/
theorem dumpBoolean_of_not_truthy {v : Value} (hv : v.IsJson) (h : v.truthy = false) :
  dumpBoolean v = .bool false
  := by
  have htruth : v.truth?.getD v.truthy = false := by
    rw [h]
    cases v with
    | bool b =>
      obtain rfl : b = false := h
      rfl
    | int i =>
      obtain rfl : i = 0 := by simpa [truthy] using h
      rfl
    | float x =>
      cases x with
      | finite negative m q reduced =>
        obtain rfl : m = 0 := by simpa [truthy, Binary64.isZero] using h
        have hden : ¬(0 : Int) = 2 ^ (-q).toNat :=
          Int.ne_of_lt (Int.pow_pos (by decide))
        simp [truth?, number?, Binary64.extended?, Extended.same, Extended.ofInt, hden]
      | _ => simp [truthy, Binary64.isZero] at h
    | text s =>
      obtain rfl : s = "" := by simpa [truthy] using h
      decide
    | _ => rfl
  rw [dumpBoolean, htruth]

/-- A text that was dumped in the place of a gap, with the default for it. -/
theorem filled_dump {x v w : Value} (hx : ∃ s, x = .text s) (hv : v.IsJson)
    (h : Shape.text.dump (v.orElse x) = .ok w) :
  Filled x w
  := by
  by_cases htruthy : v.truthy = true
  · rw [orElse_of_truthy htruthy, dump] at h
    · refine ⟨v.toText, ?_, .inl (toText_ne_empty hv htruthy)⟩
      rw [← Except.ok.inj h, dumpText]
      exact ne_null_of_truthy htruthy
    · exact ne_null_of_truthy htruthy
  · obtain ⟨s, rfl⟩ := hx
    rw [Value.orElse, if_neg htruthy] at h
    exact ⟨s, by simpa [dump] using (Except.ok.inj h).symm, .inr rfl⟩

/-- Where nothing is given, nothing is given in a dump. -/
theorem not_truthy_dump {v w : Value} (hv : v.IsJson) (hfalse : v.truthy = false)
    (h : Shape.boolean.dump v = .ok w) :
  w.truthy = false
  := by
  by_cases hnull : v = .null
  · rw [hnull, dump_null] at h
    rw [← Except.ok.inj h]
    rfl
  · rw [dump] at h
    · rw [← Except.ok.inj h, dumpBoolean_of_not_truthy hv hfalse]
      rfl
    · exact hnull

/-- A host that was given is given in a dump. -/
theorem truthy_dump {v w : Value} (hv : v.IsJson) (htruthy : v.truthy)
    (h : Shape.text.dump v = .ok w) :
  (w.orElse (.text "")).truthy
  := by
  obtain ⟨s, rfl, hs | hs⟩ := filled_dump ⟨"", rfl⟩ hv
    (show Shape.text.dump (v.orElse (.text "")) = .ok w by rw [orElse_of_truthy htruthy, h])
  · simp [Value.orElse, truthy, hs]
  · obtain rfl : "" = s := by simpa using hs
    rw [dump] at h
    · have hempty : v.toText = "" := by
        rw [dumpText] at h
        · simpa using h
        · exact ne_null_of_truthy htruthy
      exact absurd hempty (toText_ne_empty hv htruthy)
    · exact ne_null_of_truthy htruthy

/-! ### Services -/

theorem held_orElse {shape : Shape} {v x : Value} (hv : Held shape v) (hx : x.IsJson) :
  Held shape (v.orElse x)
  := by
  rw [Value.orElse]
  split
  · exact hv
  · exact .json hx

theorem isJson_of_text {x : Value} (h : ∃ s, x = .text s) :
  x.IsJson
  := by
  obtain ⟨s, rfl⟩ := h
  trivial

namespace Service

variable (s : Service) {d : Defaults} {required : Bool} {v : Value}

theorem suits_of_held (h : Held (s.schema.toShape required) v) :
  s.Suits v
  := by
  rintro kind attrs rfl
  refine ⟨h.kind_eq.trans s.schema_kind, fun kind' attrs' heq => ?_⟩
  have hmanaged := h.attrs _ s.managed_mem
  rw [attrs_record] at hmanaged
  change Held _ (attrIn "operator_managed" attrs) at hmanaged
  rw [heq] at hmanaged
  exact hmanaged.kind_eq.trans s.managedSchema_kind

theorem held_filledManaged (hd : d.AreTexts) (h : Held (s.managedSchema.toShape required) v) :
  Held (s.managedSchema.toShape required) (s.filledManaged d v)
  := by
  rw [filledManaged, ← s.managedSchema_kind]
  refine .record ?_
  rw [fillManaged_eq_alterAttrs]
  refine HeldAttrs.alterAttrs h.attrs fun step hstep f _ _ x hx => ?_
  obtain ⟨gap, hgap, rfl⟩ := List.mem_map.mp hstep
  exact held_orElse hx (isJson_of_text (s.exists_text_of_gaps hd gap hgap))

/-- A service that is filled holds what it may hold. -/
theorem held_filled (hd : d.AreTexts) (h : Held (s.schema.toShape required) v) :
  Held (s.schema.toShape required) (s.filled d v)
  := by
  rw [filled]
  split
  · exact h
  · rw [← s.schema_kind]
    refine .record (HeldAttrs.alterAttr h.attrs fun f hf hattr x hx => ?_)
    obtain rfl := eq_of_attr_eq s.regularPart_schema.attrNames_nodup hf s.managed_mem hattr
    exact s.held_filledManaged hd hx

/-- A service that is filled is there. -/
theorem filled_ne_null (d : Defaults) (v : Value) :
  s.filled d v ≠ .null
  := by
  rw [filled]
  split
  · rename_i helsewhere
    rintro rfl
    cases s <;> contradiction
  · simp

/-- In the dump of a service that is filled, each gap of what is managed is filled, unless the
service is run elsewhere. -/
theorem filled_gap (hd : d.AreTexts) {y : Value} (h : Held (s.schema.toShape required) v)
    (hdump : (s.schema.toShape required).dump (s.filled d v) = .ok y)
    (helsewhere : s.isElsewhere v.attrs = false) {wire attr : String} {x : Value}
    (hf : (⟨wire, attr⟩, .text) ∈ s.managedSchema.fields) (hgap : (attr, x) ∈ s.gaps d) :
  Filled x ((y.under "operatorManaged").under wire)
  := by
  have hmanaged := dump_under s.regularPart_schema hdump s.managed_mem
  rw [filled, if_neg (by simp [helsewhere]), partOr_record, attrIn_alterAttr] at hmanaged
  have hfield := dump_under s.regularPart_managedSchema hmanaged hf
  rw [filledManaged, partOr_record, fillManaged_eq_alterAttrs,
    attrIn_alterAttrs (List.mem_map.mpr ⟨_, hgap, rfl⟩)] at hfield
  · apply filled_dump (s.exists_text_of_gaps hd _ hgap) _ hfield
    exact ((h.attrs _ s.managed_mem).attrs _ hf).isJson rfl
  · cases s <;> simp [gaps]

/-- The places where a service can be run elsewhere are fields of it. -/
theorem exists_field_of_place :
  ∀ name ∈ s.places, ∃ f ∈ s.schema.fields, f.1.attr = name
  := by
  cases s <;> decide

/-- In the dump of a service that is run elsewhere, one of its places is given. -/
theorem exists_place {y : Value} (h : Held (s.schema.toShape required) v)
    (hdump : (s.schema.toShape required).dump (s.filled d v) = .ok y)
    (helsewhere : s.isElsewhere v.attrs = true) :
  ∃ f ∈ s.schema.fields, f.1.attr ∈ s.places ∧ y.under f.1.wire ≠ .null
  := by
  rw [filled, if_pos helsewhere] at hdump
  obtain ⟨name, hname, hgiven⟩ := List.any_eq_true.mp helsewhere
  obtain ⟨f, hf, rfl⟩ := s.exists_field_of_place name hname
  refine ⟨f, hf, hname, ?_⟩
  have hnull : attrIn f.1.attr v.attrs ≠ .null := by simpa [← isNull_iff] using hgiven
  cases v with
  | record kind attrs =>
    have hplace := dump_under s.regularPart_schema hdump hf
    rw [partOr_record] at hplace
    exact ne_null_of_dump (s.regularPart_schema.fields_regular f hf) (h.attrs f hf) hnull hplace
  | _ => contradiction

end Service

/-! ### Specs -/

section Spec

variable {d : Defaults} {attrs : List (String × Value)} {required : Bool} {w : Value}

/-- A spec that is filled holds what it may hold. -/
theorem heldAttrs_filledAttrs (hd : d.AreTexts) (h : HeldAttrs Schema.spec.fields attrs) :
  HeldAttrs Schema.spec.fields (filledAttrs d attrs)
  := by
  apply h.alterAttrs
  simp only [ownSteps, List.cons_append, List.nil_append, List.forall_mem_cons,
    List.not_mem_nil, false_implies, implies_true, and_true]
  refine ⟨?_, ?_, ?_, ?_, ?_⟩
  · exact fun f _ _ v hv => held_orElse hv (isJson_of_text hd.image)
  · exact fun f _ _ v hv => held_orElse hv (isJson_of_text hd.version)
  · exact fun f _ _ v hv => held_orElse hv (isJson_of_text hd.pullPolicy)
  · intro f hf hattr v hv
    obtain rfl := spec_field_unique hf (Schema.spec.mem_fields "fileStore" rfl) hattr
    exact Service.fileStore.held_filled hd hv
  · intro f hf hattr v hv
    obtain rfl := spec_field_unique hf (Schema.spec.mem_fields "database" rfl) hattr
    exact Service.database.held_filled hd hv

variable (hdump : (Schema.spec.toShape required).dump (.record .spec (filledAttrs d attrs)) = .ok w)

include hdump

/-- The dump of an attribute that is no service, with its gap filled. -/
theorem filled_own (h : HeldAttrs Schema.spec.fields attrs) {wire attr : String} {x : Value}
    (hf : (⟨wire, attr⟩, .text) ∈ Schema.spec.fields)
    (hstep : (attr, fun v => v.orElse x) ∈ ownSteps d) (hx : ∃ s, x = .text s) :
  Filled x (w.under wire)
  := by
  have hfield := dump_under regularPart_spec hdump hf
  rw [partOr_record, attrIn_filledAttrs_own d attrs hstep] at hfield
  exact filled_dump hx ((h _ hf).isJson rfl) hfield

/-- The dump of a filled spec is settled. -/
theorem settled_dump (hd : d.AreTexts) (h : HeldAttrs Schema.spec.fields attrs) :
  Settled d w
  := by
  obtain ⟨hfile, hdatabase⟩ := attrIn_filledAttrs d attrs
  have hfileDump := dump_under regularPart_spec hdump (Schema.spec.mem_fields "fileStore" rfl)
  have hdatabaseDump := dump_under regularPart_spec hdump (Schema.spec.mem_fields "database" rfl)
  simp only [partOr_record, hfile, hdatabase] at hfileDump hdatabaseDump
  have hfileHeld : Held (Service.fileStore.schema.toShape true) (attrIn "file_store" attrs) :=
    h _ (Schema.spec.mem_fields "fileStore" rfl)
  have hdatabaseHeld : Held (Service.database.schema.toShape true) (attrIn "database" attrs) :=
    h _ (Schema.spec.mem_fields "database" rfl)
  refine ⟨?_, ?_, ?_, ?_, ?_⟩
  · exact filled_own hdump h (Schema.spec.mem_fields "image" rfl) (by simp [ownSteps]) hd.image
  · exact filled_own hdump h (Schema.spec.mem_fields "version" rfl) (by simp [ownSteps]) hd.version
  · exact filled_own hdump h (Schema.spec.mem_fields "imagePullPolicy" rfl) (by simp [ownSteps])
      hd.pullPolicy
  · cases helsewhere : Service.fileStore.isElsewhere (attrIn "file_store" attrs).attrs with
    | true =>
      obtain ⟨f, hf, hplace, hgiven⟩ :=
        Service.fileStore.exists_place hfileHeld hfileDump helsewhere
      left
      simp only [Service.schema, Schema.fileStore, Schema.field, Schema.renamed, List.mem_cons,
        List.not_mem_nil, or_false] at hf
      obtain rfl | rfl | rfl := hf
      · exact .inl hgiven
      · exact .inr hgiven
      · simp [Service.places] at hplace
    | false =>
      right
      exact Service.fileStore.filled_gap hd hfileHeld hfileDump helsewhere
        (.tail _ (.head _)) (.head _)
  · cases helsewhere : Service.database.isElsewhere (attrIn "database" attrs).attrs with
    | true =>
      obtain ⟨f, hf, hplace, hgiven⟩ :=
        Service.database.exists_place hdatabaseHeld hdatabaseDump helsewhere
      left
      simp only [Service.schema, Schema.database, Schema.field, Schema.renamed, List.mem_cons,
        List.not_mem_nil, or_false] at hf
      obtain rfl | rfl := hf
      · exact hgiven
      · simp [Service.places] at hplace
    | false =>
      right
      exact ⟨Service.database.filled_gap hd hdatabaseHeld hdatabaseDump helsewhere
          (.head _) (.head _),
        Service.database.filled_gap hd hdatabaseHeld hdatabaseDump helsewhere
          (.tail _ (.tail _ (.head _))) (.tail _ (.head _))⟩

end Spec

/-! ### Hosts -/

/-- The parts of an ingress part that count. -/
theorem exists_of_viewOfIngress {ingress : Value} {view : IngressView}
    (h : viewOfIngress ingress = .ok view) :
  ∃ enabled host, ingress.attr "enabled" = .ok enabled ∧ ingress.attr "host" = .ok host ∧
    view.enabled = enabled.truthy ∧ view.host = host.orElse (.text "")
  := by
  unfold viewOfIngress at h
  simp only [bind, Except.bind] at h
  split at h
  · contradiction
  · rename_i enabled henabled
    split at h
    · contradiction
    · rename_i host hhost
      split at h
      · contradiction
      · split at h
        · contradiction
        · split at h
          · contradiction
          · obtain rfl := Except.ok.inj h
            exact ⟨enabled, host, henabled, hhost, rfl, rfl⟩

/-- The parts of the older form of ingress that count. -/
theorem exists_of_viewOfSpec {spec : Value} {view : IngressView} (h : viewOfSpec spec = .ok view) :
  ∃ host, spec.attr "ingress_name" = .ok host ∧ view.enabled = true ∧
    view.host = host.orElse (.text "")
  := by
  unfold viewOfSpec at h
  simp only [bind, Except.bind] at h
  split at h
  · contradiction
  · rename_i host hhost
    split at h
    · contradiction
    · split at h
      · contradiction
      · split at h
        · contradiction
        · split at h
          · split at h
            · contradiction
            · obtain rfl := Except.ok.inj h
              exact ⟨host, hhost, rfl, rfl⟩
          · obtain rfl := Except.ok.inj h
            exact ⟨host, hhost, rfl, rfl⟩

theorem truthy_of_orElse {v : Value} (h : (v.orElse (.text "")).truthy) :
  v.truthy
  := by
  by_contra hnot
  rw [Value.orElse, if_neg hnot] at h
  contradiction

section Host

variable {attrs others : List (String × Value)} {required : Bool} {w : Value}
  {view : IngressView} (h : HeldAttrs Schema.spec.fields attrs)
  (hdump : (Schema.spec.toShape required).dump (.record .spec attrs) = .ok w)
  (hopen : view.isBlocked = false)

include h hdump hopen

/-- The dump of a spec with the older form of ingress is not blocked if the spec is not. -/
theorem isBlocked_dump_spec (hnone : attrIn "ingress" attrs = .null)
    (hview : viewOfSpec (.record .spec attrs) = .ok view) :
  w.isBlocked = false
  := by
  obtain ⟨host, hhost, henabled, hviewHost⟩ := exists_of_viewOfSpec hview
  rw [attr_declared (by decide)] at hhost
  obtain rfl := Except.ok.inj hhost
  have hingress := dump_under regularPart_spec hdump (Schema.spec.mem_fields "ingress" rfl)
  simp only [partOr_record, hnone, dump_null] at hingress
  have hname := dump_under regularPart_spec hdump (Schema.spec.mem_fields "ingressName" rfl)
  simp only [partOr_record] at hname
  have htruthy : (attrIn "ingress_name" attrs).truthy := by
    rw [IngressView.isBlocked] at hopen
    apply truthy_of_orElse
    simpa [henabled, hviewHost] using hopen
  have hgiven :=
    truthy_dump ((h _ (Schema.spec.mem_fields "ingressName" rfl)).isJson rfl) htruthy hname
  have hnull : (w.under "ingress").isNull = true := isNull_iff.mpr (Except.ok.inj hingress).symm
  rw [isBlocked, isReached, hostOf, if_pos hnull, hgiven, Bool.not_true, Bool.and_false]

/-- The dump of a spec with an ingress part is not blocked if the spec is not. -/
theorem isBlocked_dump_ingress (hfound : attrIn "ingress" attrs = .record .ingress others)
    (hview : viewOfIngress (.record .ingress others) = .ok view) :
  w.isBlocked = false
  := by
  obtain ⟨enabled, host, henabled, hhost, hviewEnabled, hviewHost⟩ :=
    exists_of_viewOfIngress hview
  rw [attr_declared (by decide)] at henabled hhost
  obtain rfl := Except.ok.inj henabled
  obtain rfl := Except.ok.inj hhost
  have hheld := h _ (Schema.spec.mem_fields "ingress" rfl)
  have hingress := dump_under regularPart_spec hdump (Schema.spec.mem_fields "ingress" rfl)
  simp only [partOr_record, hfound] at hheld hingress
  have henabledDump := dump_under regularPart_ingress hingress (.head _)
  have hhostDump := dump_under regularPart_ingress hingress (.tail _ (.head _))
  rw [partOr_record] at henabledDump hhostDump
  have hnull : (w.under "ingress").isNull = false := by
    apply Bool.eq_false_iff.mpr
    apply mt isNull_iff.mp
    exact ne_null_of_dump
      (regularPart_spec.fields_regular _ (Schema.spec.mem_fields "ingress" rfl)) hheld
      (by simp) hingress
  rw [isBlocked, isReached, hostOf, hnull, Bool.false_or, if_neg Bool.false_ne_true]
  cases hon : view.enabled with
  | true =>
    have htruthy : (attrIn "host" others).truthy := by
      rw [IngressView.isBlocked] at hopen
      apply truthy_of_orElse
      simpa [hon, hviewHost] using hopen
    have hgiven : (((w.under "ingress").under "host").orElse (.text "")).truthy = true :=
      truthy_dump ((hheld.attrs _ (.tail _ (.head _))).isJson rfl) htruthy hhostDump
    rw [hgiven, Bool.not_true, Bool.and_false]
  | false =>
    rw [hviewEnabled] at hon
    have hoff : ((w.under "ingress").under "enabled").truthy = false :=
      not_truthy_dump ((hheld.attrs _ (.head _)).isJson rfl) hon henabledDump
    rw [hoff, Bool.false_and]

/-- The dump of a spec that is not blocked is not blocked. -/
theorem isBlocked_dump (hview : resolveIngress (.record .spec attrs) = .ok view) :
  w.isBlocked = false
  := by
  rw [resolveIngress, attr_declared (by decide)] at hview
  have hheld := h _ (Schema.spec.mem_fields "ingress" rfl)
  simp only at hheld
  cases hfound : attrIn "ingress" attrs with
  | null =>
    rw [hfound] at hview
    exact isBlocked_dump_spec h hdump hopen hfound hview
  | record kind others =>
    rw [hfound] at hview hheld
    obtain rfl := hheld.kind_eq
    exact isBlocked_dump_ingress h hdump hopen hfound hview
  | _ =>
    rw [hfound] at hview
    obtain ⟨enabled, host, henabled, -⟩ := exists_of_viewOfIngress hview
    contradiction

end Host

end Installation

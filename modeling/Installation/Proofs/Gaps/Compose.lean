import Installation.Proofs.Gaps.Spec

/-!
# Filling gaps twice

The gaps of a spec are filled again and again, and defaults change in between.  Where all
attributes of a spec are of their declared types, `Shape.Typed`, to fill its gaps twice is to
fill them once with the defaults of both, where those of the first filling come first.  So a
spec whose gaps were filled with defaults that are not empty never changes again:
`fillSpec_compose`.
-/

namespace Installation

open Value

/-! ### Declared types -/

namespace Shape

/-- Whether a value is of the type that is declared for attributes without fields of their
own.  A boolean is an integer, too. -/
def Admits : Shape → Value → Prop
  | .text, v => v = .null ∨ ∃ s, v = .text s
  | .integer, v => v = .null ∨ (∃ i, v = .int i) ∨ ∃ b, v = .bool b
  | .boolean, v => v = .null ∨ ∃ b, v = .bool b
  | .textMap, v => v = .null ∨ ∃ entries, v = .dict entries ∧
      ∀ e ∈ entries, (∃ name, e.1 = .text name) ∧ ∃ s, e.2 = .text s
  | .rawMap, v => v = .null ∨ ∃ entries, v = .dict entries ∧
      ∀ e ∈ entries, ∃ name, e.1 = .text name
  | .part _ _ _, _ => False

/-- Whether a value is of its declared type.  A part is null or a record of its kind, whose
operations are those of its kind and whose attributes are of their declared types. -/
inductive Typed : Shape → Value → Prop
  | leaf {shape : Shape} {v : Value} (admits : shape.Admits v) : Typed shape v
  | null {required : Bool} {kind : Kind} {fields : List (Slot × Shape)} :
    Typed (.part required kind fields) .null
  | part {required : Bool} {kind : Kind} {fields : List (Slot × Shape)}
    {attrs : List (String × Value)}
    (offered : ∀ name ∈ kind.operations, attrs.lookup name = none)
    (h : ∀ f ∈ fields, Typed f.2 (attrIn f.1.attr attrs)) :
    Typed (.part required kind fields) (.record kind attrs)

end Shape

/-- Whether a value is null or a record of a kind that has all of its operations. -/
def Kind.Accepts (kind : Kind) (v : Value) : Prop :=
  (v = .null ∨ ∃ attrs, v = .record kind attrs) ∧
    ∀ name ∈ kind.operations, v.attrs.lookup name = none

namespace Shape

/-- Every attribute may be null. -/
theorem typed_null (shape : Shape) :
  Typed shape .null
  := by
  cases shape with
  | part required kind fields => exact .null
  | _ => exact .leaf (.inl rfl)

theorem Typed.admits {shape : Shape} {v : Value} (h : Typed shape v)
    (hleaf : shape.isPart = false) :
  shape.Admits v
  := by
  cases h with
  | leaf admits => exact admits
  | null => contradiction
  | part offered h => contradiction

section Part

variable {required : Bool} {kind : Kind} {fields : List (Slot × Shape)} {v : Value}

theorem Typed.accepts (h : Typed (.part required kind fields) v) :
  kind.Accepts v
  := by
  cases h with
  | leaf admits => contradiction
  | null => exact ⟨.inl rfl, fun name _ => rfl⟩
  | @part _ _ _ attrs offered h => exact ⟨.inr ⟨attrs, rfl⟩, offered⟩

/-- An attribute of a part is of its declared type; that of null is null. -/
theorem Typed.attr (h : Typed (.part required kind fields) v) {f : Slot × Shape}
    (hf : f ∈ fields) :
  Typed f.2 (attrIn f.1.attr v.attrs)
  := by
  cases h with
  | leaf admits => contradiction
  | null => exact typed_null f.2
  | part offered h => exact h f hf

end Part

end Shape

open Shape

/-! ### Services that can be filled -/

namespace Service

variable (s : Service) (d : Defaults)

/-- Whether a service has all operations that the filling of its gaps makes use of. -/
def Ready (v : Value) : Prop :=
  s.kind.Accepts v ∧ s.managed.Accepts (attrIn "operator_managed" v.attrs)

theorem ready_of_typed {required : Bool} {v : Value} (h : Typed (s.schema.toShape required) v) :
  s.Ready v
  := by
  rw [Ready, ← s.schema_kind, ← s.managedSchema_kind]
  exact ⟨h.accepts, (h.attr s.managed_mem).accepts⟩

variable {s}

theorem Ready.suits {v : Value} (h : s.Ready v) :
  s.Suits v
  := by
  rintro kind attrs rfl
  obtain ⟨⟨hkind | ⟨attrs', hkind⟩, -⟩, hmanaged | ⟨others, hmanaged⟩, -⟩ := h
  · contradiction
  · contradiction
  · refine ⟨(record.inj hkind).1, fun kind' attrs' heq => ?_⟩
    rw [attrs_record, heq] at hmanaged
    contradiction
  · refine ⟨(record.inj hkind).1, fun kind' attrs' heq => ?_⟩
    rw [attrs_record, heq] at hmanaged
    exact (record.inj hmanaged).1

variable (s)

theorem offers_managed {attrs : List (String × Value)}
    (h : ∀ name ∈ s.managed.operations, attrs.lookup name = none) :
  (Value.record s.managed attrs).offers "set_defaults" = .ok s.managed
  := by
  have hmem : "set_defaults" ∈ s.managed.operations := by cases s <;> decide
  exact offers_record hmem (h _ hmem)

theorem offers_service {attrs : List (String × Value)}
    (h : ∀ name ∈ s.kind.operations, attrs.lookup name = none) :
  (Value.record s.kind attrs).offers "set_defaults" = .ok s.kind
  := by
  have hmem : "set_defaults" ∈ s.kind.operations := by cases s <;> decide
  exact offers_record hmem (h _ hmem)

variable {s}

/-- Nothing stops the filling of a service that has all operations. -/
theorem Ready.fillPart {v : Value} (h : s.Ready v) :
  fillPart d (s.given v) = .done (s.filled d v)
  := by
  apply s.fillPart_given d h.suits
  obtain ⟨⟨hnull | ⟨attrs, hrecord⟩, offered⟩, hmanaged, offered'⟩ := h
  · subst hnull
    cases s <;> rfl
  · subst hrecord
    rw [attrs_record] at hmanaged offered offered'
    rw [given, if_neg (by simp [isNull]), fillPart_record, s.offers_service offered,
      s.asks_of_offered offered]
    cases s.isElsewhere attrs with
    | true => rfl
    | false =>
      simp only
      rw [Attempt.fault?_map, fillManaged_eq]
      change (if (attrIn "operator_managed" attrs).isNull = true then _
        else (Installation.fillPart d (attrIn "operator_managed" attrs)).map _).fault? = none
      obtain hnone | ⟨others, hothers⟩ := hmanaged
      · rw [if_pos (isNull_iff.mpr hnone)]
        rfl
      · rw [hothers, attrs_record] at offered'
        rw [hothers, if_neg (by simp [isNull]), fillPart_managed, s.offers_managed offered']
        rfl

/-- A service that was filled has the operations that it had. -/
theorem Ready.filled {v : Value} (h : s.Ready v) :
  s.Ready (s.filled d v)
  := by
  rw [Service.filled]
  split
  · exact h
  · obtain ⟨⟨-, offered⟩, -, offered'⟩ := h
    refine ⟨⟨.inr ⟨_, rfl⟩, fun name hname => ?_⟩, ?_⟩
    · have hne : name ≠ "operator_managed" := by
        rintro rfl
        cases s <;> simp [Service.kind, Kind.operations] at hname
      rw [attrs_record, lookup_alterAttr_ne _ _ hne]
      exact offered name hname
    · rw [attrs_record, attrIn_alterAttr]
      exact ⟨.inr ⟨_, rfl⟩, s.offered_fillManaged d offered'⟩

end Service

/-! ### Specs that can be filled -/

/-- The annotations of an ingress can be read. -/
theorem optionalEntries_admits {v : Value} (h : Shape.textMap.Admits v) :
  ∃ entries, optionalEntries v = .ok entries
  := by
  obtain rfl | ⟨entries, rfl, -⟩ := h
  · exact ⟨[], rfl⟩
  · rw [optionalEntries]
    split
    · exact ⟨entries, rfl⟩
    · exact ⟨[], rfl⟩

/-- How a typed spec is reached, its host being a text. -/
theorem exists_view_typed {attrs : List (String × Value)}
    (h : Typed (Schema.spec.toShape true) (.record .spec attrs)) :
  ∃ view host, resolveIngress (.record .spec attrs) = .ok view ∧ view.host = .text host
  := by
  rw [resolveIngress, attr_declared (by decide)]
  have hingress := h.attr (Schema.spec.mem_fields "ingress" rfl)
  rw [attrs_record] at hingress
  obtain ⟨hnull | ⟨others, hothers⟩, -⟩ := hingress.accepts
  · obtain ⟨entries, hentries⟩ :=
      optionalEntries_admits ((h.attr (Schema.spec.mem_fields "ingressAnnotations" rfl)).admits rfl)
    obtain ⟨host, hhost⟩ :=
      exists_text_orElse ((h.attr (Schema.spec.mem_fields "ingressName" rfl)).admits rfl)
    simp only [attrs_record] at hentries hhost
    simp only [hnull]
    unfold viewOfSpec
    rw [attr_declared (by decide), attr_declared (by decide), attr_declared (by decide)]
    simp only [bind, Except.bind, hentries, hhost, defaultTlsSecret]
    split
    · exact ⟨_, host, rfl, rfl⟩
    · exact ⟨_, host, rfl, rfl⟩
  · obtain ⟨host, hhost⟩ :=
      exists_text_orElse ((hingress.attr (.tail _ (.head _))).admits rfl)
    obtain ⟨entries, hentries⟩ :=
      optionalEntries_admits ((hingress.attr (.tail _ (.tail _ (.head _)))).admits rfl)
    rw [hothers, attrs_record] at hentries hhost
    change optionalEntries (attrIn "annotations" others) = _ at hentries
    simp only [hothers]
    unfold viewOfIngress
    rw [attr_declared (by decide), attr_declared (by decide), attr_declared (by decide),
      attr_declared (by decide)]
    simp only [bind, Except.bind, hentries]
    exact ⟨_, host, rfl, hhost⟩

/-- How a typed spec is reached. -/
theorem resolveIngress_typed {attrs : List (String × Value)}
    (h : Typed (Schema.spec.toShape true) (.record .spec attrs)) :
  ∃ view, resolveIngress (.record .spec attrs) = .ok view
  := by
  obtain ⟨view, host, hview, -⟩ := exists_view_typed h
  exact ⟨view, hview⟩

/-- Whether both services of a spec can be filled. -/
def ReadyAttrs (attrs : List (String × Value)) : Prop :=
  Service.fileStore.Ready (attrIn "file_store" attrs) ∧
    Service.database.Ready (attrIn "database" attrs)

theorem readyAttrs_of_typed {required : Bool} {attrs : List (String × Value)}
    (h : Typed (Schema.spec.toShape required) (.record .spec attrs)) :
  ReadyAttrs attrs
  := ⟨Service.fileStore.ready_of_typed (h.attr (Schema.spec.mem_fields "fileStore" rfl)),
    Service.database.ready_of_typed (h.attr (Schema.spec.mem_fields "database" rfl))⟩

/-- A spec whose services can be filled stays such a spec. -/
theorem ReadyAttrs.filledAttrs {attrs : List (String × Value)} (h : ReadyAttrs attrs)
    (d : Defaults) :
  ReadyAttrs (filledAttrs d attrs)
  := by
  obtain ⟨hfile, hdatabase⟩ := attrIn_filledAttrs d attrs
  rw [ReadyAttrs, hfile, hdatabase]
  exact ⟨h.1.filled d, h.2.filled d⟩

/-- The filling of a spec whose services can be filled, by how the spec is reached. -/
theorem ReadyAttrs.fillSpec {attrs : List (String × Value)} (h : ReadyAttrs attrs)
    {view : IngressView} (hview : resolveIngress (.record .spec attrs) = .ok view)
    (d : Defaults) :
  fillSpec d (.record .spec attrs) =
    if view.isBlocked then .failed (.record .spec attrs) .hostRequired
    else .done (.record .spec (Installation.filledAttrs d attrs))
  := fillSpec_of_parts hview (h.1.fillPart d) (h.2.fillPart d)

/-! ### Filling twice -/

/-- To fill the gaps of a typed spec twice is to fill them once with the defaults of both.
Either every filling is stopped for want of a host, and changes nothing, or every filling comes
to its end; then to fill the gaps again changes nothing, whatever the defaults are by then, if
those of the first filling are not empty. -/
theorem fillSpec_compose {attrs : List (String × Value)}
    (typed : Typed (Schema.spec.toShape true) (.record .spec attrs)) :
  (∀ d₁ d₂, (fillSpec d₁ (.record .spec attrs)).andThen (fillSpec d₂) =
    fillSpec (d₁.orElse d₂) (.record .spec attrs)) ∧
  ((∀ d, fillSpec d (.record .spec attrs) = .failed (.record .spec attrs) .hostRequired) ∨
    ∀ d, ∃ filled, fillSpec d (.record .spec attrs) = .done filled) ∧
  ∀ d filled, fillSpec d (.record .spec attrs) = .done filled →
    fillSpec d filled = .done filled ∧
    ((∀ p ∈ d.toPairs, p.2.truthy) → ∀ d', fillSpec d' filled = .done filled)
  := by
  have hready := readyAttrs_of_typed typed
  obtain ⟨view, hview⟩ := resolveIngress_typed typed
  have hfill := hready.fillSpec hview
  have hagain (d₁ d₂ : Defaults) :
      fillSpec d₂ (.record .spec (filledAttrs d₁ attrs)) =
        if view.isBlocked then .failed (.record .spec (filledAttrs d₁ attrs)) .hostRequired
        else .done (.record .spec (filledAttrs (d₁.orElse d₂) attrs)) := by
    rw [← filledAttrs_filledAttrs]
    apply (hready.filledAttrs d₁).fillSpec
    rw [resolveIngress_filledAttrs, hview]
  cases hblocked : view.isBlocked with
  | true =>
    simp only [hblocked, if_true] at hfill
    refine ⟨fun d₁ d₂ => ?_, .inl hfill, fun d filled h => ?_⟩
    · rw [hfill, hfill, Attempt.andThen_failed]
    · rw [hfill] at h
      exact absurd h (by simp)
  | false =>
    simp only [hblocked, Bool.false_eq_true, if_false] at hfill hagain
    refine ⟨fun d₁ d₂ => ?_, .inr fun d => ⟨_, hfill d⟩, fun d filled h => ?_⟩
    · rw [hfill, hfill, Attempt.andThen_done, hagain]
    · rw [hfill] at h
      obtain rfl := Attempt.done_inj.mp h
      refine ⟨?_, fun hgiven d' => ?_⟩
      · rw [hagain, Defaults.orElse_self]
      · rw [hagain, Defaults.orElse_of_truthy hgiven]

/-- The attributes of a spec with the older form of ingress, an image that is left empty, and a
database that is run elsewhere. -/
def mixedAttrs : List (String × Value) :=
  [("image", .text ""), ("ingress_name", .text "chat.example.com"),
   ("database", .record .database [("external", .record .externalDatabase [])])]

theorem mixedAttrs_typed :
  Typed (Schema.spec.toShape true) (.record .spec mixedAttrs)
  := by
  have hdatabase : Typed (Schema.database.toShape true)
      (.record .database [("external", .record .externalDatabase [])]) := by
    refine .part (by decide) ?_
    simp only [Schema.database, Schema.field, Schema.renamed, List.forall_mem_cons,
      List.not_mem_nil, false_implies, implies_true, and_true]
    refine ⟨.part (by decide) ?_, typed_null _⟩
    simp only [Schema.externalDatabase, Schema.field, List.forall_mem_cons, List.not_mem_nil,
      false_implies, implies_true, and_true]
    exact typed_null _
  refine .part (by decide) ?_
  simp only [Schema.spec, Schema.field, Schema.renamed, List.forall_mem_cons, List.not_mem_nil,
    false_implies, implies_true, and_true]
  exact ⟨.leaf (.inr ⟨_, rfl⟩), typed_null _, typed_null _, typed_null _, typed_null _,
    .leaf (.inr ⟨_, rfl⟩), typed_null _, typed_null _, typed_null _, typed_null _, hdatabase⟩

theorem fillSpec_compose_mixed :
  (fillSpec { Defaults.builtin with image := .text "" } (.record .spec mixedAttrs)).andThen
      (fillSpec .builtin) =
    fillSpec .builtin (.record .spec mixedAttrs) ∧
  ∃ filled, fillSpec .builtin (.record .spec mixedAttrs) = .done filled ∧
    fillSpec { Defaults.builtin with image := .text "other" } filled = .done filled
  := by
  obtain ⟨hcompose, -, hagain⟩ := fillSpec_compose mixedAttrs_typed
  refine ⟨hcompose _ _, _, rfl, ?_⟩
  exact (hagain .builtin _ rfl).2 (by decide) _

end Installation

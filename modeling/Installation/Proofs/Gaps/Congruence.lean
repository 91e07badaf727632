import Installation.Proofs.Gaps.Compose
import Installation.Proofs.Gaps.Held
import Installation.Proofs.Schema.Travel

/-!
# Relations that fillings preserve

A relation between the values of fields is a `Shape.Congruence` when it can be told from the
attributes of records, one by one, and relates a text to itself and to nothing else.  Two specs
whose attributes are related still are once the gaps of both are filled, whatever the defaults
are: `Congruence.filledAttrs`.
-/

namespace Installation

open Value

/-- Whether a relation between values of fields is told from the attributes of records.  A text
field may hold any value, which is a default then, as long as both hold the same. -/
structure Shape.Congruence (R : Shape → Value → Value → Prop) : Prop where
  text (v : Value) : R .text v v
  eq_of_text {v w : Value} (h : R .text v w) : v = w
  null_iff {shape : Shape} {v w : Value} (h : R shape v w) : v = .null ↔ w = .null
  attrs {required : Bool} {kind : Kind} {fields : List (Slot × Shape)} {v w : Value}
    (h : R (.part required kind fields) v w) :
    ∀ f ∈ fields, R f.2 (attrIn f.1.attr v.attrs) (attrIn f.1.attr w.attrs)
  accepts {required : Bool} {kind : Kind} {fields : List (Slot × Shape)} {v w : Value}
    (h : R (.part required kind fields) v w) : kind.Accepts v ∧ kind.Accepts w
  part {required : Bool} {kind : Kind} {fields : List (Slot × Shape)}
    {attrs others : List (String × Value)}
    (offered : ∀ name ∈ kind.operations, attrs.lookup name = none)
    (offered' : ∀ name ∈ kind.operations, others.lookup name = none)
    (h : ∀ f ∈ fields, R f.2 (attrIn f.1.attr attrs) (attrIn f.1.attr others)) :
    R (.part required kind fields) (.record kind attrs) (.record kind others)

namespace Shape.Congruence

variable {R : Shape → Value → Value → Prop} (hR : Congruence R)

include hR

/-- Related texts are replaced by the same default. -/
theorem orElse {v w : Value} (h : R .text v w) (x : Value) :
  R .text (v.orElse x) (w.orElse x)
  := by
  rw [hR.eq_of_text h]
  exact hR.text _

section Service

variable (s : Service) (d : Defaults) {required : Bool} {v w : Value}

/-- Managed parts that are related still are when their gaps are filled. -/
theorem filledManaged (h : R (s.managedSchema.toShape required) v w) :
  R (s.managedSchema.toShape required) (s.filledManaged d v) (s.filledManaged d w)
  := by
  obtain ⟨⟨-, offered⟩, -, offered'⟩ := hR.accepts h
  rw [s.managedSchema_kind] at offered offered'
  rw [Service.filledManaged, Service.filledManaged, ← s.managedSchema_kind]
  apply hR.part
  · rw [s.managedSchema_kind]
    exact s.offered_fillManaged d offered
  · rw [s.managedSchema_kind]
    exact s.offered_fillManaged d offered'
  · rw [s.fillManaged_eq_alterAttrs, s.fillManaged_eq_alterAttrs]
    apply @forall_attrIn_alterAttrs _ _ _ _ (fun f => R f.2) (hR.attrs h)
    intro step hstep f hf hattr x y hxy
    obtain ⟨gap, hgap, rfl⟩ := List.mem_map.mp hstep
    obtain ⟨g, hg, hname, htext⟩ := s.exists_text_of_gap gap hgap
    obtain rfl := eq_of_attr_eq s.regularPart_managedSchema.attrNames_nodup hf hg
      (hattr.trans hname.symm)
    rw [htext] at hxy ⊢
    exact hR.orElse hxy gap.2

/-- Services that are related are run in the same place. -/
theorem isElsewhere_eq (h : R (s.schema.toShape required) v w) :
  s.isElsewhere v.attrs = s.isElsewhere w.attrs
  := by
  rw [Service.isElsewhere, Service.isElsewhere, Bool.eq_iff_iff, List.any_eq_true,
    List.any_eq_true]
  apply exists_congr
  intro name
  apply and_congr_right
  intro hname
  obtain ⟨f, hf, rfl⟩ := s.exists_field_of_place name hname
  have hnull := hR.null_iff (hR.attrs h f hf)
  rw [← isNull_iff, ← isNull_iff, ← Bool.eq_iff_iff] at hnull
  rw [hnull]

/-- Services that are related still are when their gaps are filled. -/
theorem filled (h : R (s.schema.toShape required) v w) :
  R (s.schema.toShape required) (s.filled d v) (s.filled d w)
  := by
  rw [Service.filled, Service.filled, hR.isElsewhere_eq s h]
  split
  · exact h
  · obtain ⟨⟨-, offered⟩, -, offered'⟩ := hR.accepts h
    have hne : ∀ name ∈ s.schema.kind.operations, name ≠ "operator_managed" := by
      cases s <;> decide
    rw [← s.schema_kind]
    apply hR.part
    · intro name hname
      rw [lookup_alterAttr_ne _ _ (hne name hname)]
      exact offered name hname
    · intro name hname
      rw [lookup_alterAttr_ne _ _ (hne name hname)]
      exact offered' name hname
    · apply @forall_attrIn_alterAttrs _ _ _ [("operator_managed", s.filledManaged d)]
        (fun f => R f.2) (hR.attrs h)
      simp only [List.forall_mem_singleton]
      intro f hf hattr x y hxy
      obtain rfl := eq_of_attr_eq s.regularPart_schema.attrNames_nodup hf s.managed_mem hattr
      exact hR.filledManaged s d hxy

/-- Both of two services that are related can be filled. -/
theorem ready (h : R (s.schema.toShape required) v w) :
  s.Ready v ∧ s.Ready w
  := by
  rw [Service.Ready, Service.Ready, ← s.schema_kind, ← s.managedSchema_kind]
  obtain ⟨hleft, hright⟩ := hR.accepts h
  obtain ⟨hleft', hright'⟩ := hR.accepts (hR.attrs h _ s.managed_mem)
  exact ⟨⟨hleft, hleft'⟩, hright, hright'⟩

end Service

section Spec

variable {attrs others : List (String × Value)}
  (h : ∀ f ∈ Schema.spec.fields, R f.2 (attrIn f.1.attr attrs) (attrIn f.1.attr others))

include h

/-- Specs that are related still are when their gaps are filled. -/
theorem filledAttrs (d : Defaults) :
  ∀ f ∈ Schema.spec.fields,
    R f.2 (attrIn f.1.attr (filledAttrs d attrs)) (attrIn f.1.attr (filledAttrs d others))
  := by
  apply @forall_attrIn_alterAttrs _ _ _ _ (fun f => R f.2) h
  simp only [ownSteps, List.cons_append, List.nil_append, List.forall_mem_cons,
    List.not_mem_nil, false_implies, implies_true, and_true]
  refine ⟨?_, ?_, ?_, ?_, ?_⟩
  · intro f hf hattr v w hvw
    obtain rfl := spec_field_unique hf (Schema.spec.mem_fields "image" rfl) hattr
    exact hR.orElse hvw d.image
  · intro f hf hattr v w hvw
    obtain rfl := spec_field_unique hf (Schema.spec.mem_fields "version" rfl) hattr
    exact hR.orElse hvw d.version
  · intro f hf hattr v w hvw
    obtain rfl := spec_field_unique hf (Schema.spec.mem_fields "imagePullPolicy" rfl) hattr
    exact hR.orElse hvw d.pullPolicy
  · intro f hf hattr v w hvw
    obtain rfl := spec_field_unique hf (Schema.spec.mem_fields "fileStore" rfl) hattr
    exact hR.filled .fileStore d hvw
  · intro f hf hattr v w hvw
    obtain rfl := spec_field_unique hf (Schema.spec.mem_fields "database" rfl) hattr
    exact hR.filled .database d hvw

/-- Both services of specs that are related can be filled. -/
theorem readyAttrs :
  ReadyAttrs attrs ∧ ReadyAttrs others
  := by
  obtain ⟨hfile, hfile'⟩ := hR.ready .fileStore (h _ (Schema.spec.mem_fields "fileStore" rfl))
  obtain ⟨hdatabase, hdatabase'⟩ := hR.ready .database (h _ (Schema.spec.mem_fields "database" rfl))
  exact ⟨⟨hfile, hdatabase⟩, hfile', hdatabase'⟩

end Spec

end Shape.Congruence

end Installation

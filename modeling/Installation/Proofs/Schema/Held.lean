import Installation.Proofs.Gaps.Alter
import Installation.Proofs.Schema.Load

/-!
# What records hold

An entry that is no field becomes an attribute, and takes the place of the attribute of a field
that has its name.  So a record that was read can hold any data in the place of a field.
`Shape.Held` is what may be found there: data of any form, or a record of the kind of the part.
What data is read as is held, whatever entries it has besides its fields: `load_held`.
-/

namespace Installation

open Value

namespace Shape

/-- What may be found in the place of a field: any data, or a record of the kind of the part
that holds such values itself. -/
inductive Held : Shape → Value → Prop
  | json {shape : Shape} {v : Value} (h : v.IsJson) : Held shape v
  | record {required : Bool} {kind : Kind} {fields : List (Slot × Shape)}
    {attrs : List (String × Value)} (h : ∀ f ∈ fields, Held f.2 (attrIn f.1.attr attrs)) :
    Held (.part required kind fields) (.record kind attrs)

/-- Whether attributes hold what may be found in the places of fields. -/
def HeldAttrs (fields : List (Slot × Shape)) (attrs : List (String × Value)) : Prop :=
  ∀ f ∈ fields, Held f.2 (attrIn f.1.attr attrs)

theorem held_null (shape : Shape) :
  Held shape .null
  := .json trivial

/-- There are no records in the place of a field without fields of its own. -/
theorem Held.isJson {shape : Shape} {v : Value} (h : Held shape v)
    (hleaf : shape.isPart = false) :
  v.IsJson
  := by
  cases h with
  | json h => exact h
  | record h => contradiction

section Part

variable {required : Bool} {kind : Kind} {fields : List (Slot × Shape)} {v : Value}

/-- A record in the place of a part is of its kind. -/
theorem Held.kind_eq {other : Kind} {attrs : List (String × Value)}
    (h : Held (.part required kind fields) (.record other attrs)) :
  other = kind
  := by
  cases h with
  | json h => contradiction
  | record h => rfl

/-- The attributes of what is held hold such values themselves. -/
theorem Held.attrs (h : Held (.part required kind fields) v) :
  HeldAttrs fields v.attrs
  := by
  intro f hf
  cases h with
  | json h =>
    cases v with
    | record kind attrs => contradiction
    | _ => exact held_null f.2
  | record h => exact h f hf

end Part

/-! ### Records that travel -/

/-- The attribute of a record that travels. -/
theorem Travels.attrIn {required : Bool} {kind : Kind} {fields : List (Slot × Shape)}
    {r w : Value} (h : Travels (.part required kind fields) r w) (hgiven : r ≠ .null)
    {f : Slot × Shape} (hf : f ∈ fields) :
  Travels f.2 (Installation.attrIn f.1.attr r.attrs) (w.under f.1.wire)
  := by
  cases h with
  | leaf fits => contradiction
  | null => contradiction
  | part offered names h =>
    rw [under_object]
    exact h f hf

/-- What is read of a field without fields of its own is the data that it travels as. -/
theorem Travels.leaf_eq {shape : Shape} {r w : Value} (h : Travels shape r w)
    (hleaf : shape.isPart = false) :
  r = w ∧ shape.Fits w
  := by
  cases h with
  | leaf fits => exact ⟨rfl, fits⟩
  | null => contradiction
  | part offered names h => contradiction

/-! ### Replaced attributes -/

section Alter

variable {fields : List (Slot × Shape)} {attrs others : List (String × Value)}
  {steps : List (String × (Value → Value))}

/-- What holds of the attributes of two records field by field still does after rounds of
replacements that preserve it. -/
theorem forall_attrIn_alterAttrs {rel : Slot × Shape → Value → Value → Prop}
    (h : ∀ f ∈ fields, rel f (attrIn f.1.attr attrs) (attrIn f.1.attr others))
    (hstep : ∀ step ∈ steps, ∀ f ∈ fields, f.1.attr = step.1 →
      ∀ v w, rel f v w → rel f (step.2 v) (step.2 w)) :
  ∀ f ∈ fields, rel f (attrIn f.1.attr (alterAttrs steps attrs))
    (attrIn f.1.attr (alterAttrs steps others))
  := by
  induction steps generalizing attrs others with
  | nil => exact h
  | cons step steps ih =>
    rw [List.forall_mem_cons] at hstep
    simp only [alterAttrs_cons]
    refine ih (fun f hf => ?_) hstep.2
    by_cases hname : f.1.attr = step.1
    · rw [← hname, attrIn_alterAttr, attrIn_alterAttr]
      exact hstep.1 f hf hname _ _ (h f hf)
    · rw [attrIn_alterAttr_ne _ _ hname, attrIn_alterAttr_ne _ _ hname]
      exact h f hf

/-- Attributes hold such values after rounds of replacements that put such values in. -/
theorem HeldAttrs.alterAttrs (h : HeldAttrs fields attrs)
    (hg : ∀ step ∈ steps, ∀ f ∈ fields, f.1.attr = step.1 →
      ∀ v, Held f.2 v → Held f.2 (step.2 v)) :
  HeldAttrs fields (alterAttrs steps attrs)
  := @forall_attrIn_alterAttrs fields attrs attrs steps (fun f v _ => Held f.2 v) h
    fun step hstep f hf hname v _ => hg step hstep f hf hname v

theorem HeldAttrs.alterAttr {name : String} {g : Value → Value} (h : HeldAttrs fields attrs)
    (hg : ∀ f ∈ fields, f.1.attr = name → ∀ v, Held f.2 v → Held f.2 (g v)) :
  HeldAttrs fields (alterAttr name g attrs)
  := @HeldAttrs.alterAttrs fields attrs [(name, g)] h (by simpa using hg)

end Alter

/-! ### What is read -/

/-- What is left out is held. -/
theorem held_absent {shape : Shape} (hregular : shape.regular) :
  Held shape shape.absent
  := by
  induction shape using shapeInduction with
  | onLeaf shape hleaf =>
    cases shape with
    | part required kind fields => contradiction
    | _ => exact held_null _
  | onPart required kind fields ih =>
    cases required with
    | false => exact held_null _
    | true =>
      have hpart := regularPart hregular
      rw [absent, blankAttrs_eq]
      refine .record fun f hf => ?_
      rw [attrIn, lookup_attrs hpart.attrNames_nodup _ hf]
      exact ih f hf (hpart.fields_regular f hf)

/-- What a part is read as, from what its fields give and what is no field. -/
theorem exists_of_load_record {required : Bool} {kind : Kind} {fields : List (Slot × Shape)}
    {pairs : List (String × Value)} {r : Value}
    (h : load (.part required kind fields) (object pairs) = .ok r) :
  ∃ value : Slot × Shape → Value,
    (∀ f ∈ fields, loadAt f.2 (pairs.lookup f.1.wire) = .ok (value f)) ∧
    r = .record kind (Assoc.overlay (fields.map fun f => (f.1.attr, value f))
      (unmodelledPairs fields pairs))
  := by
  have hfields := exists_of_load_object h
  choose! value hvalue using hfields
  refine ⟨value, hvalue, ?_⟩
  rw [load_object, tallyUp_ok hvalue, Except.bind, finish] at h
  simp only at h
  rw [unmodelled_named, build, asAttrs?_named] at h
  simp only at h
  split at h
  · contradiction
  · exact (Except.ok.inj h).symm

/-- What data is read as is held. -/
theorem load_held {shape : Shape} (hregular : shape.regular) {v r : Value} (hv : v.IsJson)
    (h : shape.load v = .ok r) :
  Held shape r
  := by
  induction shape using shapeInduction generalizing v r with
  | onLeaf shape hleaf => exact .json (load_fits hleaf hv h).isJson
  | onPart required kind fields ih =>
    have hpart := regularPart hregular
    cases v with
    | null =>
      cases required with
      | false =>
        obtain rfl := Except.ok.inj h
        exact held_null _
      | true => simp [load] at h
    | dict entries =>
      obtain ⟨pairs, rfl⟩ := hv.exists_object
      obtain ⟨distinct, hjson⟩ := (isJson_object pairs).mp hv
      obtain ⟨value, hvalue, rfl⟩ := exists_of_load_record h
      refine .record fun f hf => ?_
      have distinct' : ((unmodelledPairs fields pairs).map Prod.fst).Nodup :=
        distinct.sublist (List.filter_sublist.map _)
      rw [attrIn, Assoc.lookup_overlay _ distinct', lookup_attrs hpart.attrNames_nodup value hf]
      -- an entry that is no field comes before what the field gives
      cases hextra : (unmodelledPairs fields pairs).lookup f.1.attr with
      | some x =>
        have hmem := (List.mem_filter.mp (Assoc.mem_of_lookup hextra)).1
        exact .json (hjson _ hmem)
      | none =>
        have hgive := hvalue f hf
        cases hfound : pairs.lookup f.1.wire with
        | none =>
          rw [hfound] at hgive
          have hvalue : f.2.absent = value f := Except.ok.inj hgive
          exact hvalue ▸ held_absent (hpart.fields_regular f hf)
        | some x =>
          rw [hfound] at hgive
          exact ih f hf (hpart.fields_regular f hf) (hjson _ (Assoc.mem_of_lookup hfound)) hgive
    | _ => simp [load] at h

end Shape

end Installation

import Installation.Proofs.Value.Entries
import Installation.Schema.Catalog
import Installation.Schema.Dump

/-!
# Records and the data they travel as

`Shape.Travels` relates what a field of a shape is read as to the data that it travels as.
Texts, integers, booleans and maps travel as they are; a record travels as the dictionary of
all of its fields, whatever other attributes it has besides.  The dump of a record is the data
that it travels as: `Shape.Travels.dump`.  An attribute of a record can be read, and set, along
with the field that it travels as.
-/

namespace Installation

namespace Shape

/-! ### Shapes -/

/-- Whether a shape is that of a part with fields of its own. -/
def isPart : Shape → Bool
  | .part _ _ _ => true
  | _ => false

section Induction

variable {motive : Shape → Prop} (onLeaf : ∀ shape, shape.isPart = false → motive shape)
  (onPart : ∀ required kind fields, (∀ f ∈ fields, motive f.2) →
    motive (.part required kind fields))

include onLeaf onPart

/-- Induction over shapes: those without fields, and parts. -/
@[elab_as_elim]
theorem shapeInduction (shape : Shape) :
  motive shape
  :=
  match shape with
  | .text => onLeaf .text rfl
  | .integer => onLeaf .integer rfl
  | .boolean => onLeaf .boolean rfl
  | .textMap => onLeaf .textMap rfl
  | .rawMap => onLeaf .rawMap rfl
  | .part required kind fields => onPart required kind fields fun f _ => shapeInduction f.2
termination_by sizeOf shape
decreasing_by
  rename_i hf
  have := List.sizeOf_lt_of_mem hf
  obtain ⟨slot, shape⟩ := f
  simp only [part.sizeOf_spec, Prod.mk.sizeOf_spec] at this ⊢
  omega

end Induction

/-- The names under which fields travel. -/
def wires (fields : List (Slot × Shape)) : List String := fields.map fun f => f.1.wire

/-- The names of the attributes of fields. -/
def attrNames (fields : List (Slot × Shape)) : List String := fields.map fun f => f.1.attr

mutual

/-- Whether the names of all fields are distinct, and those of their attributes are declared
by the kind of the part and are not those of its operations. -/
def regular : Shape → Bool
  | .part _ kind fields =>
    (wires fields).Nodup && (attrNames fields).Nodup &&
      (attrNames fields).all (fun name => kind.declared.contains name) &&
      kind.declared.all (fun name => !kind.operations.contains name) && regularFields fields
  | _ => true

/-- Whether the shapes of all fields are regular. -/
def regularFields : List (Slot × Shape) → Bool
  | [] => true
  | (_, shape) :: fields => regular shape && regularFields fields

end

/-- What holds of the fields of a regular part. -/
structure RegularPart (kind : Kind) (fields : List (Slot × Shape)) : Prop where
  wires_nodup : (wires fields).Nodup
  attrNames_nodup : (attrNames fields).Nodup
  declared : ∀ f ∈ fields, f.1.attr ∈ kind.declared
  apart : ∀ name ∈ kind.declared, name ∉ kind.operations
  fields_regular : ∀ f ∈ fields, regular f.2

theorem regularPart {required : Bool} {kind : Kind} {fields : List (Slot × Shape)}
    (h : regular (.part required kind fields)) :
  RegularPart kind fields
  := by
  have hfields : ∀ fields : List (Slot × Shape), regularFields fields →
      ∀ f ∈ fields, regular f.2 := by
    intro fields
    induction fields with
    | nil => simp
    | cons f fields ih =>
      intro h
      obtain ⟨hf, hrest⟩ := by simpa [regularFields] using h
      rintro g (_ | ⟨_, hg⟩)
      · exact hf
      · exact ih hrest g hg
  simp only [regular, Bool.and_eq_true, decide_eq_true_eq, List.all_eq_true,
    List.contains_eq_mem, Bool.not_eq_true', decide_eq_false_iff_not] at h
  obtain ⟨⟨⟨⟨hwires, hattrs⟩, hdeclared⟩, hapart⟩, hregular⟩ := h
  exact ⟨hwires, hattrs, fun f hf => hdeclared f.1.attr (List.mem_map_of_mem hf), hapart,
    hfields fields hregular⟩

/-- The schema of specs is regular. -/
theorem regular_spec (required : Bool) :
  regular (Schema.spec.toShape required)
  := by
  cases required <;> decide +kernel

/-- A field is the only one that travels under its name. -/
theorem eq_of_wire_eq {fields : List (Slot × Shape)} (distinct : (wires fields).Nodup)
    {f g : Slot × Shape} (hf : f ∈ fields) (hg : g ∈ fields) (h : f.1.wire = g.1.wire) :
  f = g
  := List.inj_on_of_nodup_map distinct hf hg h

/-- A field is the only one with its attribute. -/
theorem eq_of_attr_eq {fields : List (Slot × Shape)} (distinct : (attrNames fields).Nodup)
    {f g : Slot × Shape} (hf : f ∈ fields) (hg : g ∈ fields) (h : f.1.attr = g.1.attr) :
  f = g
  := List.inj_on_of_nodup_map distinct hf hg h

/-! ### What travels as it is -/

/-- Whether a value is what a field without fields of its own is read as. -/
def Fits : Shape → Value → Prop
  | .text, v => v = .null ∨ ∃ s, v = .text s
  | .integer, v => v = .null ∨ ∃ i, v = .int i
  | .boolean, v => v = .null ∨ ∃ b, v = .bool b
  | .textMap, v => v = .null ∨ ∃ pairs, v = Value.object pairs ∧ (pairs.map Prod.fst).Nodup ∧
      ∀ p ∈ pairs, ∃ s, p.2 = .text s
  | .rawMap, v => v = .null ∨ ∃ pairs, v = Value.object pairs ∧ (pairs.map Prod.fst).Nodup ∧
      ∀ p ∈ pairs, p.2 ≠ .null ∧ p.2.IsJson
  | .part _ _ _, _ => False

theorem Fits.isJson {shape : Shape} {v : Value} (h : shape.Fits v) :
  v.IsJson
  := by
  cases shape with
  | text =>
    obtain rfl | ⟨s, rfl⟩ := h
    all_goals trivial
  | integer =>
    obtain rfl | ⟨i, rfl⟩ := h
    all_goals trivial
  | boolean =>
    obtain rfl | ⟨b, rfl⟩ := h
    all_goals trivial
  | textMap =>
    obtain rfl | ⟨pairs, rfl, distinct, hall⟩ := h
    · trivial
    · refine (Value.isJson_object pairs).mpr ⟨distinct, ?_⟩
      intro p hp
      obtain ⟨s, hs⟩ := hall p hp
      rw [hs]
      trivial
  | rawMap =>
    obtain rfl | ⟨pairs, rfl, distinct, hall⟩ := h
    · trivial
    · exact (Value.isJson_object pairs).mpr ⟨distinct, fun p hp => (hall p hp).2⟩
  | part required kind fields => contradiction

theorem fits_null {shape : Shape} (h : shape.isPart = false) :
  shape.Fits .null
  := by
  cases shape with
  | part required kind fields => contradiction
  | _ => exact .inl rfl

@[simp]
theorem dumpText_text (s : String) :
  dumpText (.text s) = .text s
  := by
  simp [dumpText, Value.toText, Value.plain]

@[simp]
theorem dumpKey_text (s : String) :
  dumpKey (.text s) = .text s
  := by
  simp [dumpKey, Key.plain]

/-- The dump of a map with texts as keys. -/
theorem dumpMap_object (raw : Bool) {pairs : List (String × Value)}
    (distinct : (pairs.map Prod.fst).Nodup) :
  dumpMap raw (Value.object pairs) =
    .ok (Value.object (pairs.map fun p => (p.1, if raw then p.2 else dumpText p.2)))
  := by
  have hcheck (ps : List (String × Value)) :
      checkKeys ((named ps).map fun e => e.1.toValue) = .ok () := by
    induction ps with
    | nil => rfl
    | cons p ps ih => exact ih
  have hentries : ((named pairs).map fun e => (dumpKey e.1, if raw then e.2 else dumpText e.2)) =
      named (pairs.map fun p => (p.1, if raw then p.2 else dumpText p.2)) := by
    rw [named, named, List.map_map, List.map_map]
    apply List.map_congr_left
    intro p hp
    simp
  have distinct' : ((pairs.map fun p => (p.1, if raw then p.2 else dumpText p.2)).map
      Prod.fst).Nodup := by
    rw [List.map_map]
    exact distinct
  change ((checkKeys ((named pairs).map fun e => e.1.toValue)).bind fun _ =>
    Except.ok (Value.dict (dumpEntries raw (named pairs)))) = _
  rw [hcheck, dumpEntries, hentries, ofPairs_named _ distinct']
  rfl

/-- What travels as it is is its own dump. -/
theorem Fits.dump {shape : Shape} {v : Value} (h : shape.Fits v) :
  shape.dump v = .ok v
  := by
  have hmap (raw : Bool) {pairs : List (String × Value)}
      (h : ∀ p ∈ pairs, raw = true ∨ ∃ s, p.2 = .text s) :
      (pairs.map fun p => (p.1, if raw then p.2 else dumpText p.2)) = pairs := by
    conv_rhs => rw [← List.map_id pairs]
    apply List.map_congr_left
    rintro ⟨name, v⟩ hp
    obtain rfl | ⟨s, rfl⟩ := h _ hp
    · rfl
    · simp
  cases shape with
  | text =>
    obtain rfl | ⟨s, rfl⟩ := h
    · rfl
    · rw [Shape.dump, dumpText_text]
      simp
  | integer =>
    obtain rfl | ⟨i, rfl⟩ := h
    all_goals rfl
  | boolean =>
    obtain rfl | ⟨b, rfl⟩ := h
    · rfl
    · cases b <;> rfl
  | textMap =>
    obtain rfl | ⟨pairs, rfl, distinct, hall⟩ := h
    · rfl
    · change dumpMap false _ = _
      rw [dumpMap_object false distinct, hmap false fun p hp => .inr (hall p hp)]
  | rawMap =>
    obtain rfl | ⟨pairs, rfl, distinct, hall⟩ := h
    · rfl
    · change dumpMap true _ = _
      rw [dumpMap_object true distinct, hmap true fun p hp => .inl rfl]
  | part required kind fields => contradiction

/-! ### What records travel as -/

/-- What a field of a shape is read as, and the data that it travels as. -/
inductive Travels : Shape → Value → Value → Prop
  | leaf {shape : Shape} {v : Value} (fits : shape.Fits v) : Travels shape v v
  | null {kind : Kind} {fields : List (Slot × Shape)} :
    Travels (.part false kind fields) .null .null
  | part {required : Bool} {kind : Kind} {fields : List (Slot × Shape)}
    {attrs pairs : List (String × Value)}
    (offered : ∀ name ∈ kind.operations, attrs.lookup name = none)
    (names : pairs.map Prod.fst = wires fields)
    (h : ∀ f ∈ fields, Travels f.2 ((attrs.lookup f.1.attr).getD .null)
      ((pairs.lookup f.1.wire).getD .null)) :
    Travels (.part required kind fields) (.record kind attrs) (Value.object pairs)

namespace Travels

theorem isJson {shape : Shape} {r w : Value} (hregular : shape.regular)
    (h : Travels shape r w) :
  w.IsJson
  := by
  induction h with
  | leaf fits => exact fits.isJson
  | null => trivial
  | @part required kind fields attrs pairs offered names h ih =>
    have hpart := regularPart hregular
    have distinct : (pairs.map Prod.fst).Nodup := names ▸ hpart.wires_nodup
    refine (Value.isJson_object pairs).mpr ⟨distinct, ?_⟩
    intro p hp
    have hname : p.1 ∈ wires fields := names ▸ List.mem_map_of_mem hp
    obtain ⟨f, hf, heq⟩ := List.mem_map.mp hname
    have hfield := ih f hf (hpart.fields_regular f hf)
    rw [heq, Assoc.lookup_of_mem distinct hp] at hfield
    exact hfield

/-- The dump of a record is the data that it travels as. -/
theorem dump {shape : Shape} {r w : Value} (hregular : shape.regular) (h : Travels shape r w) :
  shape.dump r = .ok w
  := by
  induction h with
  | leaf fits => exact fits.dump
  | null => rfl
  | @part required kind fields attrs pairs offered names h ih =>
    have hpart := regularPart hregular
    have hfields : ∀ (gs : List (Slot × Shape)) (ps : List (String × Value)),
        (∀ g ∈ gs, g ∈ fields) → ps.map Prod.fst = wires gs → (∀ p ∈ ps, p ∈ pairs) →
        dumpFields gs (.record kind attrs) = .ok (named ps) := by
      intro gs
      induction gs with
      | nil =>
        intro ps _ hnames _
        obtain rfl : ps = [] := by simpa [wires] using hnames
        rfl
      | cons g gs ihs =>
        intro ps hgs hnames hps
        cases ps with
        | nil => simp [wires] at hnames
        | cons p ps =>
          obtain ⟨hname, hrest⟩ : p.1 = g.1.wire ∧ ps.map Prod.fst = wires gs := by
            simpa [wires] using hnames
          have hg := hgs g (by simp)
          have hfound : (Value.record kind attrs).part? g.1.attr =
              some ((attrs.lookup g.1.attr).getD .null) := by
            have hdeclared := hpart.declared g hg
            rw [Value.part?]
            cases attrs.lookup g.1.attr <;> simp [hdeclared]
          have hlookup : pairs.lookup g.1.wire = some p.2 := by
            rw [← hname]
            exact Assoc.lookup_of_mem (names ▸ hpart.wires_nodup) (hps p (by simp))
          have hdump := ih g hg (hpart.fields_regular g hg)
          rw [hlookup] at hdump
          rw [dumpFields, hfound]
          simp only
          rw [hdump, ihs ps (fun g hg => hgs g (by simp [hg])) hrest fun p hp =>
            hps p (by simp [hp])]
          rw [named_cons, hname]
          rfl
    change (dumpFields fields (.record kind attrs)).map Value.dict = _
    rw [hfields fields pairs (fun _ hg => hg) names fun _ hp => hp]
    rfl

/-- An attribute of a record that travels. -/
theorem attr {required : Bool} {kind : Kind} {fields : List (Slot × Shape)} {r w : Value}
    (hpart : RegularPart kind fields) (h : Travels (.part required kind fields) r w)
    (hgiven : r ≠ .null) {f : Slot × Shape} (hf : f ∈ fields) :
  ∃ x, r.attr f.1.attr = .ok x ∧ Travels f.2 x (w.under f.1.wire)
  := by
  cases h with
  | leaf fits => contradiction
  | null => contradiction
  | @part _ _ _ attrs pairs offered names h =>
    refine ⟨(attrs.lookup f.1.attr).getD .null, ?_, ?_⟩
    · have hdeclared := hpart.declared f hf
      rw [Value.attr]
      cases attrs.lookup f.1.attr <;> simp [hdeclared]
    · rw [Value.under_object]
      exact h f hf

/-- A record that travels, with an attribute set along with its field. -/
theorem setAttr {required : Bool} {kind : Kind} {fields : List (Slot × Shape)} {r w : Value}
    (hpart : RegularPart kind fields) (h : Travels (.part required kind fields) r w)
    (hgiven : r ≠ .null) {f : Slot × Shape} (hf : f ∈ fields) {x y : Value}
    (hxy : Travels f.2 x y) :
  Travels (.part required kind fields) (r.setAttr f.1.attr x) (w.setEntry f.1.wire y)
  := by
  cases h with
  | leaf fits => contradiction
  | null => contradiction
  | @part _ _ _ attrs pairs offered names h =>
    have hmem : f.1.wire ∈ pairs.map Prod.fst := by
      rw [names]
      exact List.mem_map_of_mem hf
    rw [Value.setEntry_object]
    refine .part ?_ ?_ ?_
    · intro name hname
      have hne : (name == f.1.attr) = false := by
        have hnot := hpart.apart f.1.attr (hpart.declared f hf)
        simpa using fun heq : name = f.1.attr => hnot (heq ▸ hname)
      rw [Assoc.lookup_insert, hne]
      exact offered name hname
    · rw [Assoc.map_fst_insert_of_mem y hmem]
      exact names
    · intro g hg
      rw [Assoc.lookup_insert, Assoc.lookup_insert]
      by_cases heq : g = f
      · subst heq
        simpa using hxy
      · have hattr : (g.1.attr == f.1.attr) = false := by
          simpa using fun h => heq (eq_of_attr_eq hpart.attrNames_nodup hg hf h)
        have hwire : (g.1.wire == f.1.wire) = false := by
          simpa using fun h => heq (eq_of_wire_eq hpart.wires_nodup hg hf h)
        rw [hattr, hwire]
        exact h g hg

/-- A part that travels has all of its operations. -/
theorem offers {required : Bool} {kind : Kind} {fields : List (Slot × Shape)} {r w : Value}
    (h : Travels (.part required kind fields) r w) (hgiven : r ≠ .null) {name : String}
    (hname : name ∈ kind.operations) :
  r.offers name = .ok kind
  := by
  cases h with
  | leaf fits => contradiction
  | null => contradiction
  | @part _ _ _ attrs pairs offered names h =>
    simp [Value.offers, hname, offered name hname]

/-- What is null travels as null, and nothing else does. -/
theorem eq_null_iff {shape : Shape} {r w : Value} (h : Travels shape r w) :
  r = .null ↔ w = .null
  := by
  cases h with
  | leaf fits => rfl
  | null => simp
  | part offered names h => simp [Value.object]

end Travels

end Shape

/-! ### The fields of the catalogue -/

namespace Schema

/-- The field of a schema that travels under a name. -/
def field? (schema : Schema) (wire : String) : Option (Slot × Shape) :=
  schema.fields.find? fun f => f.1.wire == wire

/-- What a schema has under a name is one of its fields. -/
theorem mem_fields (schema : Schema) (wire : String) {attr : String} {shape : Shape}
    (h : schema.field? wire = some (⟨wire, attr⟩, shape)) :
  (⟨wire, attr⟩, shape) ∈ schema.fields
  := List.mem_of_find?_eq_some h

end Schema

open Shape

theorem regularPart_spec :
  RegularPart .spec Schema.spec.fields
  := regularPart (regular_spec true)

/-- A field of a spec is the only one with its attribute. -/
theorem spec_field_unique {f g : Slot × Shape} (hf : f ∈ Schema.spec.fields)
    (hg : g ∈ Schema.spec.fields) (h : f.1.attr = g.1.attr) :
  f = g
  := eq_of_attr_eq regularPart_spec.attrNames_nodup hf hg h

theorem regularPart_ingress :
  RegularPart .ingress Schema.ingress.fields
  := regularPart (regularPart_spec.fields_regular _ (Schema.spec.mem_fields "ingress" rfl))

theorem regularPart_fileStore :
  RegularPart .fileStore Schema.fileStore.fields
  := regularPart (regularPart_spec.fields_regular _ (Schema.spec.mem_fields "fileStore" rfl))

theorem regularPart_managedFileStore :
  RegularPart .managedFileStore Schema.managedFileStore.fields
  := regularPart
    (regularPart_fileStore.fields_regular _ (Schema.fileStore.mem_fields "operatorManaged" rfl))

theorem regularPart_database :
  RegularPart .database Schema.database.fields
  := regularPart (regularPart_spec.fields_regular _ (Schema.spec.mem_fields "database" rfl))

theorem regularPart_managedDatabase :
  RegularPart .managedDatabase Schema.managedDatabase.fields
  := regularPart
    (regularPart_database.fields_regular _ (Schema.database.mem_fields "operatorManaged" rfl))

end Installation

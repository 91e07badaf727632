import Installation.Proofs.Schema.Growth
import Installation.Proofs.Schema.Held
import Installation.Schema.Dump

/-!
# Reading what was dumped

The dump of what a record holds can be read, whatever it holds in the places of its fields:
values that are not of the shape of their field are converted to it, and what is left of the
dump without its nulls is read as data that is the same up to nulls, `dump_rereads`.  The parts
of a spec that are required are never null in a dump that is to be read, and no others are:
`Shape.lenient`.
-/

namespace Installation

open Value

namespace Shape

/-! ### The dump of a part -/

/-- The part of a value under the name of an attribute, null where there is none. -/
def partOr (name : String) (v : Value) : Value := (v.part? name).getD .null

@[simp]
theorem partOr_record (name : String) (kind : Kind) (attrs : List (String × Value)) :
  partOr name (.record kind attrs) = attrIn name attrs
  := by
  rw [partOr, Value.part?, attrIn]
  cases attrs.lookup name with
  | some v => rfl
  | none =>
    simp only
    split <;> rfl

/-- The part of what is held in the place of a field. -/
theorem Held.partOr {required : Bool} {kind : Kind} {fields : List (Slot × Shape)} {v : Value}
    (h : Held (.part required kind fields) v) {f : Slot × Shape} (hf : f ∈ fields) :
  Held f.2 (partOr f.1.attr v)
  := by
  cases h with
  | json h =>
    cases v with
    | record kind attrs => contradiction
    | dict entries => exact .json (h.under f.1.attr)
    | _ => exact held_null f.2
  | record h =>
    rw [partOr_record]
    exact h f hf

@[simp]
theorem dump_null (shape : Shape) :
  shape.dump .null = .ok .null
  := by
  cases shape <;> rfl

/-- The dump of a record, from the dumps of its attributes. -/
theorem dump_record (required : Bool) {kind : Kind} {fields : List (Slot × Shape)}
    {attrs : List (String × Value)} (hdeclared : ∀ f ∈ fields, f.1.attr ∈ kind.declared)
    {data : Slot × Shape → Value}
    (h : ∀ f ∈ fields, f.2.dump (attrIn f.1.attr attrs) = .ok (data f)) :
  dump (.part required kind fields) (.record kind attrs) =
    .ok (object (fields.map fun f => (f.1.wire, data f)))
  := by
  have hfields : dumpFields fields (.record kind attrs) =
      .ok (named (fields.map fun f => (f.1.wire, data f))) := by
    induction fields with
    | nil => rfl
    | cons f fields ih =>
      rw [List.forall_mem_cons] at hdeclared h
      have hfound : (Value.record kind attrs).part? f.1.attr = some (attrIn f.1.attr attrs) := by
        rw [Value.part?, attrIn]
        cases attrs.lookup f.1.attr <;> simp [hdeclared.1]
      rw [dumpFields, hfound]
      simp only
      rw [h.1, ih hdeclared.2 h.2]
      rfl
  change (dumpFields fields (.record kind attrs)).map Value.dict = _
  rw [hfields]
  rfl

/-- Records are dumped as data that is related field by field, if their attributes are. -/
theorem exists_dump_records (required : Bool) {kind : Kind} {fields : List (Slot × Shape)}
    {attrs others : List (String × Value)} (hpart : RegularPart kind fields)
    {rel : Slot × Shape → Value → Value → Prop}
    (h : ∀ f ∈ fields, ∃ x y, f.2.dump (attrIn f.1.attr attrs) = .ok x ∧
      f.2.dump (attrIn f.1.attr others) = .ok y ∧ x.IsJson ∧ y.IsJson ∧ rel f x y) :
  ∃ data data' : Slot × Shape → Value,
    dump (.part required kind fields) (.record kind attrs) =
      .ok (object (fields.map fun f => (f.1.wire, data f))) ∧
    dump (.part required kind fields) (.record kind others) =
      .ok (object (fields.map fun f => (f.1.wire, data' f))) ∧
    (object (fields.map fun f => (f.1.wire, data f))).IsJson ∧
    (object (fields.map fun f => (f.1.wire, data' f))).IsJson ∧
    ∀ f ∈ fields, rel f (data f) (data' f)
  := by
  choose! data data' hdata hdata' hjson hjson' hrel using h
  have hobject {d : Slot × Shape → Value} (hd : ∀ f ∈ fields, (d f).IsJson) :
      (object (fields.map fun f => (f.1.wire, d f))).IsJson := by
    rw [isJson_object, List.map_map, List.forall_mem_map]
    exact ⟨hpart.wires_nodup, hd⟩
  exact ⟨data, data', dump_record required hpart.declared hdata,
    dump_record required hpart.declared hdata', hobject hjson, hobject hjson', hrel⟩

/-- The dump of the fields of a part has entries for some of them, and those of the others are
null. -/
theorem exists_of_dumpFields {fields : List (Slot × Shape)} (distinct : (wires fields).Nodup)
    {v : Value} {es : List (Key × Value)} (h : dumpFields fields v = .ok es) :
  ∃ pairs, es = named pairs ∧ (pairs.map Prod.fst).Sublist (wires fields) ∧
    ∀ f ∈ fields, f.2.dump (partOr f.1.attr v) = .ok ((pairs.lookup f.1.wire).getD .null)
  := by
  induction fields generalizing es with
  | nil => exact ⟨[], (Except.ok.inj h).symm, .slnil, by simp⟩
  | cons field fields ih =>
    obtain ⟨slot, shape⟩ := field
    obtain ⟨hnew, hrest⟩ := List.nodup_cons.mp distinct
    rw [dumpFields] at h
    cases hpart : v.part? slot.attr with
    | none =>
      rw [hpart] at h
      obtain ⟨pairs, rfl, hsub, hdump⟩ := ih hrest h
      have hnone : pairs.lookup slot.wire = none :=
        Assoc.lookup_eq_none.mpr fun hmem => hnew (hsub.subset hmem)
      refine ⟨pairs, rfl, hsub.cons _, ?_⟩
      rw [List.forall_mem_cons]
      refine ⟨?_, hdump⟩
      simp only [partOr, hpart, hnone, Option.getD_none, dump_null]
    | some x =>
      rw [hpart] at h
      simp only [bind, Except.bind] at h
      cases hx : shape.dump x with
      | error fault => simp [hx] at h
      | ok y =>
        cases hes : dumpFields fields v with
        | error fault => simp [hx, hes] at h
        | ok es' =>
          rw [hx, hes] at h
          obtain rfl := Except.ok.inj h
          obtain ⟨pairs, rfl, hsub, hdump⟩ := ih hrest hes
          refine ⟨(slot.wire, y) :: pairs, rfl, hsub.cons_cons _, ?_⟩
          rw [List.forall_mem_cons]
          constructor
          · simpa [partOr, hpart] using hx
          · intro f hf
            have hne : f.1.wire ≠ slot.wire := by
              intro heq
              exact hnew (List.mem_map.mpr ⟨f, hf, heq⟩)
            rw [List.lookup_cons, beq_eq_false_iff_ne.mpr hne]
            exact hdump f hf

section Part

variable {required : Bool} {kind : Kind} {fields : List (Slot × Shape)} {v w : Value}

/-- The dump of a part that is not null. -/
theorem exists_of_dump_part (hpart : RegularPart kind fields) (hgiven : v ≠ .null)
    (h : dump (.part required kind fields) v = .ok w) :
  ∃ pairs, w = object pairs ∧ (pairs.map Prod.fst).Sublist (wires fields) ∧
    ∀ f ∈ fields, f.2.dump (partOr f.1.attr v) = .ok ((pairs.lookup f.1.wire).getD .null)
  := by
  rw [dump] at h
  · cases hes : dumpFields fields v with
    | error fault => simp [hes, Except.map] at h
    | ok es =>
      rw [hes] at h
      obtain rfl := Except.ok.inj h
      obtain ⟨pairs, rfl, hsub, hdump⟩ := exists_of_dumpFields hpart.wires_nodup hes
      exact ⟨pairs, rfl, hsub, hdump⟩
  · exact hgiven

/-- What the dump of a part has under the name of a field. -/
theorem dump_under (hpart : RegularPart kind fields)
    (h : dump (.part required kind fields) v = .ok w) {f : Slot × Shape} (hf : f ∈ fields) :
  f.2.dump (partOr f.1.attr v) = .ok (w.under f.1.wire)
  := by
  by_cases hnull : v = .null
  · subst hnull
    obtain rfl := Except.ok.inj h
    exact dump_null f.2
  · obtain ⟨pairs, rfl, -, hdump⟩ := exists_of_dump_part hpart hnull h
    rw [under_object]
    exact hdump f hf

end Part

/-- A map of JSON data can be dumped if it is one. -/
theorem exists_of_dumpMap {raw : Bool} {v w : Value} (hv : v.IsJson)
    (h : dumpMap raw v = .ok w) :
  ∃ pairs, v = object pairs ∧ (pairs.map Prod.fst).Nodup ∧
    w = object (pairs.map fun p => (p.1, if raw then p.2 else dumpText p.2))
  := by
  cases v with
  | dict entries =>
    obtain ⟨pairs, rfl⟩ := hv.exists_object
    obtain ⟨distinct, -⟩ := (isJson_object pairs).mp hv
    rw [← object, dumpMap_object raw distinct] at h
    exact ⟨pairs, rfl, distinct, (Except.ok.inj h).symm⟩
  | text s | list vs =>
    simp only [dumpMap, elements, bind, Except.bind] at h
    split at h
    · contradiction
    · contradiction
  | _ => contradiction

/-- What a dump is of a field without fields of its own, when it is not null: a text, an
integer, a boolean, or a map. -/
theorem exists_of_dump_leaf {shape : Shape} (hleaf : shape.isPart = false) {v w : Value}
    (hv : v.IsJson) (hgiven : v ≠ .null) (h : shape.dump v = .ok w) :
  shape = .text ∧ w = .text v.toText ∨ shape = .integer ∧ (∃ i, w = .int i) ∨
    shape = .boolean ∧ w = dumpBoolean v ∨
    ∃ raw pairs, (∀ x, x ≠ .null → shape.load x = loadMap raw x) ∧ v = object pairs ∧
      (pairs.map Prod.fst).Nodup ∧
      w = object (pairs.map fun p => (p.1, if raw then p.2 else dumpText p.2))
  := by
  cases shape with
  | text =>
    rw [dump] at h
    · obtain rfl := Except.ok.inj h
      refine .inl ⟨rfl, ?_⟩
      rw [dumpText]
      exact hgiven
    · exact hgiven
  | integer =>
    rw [dump] at h
    · cases hi : v.toInteger with
      | error fault => simp [hi, Except.map] at h
      | ok i =>
        rw [hi] at h
        exact .inr (.inl ⟨rfl, i, (Except.ok.inj h).symm⟩)
    · exact hgiven
  | boolean =>
    rw [dump] at h
    · exact .inr (.inr (.inl ⟨rfl, (Except.ok.inj h).symm⟩))
    · exact hgiven
  | textMap =>
    rw [dump] at h
    · obtain ⟨pairs, hpairs, distinct, hw⟩ := exists_of_dumpMap hv h
      exact .inr (.inr (.inr ⟨false, pairs, fun x hx => by rw [load]; exact hx, hpairs, distinct,
        hw⟩))
    · exact hgiven
  | rawMap =>
    rw [dump] at h
    · obtain ⟨pairs, hpairs, distinct, hw⟩ := exists_of_dumpMap hv h
      exact .inr (.inr (.inr ⟨true, pairs, fun x hx => by rw [load]; exact hx, hpairs, distinct,
        hw⟩))
    · exact hgiven
  | part required kind fields => contradiction

/-- Only null is dumped as null. -/
theorem ne_null_of_dump {shape : Shape} (hregular : shape.regular) {v w : Value}
    (hv : Held shape v) (hgiven : v ≠ .null) (h : shape.dump v = .ok w) :
  w ≠ .null
  := by
  by_cases hleaf : shape.isPart = false
  · obtain ⟨-, rfl⟩ | ⟨-, i, rfl⟩ | ⟨-, rfl⟩ | ⟨raw, pairs, -, -, -, rfl⟩ :=
      exists_of_dump_leaf hleaf (hv.isJson hleaf) hgiven h
    all_goals simp [dumpBoolean, object]
  · cases shape with
    | part required kind fields =>
      obtain ⟨pairs, rfl, -⟩ := exists_of_dump_part (regularPart hregular) hgiven h
      simp [object]
    | _ => contradiction

/-- The text of a value of a map travels. -/
theorem isJson_dumpText (v : Value) :
  (dumpText v).IsJson
  := by
  cases v <;> trivial

/-- The dump of a part travels if those of its fields do. -/
theorem dump_part_isJson {required : Bool} {kind : Kind} {fields : List (Slot × Shape)}
    (hpart : RegularPart kind fields) {v w : Value}
    (h : dump (.part required kind fields) v = .ok w)
    (hfields : ∀ f ∈ fields, ∀ x, f.2.dump (partOr f.1.attr v) = .ok x → x.IsJson) :
  w.IsJson
  := by
  by_cases hnull : v = .null
  · subst hnull
    obtain rfl := Except.ok.inj h
    trivial
  · obtain ⟨pairs, rfl, hsub, hdump⟩ := exists_of_dump_part hpart hnull h
    have distinct : (pairs.map Prod.fst).Nodup := hpart.wires_nodup.sublist hsub
    refine (isJson_object pairs).mpr ⟨distinct, fun p hp => ?_⟩
    obtain ⟨f, hf, heq⟩ := List.mem_map.mp (hsub.subset (List.mem_map_of_mem hp))
    have hfield := hdump f hf
    rw [heq, Assoc.lookup_of_mem distinct hp] at hfield
    exact hfields f hf p.2 hfield

/-- The dump of what is held travels. -/
theorem dump_isJson {shape : Shape} (hregular : shape.regular) {v w : Value} (hv : Held shape v)
    (h : shape.dump v = .ok w) :
  w.IsJson
  := by
  induction shape using shapeInduction generalizing v w with
  | onLeaf shape hleaf =>
    by_cases hnull : v = .null
    · subst hnull
      rw [dump_null] at h
      obtain rfl := Except.ok.inj h
      trivial
    · have hjson := hv.isJson hleaf
      obtain ⟨-, rfl⟩ | ⟨-, i, rfl⟩ | ⟨-, rfl⟩ | ⟨raw, pairs, -, rfl, distinct, rfl⟩ :=
        exists_of_dump_leaf hleaf hjson hnull h
      · trivial
      · trivial
      · trivial
      · obtain ⟨-, hpairs⟩ := (isJson_object pairs).mp hjson
        rw [isJson_object, List.map_map]
        refine ⟨distinct, fun q hq => ?_⟩
        obtain ⟨p, hp, rfl⟩ := List.mem_map.mp hq
        cases raw with
        | true => exact hpairs p hp
        | false => exact isJson_dumpText p.2
  | onPart required kind fields ih =>
    have hpart := regularPart hregular
    exact dump_part_isJson hpart h fun f hf x =>
      ih f hf (hpart.fields_regular f hf) (hv.partOr hf)

/-! ### Reading a dump -/

/-- Whether what is left of data without its nulls is read as the data, up to nulls. -/
def Rereads (shape : Shape) (w : Value) : Prop :=
  ReadsAs shape (if w.isNull then none else some w.dropNulls) w

theorem rereads_of_readsAs {shape : Shape} {w : Value} (hgiven : w ≠ .null)
    (h : ReadsAs shape (some w.dropNulls) w) :
  Rereads shape w
  := by
  rw [Rereads, if_neg (mt isNull_iff.mp hgiven)]
  exact h

mutual

/-- Whether no part in a shape is required. -/
def lenient : Shape → Bool
  | .part required _ fields => !required && lenientFields fields
  | _ => true

/-- Whether the shapes of all fields are lenient. -/
def lenientFields : List (Slot × Shape) → Bool
  | [] => true
  | (_, shape) :: fields => lenient shape && lenientFields fields

end

theorem lenientFields_iff {fields : List (Slot × Shape)} :
  lenientFields fields ↔ ∀ f ∈ fields, lenient f.2
  := by
  induction fields with
  | nil => simp [lenientFields]
  | cons f fields ih =>
    rw [lenientFields, Bool.and_eq_true, ih, List.forall_mem_cons]

/-- What is null may be left out, unless it is required. -/
theorem rereads_null {shape : Shape} (hlenient : shape.lenient) :
  Rereads shape .null
  := by
  cases shape with
  | part required kind fields =>
    cases required with
    | true => simp [lenient] at hlenient
    | false => exact ⟨by simp [isNull], .null, .null, rfl, .null, rfl⟩
  | _ => exact ⟨by simp [isNull], .null, .null, rfl, .leaf (.inl rfl), rfl⟩

/-- Values of a map that were dumped, without their nulls, can be read. -/
theorem loadMap_dumped (raw : Bool) (pairs : List (String × Value)) :
  loadMap raw (object (pairs.map fun p => (p.1, if raw then p.2 else dumpText p.2))).dropNulls =
    .ok (object (pairs.map fun p => (p.1, if raw then p.2 else dumpText p.2))).dropNulls
  := by
  rw [dropNulls_object, loadMap_object]
  refine ⟨rfl, ?_⟩
  rintro ⟨name, w⟩ hp
  obtain ⟨x, hx, hgiven, rfl⟩ := mem_dropNullPairs.mp hp
  obtain ⟨p, -, heq⟩ := List.mem_map.mp hx
  cases raw with
  | true =>
    have hkept : x.dropNulls ≠ .null := mt dropNulls_eq_null.mp hgiven
    revert hkept
    cases x.dropNulls <;> simp [valueComplaint?]
  | false =>
    obtain rfl := (Prod.mk.inj heq).2
    generalize p.2 = y at hgiven ⊢
    cases y with
    | null => simp [dumpText] at hgiven
    | _ => simp [dumpText, valueComplaint?]

/-- The dump of a field without fields of its own can be read. -/
theorem leaf_rereads {shape : Shape} (hleaf : shape.isPart = false) {v w : Value}
    (hv : Held shape v) (hgiven : v ≠ .null) (h : shape.dump v = .ok w) :
  ReadsAs shape (some w.dropNulls) w
  := by
  have hjson := hv.isJson hleaf
  have hregular : shape.regular := by
    cases shape with
    | part required kind fields => contradiction
    | _ => rfl
  have hw := dump_isJson hregular hv h
  apply kept_readsAs hleaf hw.dropNulls _ (dropNulls_dropNulls hw)
  obtain ⟨rfl, rfl⟩ | ⟨rfl, i, rfl⟩ | ⟨rfl, rfl⟩ | ⟨raw, pairs, hload, rfl, -, rfl⟩ :=
    exists_of_dump_leaf hleaf hjson hgiven h
  · simp [load, loadText]
  · rfl
  · rw [dumpBoolean]
    cases v.truth?.getD v.truthy <;> rfl
  · rw [hload, loadMap_dumped]
    rw [dropNulls_object]
    simp [object]

/-- Data is read as all data that differs from it in no more than nulls. -/
theorem ReadsAs.congr {shape : Shape} {found : Option Value} {w w' : Value}
    (h : ReadsAs shape found w) (heq : w.dropNulls = w'.dropNulls) :
  ReadsAs shape found w'
  := by
  obtain ⟨hinert, r, data, hload, htravels, hdata⟩ := h
  exact ⟨hinert, r, data, hload, htravels, hdata.trans heq⟩

/-- The dump of a part can be read when the dumps of its fields can. -/
theorem part_rereads {required : Bool} {kind : Kind} {fields : List (Slot × Shape)} {v w : Value}
    (hpart : RegularPart kind fields) (hgiven : v ≠ .null)
    (h : dump (.part required kind fields) v = .ok w)
    (hfields : ∀ f ∈ fields, ∀ x, f.2.dump (partOr f.1.attr v) = .ok x → Rereads f.2 x) :
  ReadsAs (.part required kind fields) (some w.dropNulls) w
  := by
  obtain ⟨pairs, rfl, hsub, hdump⟩ := exists_of_dump_part hpart hgiven h
  have hcomplete := dropNulls_complete hpart.wires_nodup hsub
  rw [wires, List.map_map] at hcomplete
  have hnames : (fields.map fun f => (f.1.wire, (pairs.lookup f.1.wire).getD .null)).map
      Prod.fst = wires fields := by
    rw [List.map_map]
    rfl
  have hread := @object_readsAs required _ _ _ hpart hnames fun f hf => by
    rw [lookup_wires hpart.wires_nodup _ hf]
    exact hfields f hf _ (hdump f hf)
  change (object (fields.map fun f => (f.1.wire, (pairs.lookup f.1.wire).getD .null))).dropNulls
    = _ at hcomplete
  rw [hcomplete] at hread
  exact hread.congr hcomplete

/-- The dump of what is held can be read, where no part is required. -/
theorem dump_rereads {shape : Shape} (hregular : shape.regular) (hlenient : shape.lenient)
    {v w : Value} (hv : Held shape v) (h : shape.dump v = .ok w) :
  Rereads shape w
  := by
  induction shape using shapeInduction generalizing v w with
  | onLeaf shape hleaf =>
    by_cases hnull : v = .null
    · subst hnull
      rw [dump_null] at h
      obtain rfl := Except.ok.inj h
      exact rereads_null hlenient
    · exact rereads_of_readsAs (ne_null_of_dump hregular hv hnull h)
        (leaf_rereads hleaf hv hnull h)
  | onPart required kind fields ih =>
    have hpart := regularPart hregular
    by_cases hnull : v = .null
    · subst hnull
      obtain rfl := Except.ok.inj h
      exact rereads_null hlenient
    · apply rereads_of_readsAs (ne_null_of_dump hregular hv hnull h)
      apply part_rereads hpart hnull h
      intro f hf x hx
      rw [lenient, Bool.and_eq_true, lenientFields_iff] at hlenient
      exact ih f hf (hpart.fields_regular f hf) (hlenient.2 f hf) (hv.partOr hf) hx

end Shape

end Installation

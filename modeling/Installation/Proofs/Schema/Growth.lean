import Installation.Proofs.Schema.Load
import Installation.Proofs.Value.Same
import Mathlib.Data.List.Perm.Subperm

/-!
# Data that grows

Data grows when texts are put into gaps and optional parts are put in: `Shape.Grows`.  Data
that has grown is the same as before only where nothing but nulls was added: `Grows.same`.
What was read into the data, with the grown data merged in, is read as the grown data again up
to nulls: `Grows.readsAs`.
-/

namespace Installation

open Value

namespace Shape

/-! ### Growth -/

/-- What data of a field can grow to: texts may be put into gaps, and optional parts. -/
inductive Grows : Shape → Value → Value → Prop
  | same {shape : Shape} (leaf : shape.isPart = false) (v : Value) : Grows shape v v
  | text (v : Value) (s : String) (gap : v.truthy = false) : Grows .text v (.text s)
  | null {required : Bool} {kind : Kind} {fields : List (Slot × Shape)} :
    Grows (.part required kind fields) .null .null
  | added {required : Bool} {kind : Kind} {fields : List (Slot × Shape)}
    {others : List (String × Value)} (names : others.map Prod.fst = wires fields)
    (h : ∀ f ∈ fields, Grows f.2 (vacant f.2) ((others.lookup f.1.wire).getD .null)) :
    Grows (.part required kind fields) .null (object others)
  | part {required : Bool} {kind : Kind} {fields : List (Slot × Shape)}
    {pairs others : List (String × Value)} (names : pairs.map Prod.fst = wires fields)
    (names' : others.map Prod.fst = wires fields)
    (h : ∀ f ∈ fields, Grows f.2 ((pairs.lookup f.1.wire).getD .null)
      ((others.lookup f.1.wire).getD .null)) :
    Grows (.part required kind fields) (object pairs) (object others)

namespace Grows

/-- Only what was null stays null. -/
theorem eq_null {shape : Shape} {v : Value} (h : Grows shape v .null) :
  v = .null
  := by
  cases h with
  | same | null => rfl

/-- What travels has grown to itself. -/
theorem refl {shape : Shape} {r w : Value} (h : Travels shape r w) :
  Grows shape w w
  := by
  induction h with
  | @leaf shape v fits =>
    apply same
    cases shape with
    | part required kind fields => contradiction
    | _ => rfl
  | null => exact null
  | part offered names h ih => exact part names names ih

/-- What is left of a gap was a gap before. -/
theorem not_truthy {v v' : Value} (h : Grows .text v v') (hgap : v'.truthy = false) :
  v.truthy = false
  := by
  cases h with
  | same => exact hgap
  | text _ _ gap => exact gap

/-- What a part has grown to is a dictionary, if it is there. -/
theorem exists_object {required : Bool} {kind : Kind} {fields : List (Slot × Shape)}
    {w w' : Value} (h : Grows (.part required kind fields) w w') (hgiven : w' ≠ .null) :
  ∃ others, w' = object others
  := by
  cases h with
  | same leaf => contradiction
  | null => contradiction
  | added => exact ⟨_, rfl⟩
  | part => exact ⟨_, rfl⟩

/-- A part that was there has grown field by field. -/
theorem exists_objects {required : Bool} {kind : Kind} {fields : List (Slot × Shape)}
    {w w' : Value} (h : Grows (.part required kind fields) w w') (hgiven : w ≠ .null) :
  ∃ pairs others, w = object pairs ∧ w' = object others ∧ pairs.map Prod.fst = wires fields ∧
    others.map Prod.fst = wires fields ∧
    ∀ f ∈ fields, Grows f.2 ((pairs.lookup f.1.wire).getD .null)
      ((others.lookup f.1.wire).getD .null)
  := by
  cases h with
  | same leaf => contradiction
  | null => contradiction
  | added => contradiction
  | part names names' h => exact ⟨_, _, rfl, rfl, names, names', h⟩

/-- What data has grown to does not have to grow. -/
theorem right {shape : Shape} {v w : Value} (h : Grows shape v w) :
  Grows shape w w
  := by
  induction h with
  | same leaf v => exact same leaf v
  | text v s => exact same rfl (.text s)
  | null => exact null
  | added names h ih => exact part names names ih
  | part names names' h ih => exact part names' names' ih

/-- What a field of a grown part has grown to. -/
theorem under {required : Bool} {kind : Kind} {fields : List (Slot × Shape)} {w : Value}
    {others : List (String × Value)} (h : Grows (.part required kind fields) w (object others))
    {f : Slot × Shape} (hf : f ∈ fields) :
  Grows f.2 (if w.isNull then vacant f.2 else w.under f.1.wire)
    ((object others).under f.1.wire)
  := by
  rw [under_object]
  generalize hothers : object others = w' at h
  cases h with
  | same leaf => contradiction
  | null => simp [object] at hothers
  | added names h =>
    obtain rfl := object_injective hothers
    exact h f hf
  | part names names' h =>
    obtain rfl := object_injective hothers
    rw [under_object]
    exact h f hf

/-- A grown part with the entry of a field set to what the field has grown to. -/
theorem setEntry {required : Bool} {kind : Kind} {fields : List (Slot × Shape)}
    {w : Value} {others : List (String × Value)} (hpart : RegularPart kind fields)
    (h : Grows (.part required kind fields) w (object others)) {wire attr : String}
    {shape : Shape} (hf : (⟨wire, attr⟩, shape) ∈ fields) {y : Value}
    (hy : Grows shape (if w.isNull then vacant shape else w.under wire) y) :
  Grows (.part required kind fields) w ((object others).setEntry wire y)
  := by
  rw [setEntry_object]
  have hmem (ps : List (String × Value)) (names : ps.map Prod.fst = wires fields) :
      wire ∈ ps.map Prod.fst := by
    rw [names]
    exact List.mem_map_of_mem hf
  have hlookup (f : Slot × Shape) (hf' : f ∈ fields) :
      (f = (⟨wire, attr⟩, shape) ∧
        ((Assoc.insert wire y others).lookup f.1.wire).getD .null = y) ∨
      (f.1.wire == wire) = false ∧ ((Assoc.insert wire y others).lookup f.1.wire).getD .null =
        (others.lookup f.1.wire).getD .null := by
    rw [Assoc.lookup_insert]
    by_cases heq : f.1.wire = wire
    · exact .inl ⟨eq_of_wire_eq hpart.wires_nodup hf' hf heq, by simp [heq]⟩
    · have hne : (f.1.wire == wire) = false := by simpa using heq
      exact .inr ⟨hne, by simp [hne]⟩
  generalize hothers : object others = w' at h
  cases h with
  | same leaf => contradiction
  | null => simp [object] at hothers
  | added names h =>
    obtain rfl := object_injective hothers
    refine added ?_ fun f hf' => ?_
    · rw [Assoc.map_fst_insert_of_mem y (hmem _ names), names]
    · obtain ⟨rfl, hset⟩ | ⟨-, hset⟩ := hlookup f hf'
      · rw [hset]
        exact hy
      · rw [hset]
        exact h f hf'
  | part names names' h =>
    obtain rfl := object_injective hothers
    refine part names ?_ fun f hf' => ?_
    · rw [Assoc.map_fst_insert_of_mem y (hmem _ names'), names']
    · obtain ⟨rfl, hset⟩ | ⟨-, hset⟩ := hlookup f hf'
      · rw [hset]
        rw [← under_object]
        exact hy
      · rw [hset]
        exact h f hf'

/-- Data that has grown is the same as before only where no more than nulls were added. -/
theorem eq_of_same {shape : Shape} {w w' : Value} (hregular : shape.regular)
    (h : Grows shape w w') (hsame : w.dropNulls.same w'.dropNulls = true) :
  w.dropNulls = w'.dropNulls
  := by
  induction h with
  | same => rfl
  | text v s =>
    rw [dropNulls_text] at hsame ⊢
    exact same_text.mp hsame
  | null => rfl
  | added => simp [same_null_object] at hsame
  | @part required kind fields pairs others names names' h ih =>
    have hpart := regularPart hregular
    have distinct : (pairs.map Prod.fst).Nodup := names ▸ hpart.wires_nodup
    have distinct' : (others.map Prod.fst).Nodup := names' ▸ hpart.wires_nodup
    rw [dropNulls_object, dropNulls_object, same_object] at hsame
    obtain ⟨hlength, hfound⟩ := hsame
    -- the names that are left are the same, since there are as many of them on both sides
    have hsubset : (dropNullPairs pairs).map Prod.fst ⊆ (dropNullPairs others).map Prod.fst := by
      intro name hname
      obtain ⟨p, hp, rfl⟩ := List.mem_map.mp hname
      obtain ⟨v, hv, -⟩ := hfound p hp
      exact List.mem_map.mpr ⟨_, Assoc.mem_of_lookup hv, rfl⟩
    have hperm : ((dropNullPairs pairs).map Prod.fst).Perm
        ((dropNullPairs others).map Prod.fst) := by
      apply (List.subperm_of_subset (nodup_dropNullPairs distinct) hsubset).perm_of_length_le
      simp [hlength]
    apply dropNulls_object_congr distinct (names'.trans names.symm)
    intro name hname
    rw [names] at hname
    obtain ⟨f, hf, rfl⟩ := List.mem_map.mp hname
    by_cases hnull : (pairs.lookup f.1.wire).getD .null = .null
    · have hnot : f.1.wire ∉ (dropNullPairs others).map Prod.fst := by
        rw [← hperm.mem_iff, ← Assoc.lookup_eq_none, lookup_dropNullPairs distinct,
          if_pos (isNull_iff.mpr hnull)]
      rw [← Assoc.lookup_eq_none, lookup_dropNullPairs distinct'] at hnot
      have hnull' : (others.lookup f.1.wire).getD .null = .null := by
        by_contra hgiven
        simp [hgiven] at hnot
      rw [hnull, hnull']
    · have hlookup : (dropNullPairs pairs).lookup f.1.wire = _ := lookup_dropNullPairs distinct
      rw [if_neg (mt isNull_iff.mp hnull)] at hlookup
      obtain ⟨v, hv, hsame⟩ := hfound _ (Assoc.mem_of_lookup hlookup)
      rw [lookup_dropNullPairs distinct'] at hv
      split at hv
      · contradiction
      · obtain rfl := Option.some.inj hv
        exact ih f hf (hpart.fields_regular f hf) hsame

end Grows

/-! ### Reading data that has grown -/

/-- Whether what is found for a field is inert and is read as given data, up to nulls. -/
def ReadsAs (shape : Shape) (found : Option Value) (w : Value) : Prop :=
  (∀ v ∈ found, shape.inert v) ∧
    ∃ r w', loadAt shape found = .ok r ∧ Travels shape r w' ∧ w'.dropNulls = w.dropNulls

/-- A part of which each field is read as given data. -/
theorem part_readsAs {required : Bool} {kind : Kind} {fields : List (Slot × Shape)}
    {stored patch others : List (String × Value)} (hpart : RegularPart kind fields)
    (distinct : (stored.map Prod.fst).Nodup) (distinct' : (patch.map Prod.fst).Nodup)
    (hspared : ∀ p ∈ unmodelledPairs fields stored, kind.spares (.text p.1))
    (hpatch : ∀ p ∈ patch, p.1 ∈ wires fields) (names : others.map Prod.fst = wires fields)
    (h : ∀ f ∈ fields, ReadsAs f.2 ((mergePairs stored patch).lookup f.1.wire)
      ((others.lookup f.1.wire).getD .null)) :
  ReadsAs (.part required kind fields) (some ((object stored).merge (object patch)))
    (object others)
  := by
  have hmerged : ∀ p ∈ unmodelledPairs fields (mergePairs stored patch),
      kind.spares (.text p.1) := by
    intro p hp
    obtain ⟨hmem, hother⟩ := List.mem_filter.mp hp
    have hnot : p.1 ∉ wires fields := by simpa using hother
    have hname : p.1 ∈ (mergePairs stored patch).map Prod.fst := List.mem_map_of_mem hmem
    rw [map_fst_mergePairs, List.mem_append] at hname
    obtain hstored | hnew := hname
    · obtain ⟨q, hq, heq⟩ := List.mem_map.mp hstored
      rw [← heq]
      exact hspared q (List.mem_filter.mpr ⟨hq, by simpa [heq] using hnot⟩)
    · obtain ⟨q, hq, heq⟩ := List.mem_map.mp hnew
      exact absurd (heq ▸ hpatch q (List.mem_filter.mp hq).1) hnot
  rw [ReadsAs, merge_object distinct distinct']
  constructor
  · intro v hv
    obtain rfl := Option.some.inj hv
    exact inert_object.mpr ⟨hmerged, fun f hf => (h f hf).1⟩
  · have hfields : ∀ f ∈ fields, ∃ w', (∃ v,
        loadAt f.2 ((mergePairs stored patch).lookup f.1.wire) = .ok v ∧ Travels f.2 v w') ∧
        w'.dropNulls = ((others.lookup f.1.wire).getD .null).dropNulls := by
      intro f hf
      obtain ⟨r, w', hload, htravels, heq⟩ := (h f hf).2
      exact ⟨w', ⟨r, hload, htravels⟩, heq⟩
    choose! data hdata using hfields
    obtain ⟨r, hload, htravels⟩ := load_object_travels required hpart hmerged
      fun f hf => (hdata f hf).1
    refine ⟨r, _, hload, htravels, ?_⟩
    have hnames : (fields.map fun f => (f.1.wire, data f)).map Prod.fst = wires fields := by
      rw [List.map_map]
      rfl
    apply dropNulls_object_congr (hnames ▸ hpart.wires_nodup) (names.trans hnames.symm)
    intro name hname
    rw [hnames] at hname
    obtain ⟨f, hf, rfl⟩ := List.mem_map.mp hname
    rw [lookup_wires hpart.wires_nodup data hf]
    exact (hdata f hf).2

/-- A value of a map with its own data merged in is none that there are complaints about. -/
theorem valueComplaint?_merge {raw : Bool} {v : Value} (hv : v.IsJson)
    (h : valueComplaint? raw v = none) :
  valueComplaint? raw (v.merge v.dropNulls) = none
  := by
  cases raw with
  | true =>
    have hgiven {x : Value} : valueComplaint? true x = none ↔ x ≠ .null := by
      cases x <;> simp [valueComplaint?]
    rw [hgiven] at h ⊢
    intro hnull
    have hdropped := dropNulls_merge_dropNulls hv
    rw [hnull, dropNulls_null] at hdropped
    exact h (dropNulls_eq_null.mp hdropped.symm)
  | false =>
    cases v with
    | text s => simp [merge, valueComplaint?]
    | _ => simp [valueComplaint?] at h

/-- A map is read as it is with its own data merged in. -/
theorem loadMap_merge {raw : Bool} {v r : Value} (hv : v.IsJson) (h : loadMap raw v = .ok r) :
  r = v ∧ loadMap raw (v.merge v.dropNulls) = .ok (v.merge v.dropNulls)
  := by
  obtain ⟨pairs, rfl, rfl, distinct, hall⟩ := exists_of_loadMap hv h
  refine ⟨rfl, ?_⟩
  rw [merge_dropNulls_object distinct]
  refine (loadMap_object raw _).mpr ⟨rfl, ?_⟩
  intro q hq
  obtain ⟨p, hp, rfl⟩ := List.mem_map.mp hq
  exact valueComplaint?_merge (hall p hp).1 (hall p hp).2

/-- A field without fields of its own that is read as it is. -/
theorem kept_readsAs {shape : Shape} (hleaf : shape.isPart = false) {x w : Value}
    (hx : x.IsJson) (hload : shape.load x = .ok x) (hdrop : x.dropNulls = w.dropNulls) :
  ReadsAs shape (some x) w
  := by
  refine ⟨fun v _ => ?_, x, x, hload, .leaf (load_fits hleaf hx hload), hdrop⟩
  cases shape with
  | part required kind fields => contradiction
  | _ => simp [inert]

/-- A map is read as it was with its own data merged in. -/
theorem map_readsAs {shape : Shape} (hleaf : shape.isPart = false) {raw : Bool}
    (hmap : ∀ x, x ≠ .null → shape.load x = loadMap raw x) {v w : Value} (hv : v.IsJson)
    (hgiven : v ≠ .null) (hload : shape.load v = .ok w) :
  ReadsAs shape (some (v.merge w.dropNulls)) w
  := by
  rw [hmap v hgiven] at hload
  obtain ⟨rfl, hmerged⟩ := loadMap_merge hv hload
  have hsame := dropNulls_merge_dropNulls hv
  apply kept_readsAs hleaf (hv.merge hv.dropNulls) _ hsame
  rw [hmap _ _, hmerged]
  intro hnull
  rw [hnull, dropNulls_null] at hsame
  exact hgiven (dropNulls_eq_null.mp hsame.symm)

/-- A field without fields of its own is read as it was with its own data merged in. -/
theorem leaf_readsAs {shape : Shape} (hleaf : shape.isPart = false) {v w : Value}
    (hv : v.IsJson) (hload : shape.load v = .ok w) (hgiven : w ≠ .null) :
  ReadsAs shape (some (v.merge w.dropNulls)) w
  := by
  have hfits := load_fits hleaf hv hload
  have hnull : v ≠ .null := by
    rintro rfl
    rw [load_null hleaf] at hload
    exact hgiven (Except.ok.inj hload).symm
  cases shape with
  | text =>
    obtain rfl | ⟨s, rfl⟩ := hfits
    · contradiction
    · have hmerge : v.merge (Value.text s).dropNulls = .text s := by simp [merge]
      rw [hmerge]
      exact kept_readsAs hleaf trivial rfl rfl
  | integer =>
    obtain rfl | ⟨i, rfl⟩ := hfits
    · contradiction
    · have hmerge : v.merge (Value.int i).dropNulls = .int i := by simp [dropNulls, merge]
      rw [hmerge]
      exact kept_readsAs hleaf trivial rfl rfl
  | boolean =>
    obtain rfl | ⟨b, rfl⟩ := hfits
    · contradiction
    · have hmerge : v.merge (Value.bool b).dropNulls = .bool b := by simp [dropNulls, merge]
      rw [hmerge]
      exact kept_readsAs hleaf trivial (by cases b <;> rfl) rfl
  | textMap => exact map_readsAs hleaf (fun x hx => by rw [load]; exact hx) hv hnull hload
  | rawMap => exact map_readsAs hleaf (fun x hx => by rw [load]; exact hx) hv hnull hload
  | part required kind fields => contradiction

/-- A record travels as one data. -/
theorem Travels.unique {shape : Shape} {r w w' : Value} (hregular : shape.regular)
    (h : Travels shape r w) (h' : Travels shape r w') :
  w = w'
  := by
  have hdump := h.dump hregular
  rw [h'.dump hregular] at hdump
  exact (Except.ok.inj hdump).symm

/-- A part is read from null, or from a dictionary as a record. -/
theorem load_part_cases {required : Bool} {kind : Kind} {fields : List (Slot × Shape)}
    {v r : Value} (hpart : RegularPart kind fields) (hjson : v.IsJson)
    (hinert : inert (.part required kind fields) v)
    (hload : load (.part required kind fields) v = .ok r) :
  v = .null ∧ r = .null ∨ ∃ stored attrs, v = object stored ∧ r = .record kind attrs
  := by
  cases v with
  | null =>
    cases required with
    | false => exact .inl ⟨rfl, (Except.ok.inj hload).symm⟩
    | true => simp [load] at hload
  | dict es =>
    obtain ⟨stored, rfl⟩ := hjson.exists_object
    obtain ⟨hspared, -⟩ := inert_object.mp hinert
    have hfields := exists_of_load_object hload
    choose! value hvalue using hfields
    obtain ⟨attrs, hrecord, -⟩ := load_object_ok required hpart hspared hvalue
    exact .inr ⟨stored, attrs, rfl, Except.ok.inj (hload.symm.trans hrecord)⟩
  | _ => simp [load] at hload

/-- What the fields of a part that was read give, and the data that they travel as. -/
theorem exists_of_load_travels {required : Bool} {kind : Kind} {fields : List (Slot × Shape)}
    {stored : List (String × Value)} {r w : Value}
    (hregular : regular (.part required kind fields)) (hjson : (object stored).IsJson)
    (hinert : inert (.part required kind fields) (object stored))
    (hload : load (.part required kind fields) (object stored) = .ok r)
    (h : Travels (.part required kind fields) r w) :
  ∀ f ∈ fields, ∃ v, loadAt f.2 (stored.lookup f.1.wire) = .ok v ∧
    Travels f.2 v (w.under f.1.wire)
  := by
  have hpart := regularPart hregular
  obtain ⟨-, hstored⟩ := (isJson_object stored).mp hjson
  obtain ⟨hspared, hfields⟩ := inert_object.mp hinert
  obtain ⟨data, h', hdata⟩ := exists_data_of_load hpart hspared
    (fun f hf v x hfound => load_travels (hpart.fields_regular f hf)
      (hstored (f.1.wire, v) (Assoc.mem_of_lookup hfound)) (hfields f hf v hfound)) hload
  obtain rfl := h'.unique hregular h
  intro f hf
  rw [under_object, lookup_wires hpart.wires_nodup data hf]
  exact hdata f hf

/-- A part that was read, with a patch merged in after which each field is read as given
data. -/
theorem patched_readsAs {required : Bool} {kind : Kind} {fields : List (Slot × Shape)}
    {stored patch pairs others : List (String × Value)} {r : Value}
    (hregular : regular (.part required kind fields)) (hjson : (object stored).IsJson)
    (hinert : inert (.part required kind fields) (object stored))
    (hload : load (.part required kind fields) (object stored) = .ok r)
    (ht : Travels (.part required kind fields) r (object pairs))
    (distinct : (patch.map Prod.fst).Nodup) (hpatch : ∀ p ∈ patch, p.1 ∈ wires fields)
    (names : others.map Prod.fst = wires fields)
    (h : ∀ f ∈ fields, ∀ x, loadAt f.2 (stored.lookup f.1.wire) = .ok x →
      Travels f.2 x ((pairs.lookup f.1.wire).getD .null) →
      (∀ v ∈ stored.lookup f.1.wire, v.IsJson) → (∀ v ∈ stored.lookup f.1.wire, f.2.inert v) →
      ReadsAs f.2
        (match patch.lookup f.1.wire with
          | some v => some (mergeInto (stored.lookup f.1.wire) v)
          | none => stored.lookup f.1.wire)
        ((others.lookup f.1.wire).getD .null)) :
  ReadsAs (.part required kind fields) (some ((object stored).merge (object patch)))
    (object others)
  := by
  obtain ⟨distinct', hstored⟩ := (isJson_object stored).mp hjson
  obtain ⟨hspared, hfields⟩ := inert_object.mp hinert
  have hread := exists_of_load_travels hregular hjson hinert hload ht
  apply part_readsAs (regularPart hregular) distinct' distinct hspared hpatch names
  intro f hf
  obtain ⟨x, hx, htravels⟩ := hread f hf
  rw [under_object] at htravels
  rw [lookup_mergePairs_eq]
  exact h f hf x hx htravels
    (fun v hv => hstored (f.1.wire, v) (Assoc.mem_of_lookup hv)) (hfields f hf)

/-- What is left of the data of a part without its nulls is read as the data, where this holds
of each of its fields. -/
theorem object_readsAs {required : Bool} {kind : Kind} {fields : List (Slot × Shape)}
    {others : List (String × Value)} (hpart : RegularPart kind fields)
    (names : others.map Prod.fst = wires fields)
    (h : ∀ f ∈ fields, ReadsAs f.2
      (if ((others.lookup f.1.wire).getD .null).isNull then none
        else some ((others.lookup f.1.wire).getD .null).dropNulls)
      ((others.lookup f.1.wire).getD .null)) :
  ReadsAs (.part required kind fields) (some (object others).dropNulls) (object others)
  := by
  have distinct : (others.map Prod.fst).Nodup := names ▸ hpart.wires_nodup
  have hmerge : (object others).dropNulls = (object []).merge (object (dropNullPairs others)) := by
    rw [merge_object (by simp) (nodup_dropNullPairs distinct), dropNulls_object]
    simp [mergePairs]
  rw [hmerge]
  apply part_readsAs hpart (by simp) (nodup_dropNullPairs distinct)
  · simp [unmodelledPairs]
  · intro p hp
    rw [← names]
    exact (map_fst_dropNullPairs_sublist others).subset (List.mem_map_of_mem hp)
  · exact names
  · intro f hf
    rw [lookup_mergePairs, List.lookup_nil]
    simp only
    rw [lookup_dropNullPairs distinct]
    exact h f hf

/-- A part that is put in where nothing was is read as it was put in. -/
theorem fresh_readsAs {required : Bool} {kind : Kind} {fields : List (Slot × Shape)}
    {others : List (String × Value)} (hpart : RegularPart kind fields)
    (names : others.map Prod.fst = wires fields)
    (h : ∀ f ∈ fields, Grows f.2 (vacant f.2) ((others.lookup f.1.wire).getD .null))
    (hread : ∀ f ∈ fields, (others.lookup f.1.wire).getD .null ≠ .null →
      ReadsAs f.2 (some ((others.lookup f.1.wire).getD .null).dropNulls)
        ((others.lookup f.1.wire).getD .null)) :
  ReadsAs (.part required kind fields) (some (object others).dropNulls) (object others)
  := by
  apply object_readsAs hpart names
  intro f hf
  split
  · rename_i hnull
    have hvacant := h f hf
    rw [isNull_iff] at hnull
    rw [hnull] at hvacant ⊢
    exact ⟨by simp, _, _, rfl, travels_absent (hpart.fields_regular f hf),
      by rw [hvacant.eq_null]⟩
  · rename_i hnull
    exact hread f hf (mt isNull_iff.mpr hnull)

/-- Where nothing is stored, the fields of a part are vacant. -/
theorem lookup_of_absent {required : Bool} {kind : Kind} {fields : List (Slot × Shape)}
    {pairs : List (String × Value)} (hregular : regular (.part required kind fields))
    (h : Travels (.part required kind fields) (absent (.part required kind fields))
      (object pairs)) {f : Slot × Shape} (hf : f ∈ fields) :
  (pairs.lookup f.1.wire).getD .null = vacant f.2
  := by
  have hvacant := h.unique hregular (travels_absent hregular)
  cases required with
  | false => simp [vacant, object] at hvacant
  | true =>
    rw [vacant, vacantPairs_eq] at hvacant
    rw [object_injective hvacant, lookup_wires (regularPart hregular).wires_nodup _ hf]
    rfl

/-- What was read, with data merged in that it has grown to, is read as that data. -/
theorem Grows.readsAs {shape : Shape} {found : Option Value} {r w w' : Value}
    (hregular : shape.regular) (hjson : ∀ v ∈ found, v.IsJson)
    (hinert : ∀ v ∈ found, shape.inert v) (hload : loadAt shape found = .ok r)
    (ht : Travels shape r w) (h : Grows shape w w') (hgiven : w' ≠ .null) :
  ReadsAs shape (some (mergeInto found w'.dropNulls)) w'
  := by
  induction h generalizing found r with
  | @same shape leaf v =>
    obtain rfl : r = v := by
      cases ht with
      | leaf => rfl
      | null => contradiction
      | part => contradiction
    cases found with
    | none =>
      have habsent : shape.absent = .null := by
        cases shape with
        | part required kind fields => contradiction
        | _ => rfl
      exact absurd (habsent ▸ Except.ok.inj hload).symm hgiven
    | some v => exact leaf_readsAs leaf (hjson v rfl) hload hgiven
  | text v s =>
    have hmerge : mergeInto found (Value.text s).dropNulls = .text s := by
      rw [dropNulls_text]
      cases found with
      | none => rfl
      | some v => simp [mergeInto, merge]
    rw [hmerge]
    exact ⟨by simp [inert], _, _, rfl, .leaf (.inr ⟨s, rfl⟩), rfl⟩
  | null => contradiction
  | @added required kind fields others names h ih =>
    have hpart := regularPart hregular
    obtain rfl := ht.eq_null_iff.mpr rfl
    have hnull : ∀ v ∈ found, v = .null := by
      rintro v rfl
      obtain ⟨hv, -⟩ | ⟨stored, attrs, -, hrecord⟩ :=
        load_part_cases hpart (hjson v rfl) (hinert v rfl) hload
      · exact hv
      · contradiction
    rw [mergeInto_of_null hnull]
    apply fresh_readsAs hpart names h
    intro f hf hgiven
    exact @ih f hf none _ (hpart.fields_regular f hf) (by simp) (by simp) rfl
      (travels_absent (hpart.fields_regular f hf)) hgiven
  | @part required kind fields pairs others names names' h ih =>
    have hpart := regularPart hregular
    have distinct' : (others.map Prod.fst).Nodup := names' ▸ hpart.wires_nodup
    cases found with
    | none =>
      obtain rfl := Except.ok.inj hload
      have hpairs (f : Slot × Shape) (hf : f ∈ fields) := lookup_of_absent hregular ht hf
      apply fresh_readsAs hpart names'
      · intro f hf
        rw [← hpairs f hf]
        exact h f hf
      · intro f hf hgiven
        refine @ih f hf none _ (hpart.fields_regular f hf) (by simp) (by simp) rfl ?_ hgiven
        rw [hpairs f hf]
        exact travels_absent (hpart.fields_regular f hf)
    | some v =>
      obtain ⟨-, rfl⟩ | ⟨stored, attrs, rfl, -⟩ :=
        load_part_cases hpart (hjson v rfl) (hinert v rfl) hload
      · exact absurd (ht.eq_null_iff.mp rfl) (by simp [object])
      rw [mergeInto, dropNulls_object]
      apply patched_readsAs hregular (hjson _ rfl) (hinert _ rfl) hload ht
        (nodup_dropNullPairs distinct')
      · intro p hp
        rw [← names']
        exact (map_fst_dropNullPairs_sublist others).subset (List.mem_map_of_mem hp)
      · exact names'
      · intro f hf x hx htravels hjson' hinert'
        rw [lookup_dropNullPairs distinct']
        by_cases hnull : (others.lookup f.1.wire).getD .null = .null
        · have hgrown := h f hf
          rw [if_pos (isNull_iff.mpr hnull)]
          rw [hnull] at hgrown ⊢
          rw [hgrown.eq_null] at htravels
          exact ⟨hinert', x, .null, hx, htravels, rfl⟩
        · rw [if_neg (mt isNull_iff.mp hnull)]
          exact ih f hf (hpart.fields_regular f hf) hjson' hinert' hx htravels hnull

end Shape

end Installation

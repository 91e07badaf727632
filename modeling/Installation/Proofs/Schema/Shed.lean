import Installation.Proofs.Gaps.Akin
import Installation.Proofs.Schema.Absence
import Installation.Proofs.Schema.Mirror
import Installation.Proofs.Value.Shed

/-!
# Data that sheds a null

Data of a field sheds a null when one is left out that stands for a field, at any level, or one
inside of the values of a map to values of any shape.  Null and left out is the same for a field
that is not required, so that such data is read alike before and after: it is rejected with the
same fault, or read as records that are akin, `Sheds.load`.
-/

namespace Installation

open Value

namespace Shape

/-- Whether data of a field is other data without one of its nulls: the entry of a field that is
not a required part, at any level, or an entry inside of a value of a map to values of any
shape. -/
inductive Sheds : Shape → Value → Value → Prop
  | here {required : Bool} {kind : Kind} {fields : List (Slot × Shape)} {f : Slot × Shape}
    (hf : f ∈ fields) (optional : f.2.isRequired = false) (front back : List (String × Value)) :
    Sheds (.part required kind fields) (object (front ++ (f.1.wire, .null) :: back))
      (object (front ++ back))
  | entry {required : Bool} {kind : Kind} {fields : List (Slot × Shape)} {f : Slot × Shape}
    (hf : f ∈ fields) {v w : Value} (h : Sheds f.2 v w) (front back : List (String × Value)) :
    Sheds (.part required kind fields) (object (front ++ (f.1.wire, v) :: back))
      (object (front ++ (f.1.wire, w) :: back))
  | inside (name : String) {v w : Value} (h : v.Sheds w) (front back : List (String × Value)) :
    Sheds .rawMap (object (front ++ (name, v) :: back)) (object (front ++ (name, w) :: back))

/-! ### Parts of which one field is in the midst of others -/

section Middle

variable {required : Bool} {kind : Kind} {fields : List (Slot × Shape)} {f : Slot × Shape}
  {front back : List (String × Value)} {v : Value}

theorem unmodelledPairs_middle (hf : f ∈ fields) :
  unmodelledPairs fields (front ++ (f.1.wire, v) :: back) = unmodelledPairs fields (front ++ back)
  := by
  have hwire : f.1.wire ∈ wires fields := List.mem_map_of_mem hf
  simp [unmodelledPairs, hwire]

/-- When data of a part is inert that has one field in the midst of others. -/
theorem inert_middle (hpart : RegularPart kind fields) (hf : f ∈ fields)
    (hnew : f.1.wire ∉ (front ++ back).map Prod.fst) :
  inert (.part required kind fields) (object (front ++ (f.1.wire, v) :: back)) ↔
    inert f.2 v ∧ inert (.part required kind fields) (object (front ++ back))
  := by
  rw [inert_object, inert_object, unmodelledPairs_middle hf]
  constructor
  · rintro ⟨hspared, hfields⟩
    have hv := hfields f hf v (by rw [Assoc.lookup_middle hnew, beq_self_eq_true]; rfl)
    refine ⟨hv, hspared, ?_⟩
    intro g hg x hx
    apply hfields g hg
    have hne : (g.1.wire == f.1.wire) = false := by
      rw [beq_eq_false_iff_ne]
      intro heq
      rw [heq, Assoc.lookup_eq_none.mpr hnew] at hx
      contradiction
    rw [Assoc.lookup_middle hnew, hne]
    exact hx
  · rintro ⟨hv, hspared, hfields⟩
    refine ⟨hspared, ?_⟩
    intro g hg x hx
    rw [Assoc.lookup_middle hnew] at hx
    by_cases heq : g.1.wire = f.1.wire
    · obtain rfl := eq_of_wire_eq hpart.wires_nodup hg hf heq
      rw [beq_self_eq_true] at hx
      obtain rfl := Option.some.inj hx
      exact hv
    · have hne : (g.1.wire == f.1.wire) = false := by simpa using heq
      rw [hne] at hx
      exact hfields g hg x hx

end Middle

/-! ### Data that is JSON and inert stays so -/

theorem Sheds.isJson {shape : Shape} {v w : Value} (h : Sheds shape v w) (hv : v.IsJson) :
  w.IsJson
  := by
  induction h with
  | here hf optional front back => exact (isJson_middle.mp hv).2.2
  | entry hf h front back ih =>
    obtain ⟨hnew, hv, hrest⟩ := isJson_middle.mp hv
    exact isJson_middle.mpr ⟨hnew, ih hv, hrest⟩
  | inside name h front back =>
    obtain ⟨hnew, hv, hrest⟩ := isJson_middle.mp hv
    exact isJson_middle.mpr ⟨hnew, h.isJson hv, hrest⟩

theorem Sheds.inert {shape : Shape} {v w : Value} (h : Sheds shape v w)
    (hregular : shape.regular) (hv : v.IsJson) (hinert : shape.inert v) :
  shape.inert w
  := by
  induction h with
  | here hf optional front back =>
    obtain ⟨hnew, -, -⟩ := isJson_middle.mp hv
    exact ((inert_middle (regularPart hregular) hf hnew).mp hinert).2
  | entry hf h front back ih =>
    have hpart := regularPart hregular
    obtain ⟨hnew, hv, -⟩ := isJson_middle.mp hv
    obtain ⟨hfield, hrest⟩ := (inert_middle hpart hf hnew).mp hinert
    apply (inert_middle hpart hf hnew).mpr
    exact ⟨ih (hpart.fields_regular _ hf) hv hfield, hrest⟩
  | inside name h front back => simp [Shape.inert]

/-! ### What data is read as -/

/-- Two readings of a field that fail with the same fault, or give akin values. -/
inductive Kin (shape : Shape) : Except Fault Value → Except Fault Value → Prop
  | fault (fault : Fault) : Kin shape (.error fault) (.error fault)
  | ok {r r' : Value} (h : Akin shape r r') : Kin shape (.ok r) (.ok r')

theorem Kin.error_iff {shape : Shape} {x y : Except Fault Value} (h : Kin shape x y)
    (fault : Fault) :
  x = .error fault ↔ y = .error fault
  := by
  cases h with
  | fault other => rfl
  | ok h => simp

/-- A reading of inert data is its own kin. -/
theorem kin_load {shape : Shape} (hregular : shape.regular) {v : Value} (hv : v.IsJson)
    (hinert : shape.inert v) :
  Kin shape (shape.load v) (shape.load v)
  := by
  cases h : shape.load v with
  | error fault => exact .fault fault
  | ok r =>
    obtain ⟨w, hw⟩ := load_travels hregular hv hinert h
    exact .ok hw.akin

section Part

variable {required : Bool} {kind : Kind} {fields : List (Slot × Shape)}
  {pairs others : List (String × Value)} (hpart : RegularPart kind fields)

include hpart

/-- A reading of a field of inert data is its own kin. -/
theorem kin_loadAt (hpairs : (object pairs).IsJson)
    (hinert : inert (.part required kind fields) (object pairs)) {f : Slot × Shape}
    (hf : f ∈ fields) :
  Kin f.2 (loadAt f.2 (pairs.lookup f.1.wire)) (loadAt f.2 (pairs.lookup f.1.wire))
  := by
  have hregular := hpart.fields_regular f hf
  obtain ⟨-, hjson⟩ := (isJson_object pairs).mp hpairs
  obtain ⟨-, hfields⟩ := inert_object.mp hinert
  cases hfound : pairs.lookup f.1.wire with
  | none => exact .ok (travels_absent hregular).akin
  | some v =>
    exact kin_load hregular (hjson _ (Assoc.mem_of_lookup hfound)) (hfields f hf v hfound)

/-- Readings of parts are kin if those of their fields are. -/
theorem load_object_kin (hspared : ∀ p ∈ unmodelledPairs fields pairs, kind.spares (.text p.1))
    (hspared' : ∀ p ∈ unmodelledPairs fields others, kind.spares (.text p.1))
    (h : ∀ f ∈ fields, Kin f.2 (loadAt f.2 (pairs.lookup f.1.wire))
      (loadAt f.2 (others.lookup f.1.wire))) :
  Kin (.part required kind fields) (load (.part required kind fields) (object pairs))
    (load (.part required kind fields) (object others))
  := by
  by_cases hall : ∀ f ∈ fields, ∃ v, loadAt f.2 (pairs.lookup f.1.wire) = .ok v
  · have hboth : ∀ f ∈ fields, ∃ x y, loadAt f.2 (pairs.lookup f.1.wire) = .ok x ∧
        loadAt f.2 (others.lookup f.1.wire) = .ok y ∧ Akin f.2 x y := by
      intro f hf
      obtain ⟨v, hv⟩ := hall f hf
      have hkin := h f hf
      rw [hv] at hkin ⊢
      generalize loadAt f.2 (others.lookup f.1.wire) = y at hkin ⊢
      cases hkin with
      | ok h => exact ⟨_, _, rfl, rfl, h⟩
    choose! x y hx hy hakin using hboth
    obtain ⟨attrs, hload, hoffered, hattrs⟩ := load_object_ok required hpart hspared hx
    obtain ⟨attrs', hload', hoffered', hattrs'⟩ := load_object_ok required hpart hspared' hy
    rw [hload, hload']
    apply Kin.ok
    apply Akin.part hoffered hoffered'
    intro f hf
    rw [attrIn, attrIn, hattrs f hf, hattrs' f hf]
    exact hakin f hf
  · obtain ⟨fault, hleft, hright⟩ :=
      @load_object_faults required kind _ _ _ (fun f hf => (h f hf).error_iff) hall
    rw [hleft, hright]
    exact .fault fault

/-- Readings of parts are kin that differ in one field at most, if those of this field are. -/
theorem load_middle_kin {f : Slot × Shape} (hf : f ∈ fields) {front back : List (String × Value)}
    {v : Value} (hv : (object (front ++ (f.1.wire, v) :: back)).IsJson)
    (hinert : inert (.part required kind fields) (object (front ++ (f.1.wire, v) :: back)))
    (hunmodelled : unmodelledPairs fields others = unmodelledPairs fields (front ++ back))
    (hothers : ∀ name, name ≠ f.1.wire → others.lookup name = (front ++ back).lookup name)
    (hfield : Kin f.2 (f.2.load v) (loadAt f.2 (others.lookup f.1.wire))) :
  Kin (.part required kind fields)
    (load (.part required kind fields) (object (front ++ (f.1.wire, v) :: back)))
    (load (.part required kind fields) (object others))
  := by
  obtain ⟨hnew, -, hrest⟩ := isJson_middle.mp hv
  obtain ⟨-, hinert⟩ := (inert_middle hpart hf hnew).mp hinert
  obtain ⟨hspared, -⟩ := inert_object.mp hinert
  apply load_object_kin hpart
  · rw [unmodelledPairs_middle hf]
    exact hspared
  · rw [hunmodelled]
    exact hspared
  · intro g hg
    rw [Assoc.lookup_middle hnew]
    by_cases heq : g.1.wire = f.1.wire
    · obtain rfl := eq_of_wire_eq hpart.wires_nodup hg hf heq
      rw [beq_self_eq_true]
      exact hfield
    · have hne : (g.1.wire == f.1.wire) = false := by simpa using heq
      rw [hne, hothers _ heq]
      exact kin_loadAt hpart hrest hinert hg

end Part

/-- A map to values of any shape has complaints about those alone that are null. -/
theorem valueComplaint?_raw {v : Value} (h : v ≠ .null) :
  valueComplaint? true v = none
  := by
  cases v <;> simp [valueComplaint?] at h ⊢

/-- Readings of maps are kin of which one value sheds a null. -/
theorem load_rawMap_kin {name : String} {v w : Value} (h : v.Sheds w)
    {front back : List (String × Value)} (hv : (object (front ++ (name, v) :: back)).IsJson) :
  Kin .rawMap (load .rawMap (object (front ++ (name, v) :: back)))
    (load .rawMap (object (front ++ (name, w) :: back)))
  := by
  have hsheds := Value.Sheds.entry front name h back
  have hcomplaints : mapComplaints true (front ++ (name, v) :: back) =
      mapComplaints true (front ++ (name, w) :: back) := by
    obtain ⟨hleft, hright⟩ := h.ne_null
    simp [mapComplaints, valueComplaint?_raw hleft, valueComplaint?_raw hright]
  have hload (pairs : List (String × Value)) :
      load .rawMap (object pairs) = loadMap true (object pairs) := rfl
  have hfits {pairs : List (String × Value)} (hpairs : (object pairs).IsJson)
      (hnone : mapComplaints true pairs = []) : Shape.rawMap.Fits (object pairs) := by
    apply load_fits rfl hpairs
    rw [hload, loadMap_eq, if_pos hnone]
  rw [hload, hload, loadMap_eq, loadMap_eq, hcomplaints]
  split
  · rename_i hnone
    apply Kin.ok
    apply Akin.leaf
    · exact hfits hv (hcomplaints.trans hnone)
    · exact hfits (hsheds.isJson hv) hnone
    · exact hsheds.dropNulls_eq
  · exact .fault _

/-- Inert data is read alike before and after it sheds a null. -/
theorem Sheds.load {shape : Shape} {v w : Value} (h : Sheds shape v w)
    (hregular : shape.regular) (hv : v.IsJson) (hinert : shape.inert v) :
  Kin shape (shape.load v) (shape.load w)
  := by
  induction h with
  | here hf optional front back =>
    have hpart := regularPart hregular
    obtain ⟨hnew, -, -⟩ := isJson_middle.mp hv
    apply load_middle_kin hpart hf hv hinert rfl (fun _ _ => rfl)
    rw [Assoc.lookup_eq_none.mpr hnew, loadAt, load_null_of_optional optional]
    exact .ok (travels_absent (hpart.fields_regular _ hf)).akin
  | entry hf h front back ih =>
    have hpart := regularPart hregular
    obtain ⟨hnew, hfield, -⟩ := isJson_middle.mp hv
    obtain ⟨hinertField, -⟩ := (inert_middle hpart hf hnew).mp hinert
    apply load_middle_kin hpart hf hv hinert (unmodelledPairs_middle hf)
    · intro name hne
      have hother : (name == _) = false := beq_eq_false_iff_ne.mpr hne
      rw [Assoc.lookup_middle hnew, hother]
      rfl
    · rw [Assoc.lookup_middle hnew, beq_self_eq_true]
      exact ih (hpart.fields_regular _ hf) hfield hinertField
  | inside name h front back => exact load_rawMap_kin h hv

end Shape

end Installation

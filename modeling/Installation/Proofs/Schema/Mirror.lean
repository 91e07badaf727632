import Installation.Proofs.Schema.Complaint
import Installation.Proofs.Value.Reordered

/-!
# Loading reordered data

Data whose names come in another order is rejected with the same complaints, up to their order,
or is read as a record that travels as the same data, up to order: `load_mirrors`.  The
complaints about a part come in the order of its fields, and those about a map in the order of
its names, so that it is the latter alone that may be reordered.
-/

namespace Installation

open Value

/-- Faults that differ at most in the order of complaints. -/
inductive Fault.Reordered : Fault → Fault → Prop
  | same (fault : Fault) : Reordered fault fault
  | rejected {c c' : Complaint} (h : c.toValue.Reordered c'.toValue) :
    Reordered (.rejected c) (.rejected c')

/-- What reordered faults tell the user is the same up to the order of names. -/
theorem Fault.Reordered.message {fault fault' : Fault} (h : fault.Reordered fault') :
  fault.message.Reordered fault'.message
  := by
  cases h with
  | same => exact .refl _
  | rejected h => exact h

/-- Texts have no names that could be reordered. -/
theorem Value.Reordered.eq_of_text {v w : Value} (h : v.Reordered w)
    (hfits : Shape.text.Fits v) :
  v = w
  := by
  obtain rfl | ⟨s, rfl⟩ := hfits
  · exact (h.null_iff.mp rfl).symm
  · exact h.eq_text.symm

namespace Shape

/-! ### Complaints about maps -/

/-- The complaints about the values of a map. -/
def mapComplaints (raw : Bool) (pairs : List (String × Value)) : List (String × Complaint) :=
  pairs.filterMap fun p =>
    (valueComplaint? raw p.2).map fun t => (p.1, .entries [(.text "value", .texts [t])])

theorem filterMap_entryComplaint (raw : Bool) (pairs : List (String × Value)) :
  (named pairs).filterMap (entryComplaint? raw) = named (mapComplaints raw pairs)
  := by
  induction pairs with
  | nil => rfl
  | cons p pairs ih =>
    rw [mapComplaints] at ih ⊢
    rw [named_cons, List.filterMap_cons, List.filterMap_cons, ih, entryComplaint?, keyComplaint?]
    cases valueComplaint? raw p.2 <;> rfl

/-- A map is read where there are no complaints about it. -/
theorem loadMap_eq (raw : Bool) (pairs : List (String × Value)) :
  loadMap raw (object pairs) =
    if mapComplaints raw pairs = [] then .ok (object pairs)
    else .error (.rejected (.entries (named (mapComplaints raw pairs))))
  := by
  rw [object, loadMap, filterMap_entryComplaint]
  cases mapComplaints raw pairs with
  | nil => rfl
  | cons c cs => rfl

@[simp]
theorem valueComplaint?_ordered (raw : Bool) (v : Value) :
  valueComplaint? raw v.ordered = valueComplaint? raw v
  := by
  cases v <;> simp [ordered, valueComplaint?]

theorem mapComplaints_orderedPairs (raw : Bool) (pairs : List (String × Value)) :
  mapComplaints raw (orderedPairs pairs) = mapComplaints raw pairs
  := by
  rw [mapComplaints, orderedPairs, List.filterMap_map, mapComplaints]
  congr 1
  funext p
  simp

theorem nodup_mapComplaints (raw : Bool) {pairs : List (String × Value)}
    (distinct : (pairs.map Prod.fst).Nodup) :
  ((mapComplaints raw pairs).map Prod.fst).Nodup
  := by
  refine List.Nodup.sublist ?_ distinct
  clear distinct
  induction pairs with
  | nil => exact .slnil
  | cons p pairs ih =>
    rw [mapComplaints] at ih ⊢
    rw [List.filterMap_cons]
    cases valueComplaint? raw p.2 with
    | none => exact ih.cons _
    | some t => exact ih.cons_cons _

/-- Complaints about named values, as a value. -/
theorem toValue_named (cs : List (String × Complaint)) :
  (Complaint.entries (named cs)).toValue = object (cs.map fun p => (p.1, p.2.toValue))
  := by
  rw [Complaint.toValue, object]
  congr 1
  induction cs with
  | nil => rfl
  | cons c cs ih => rw [named_cons, Complaint.toEntries, ih, List.map_cons, named_cons]

/-- Complaints in another order are the same complaints. -/
theorem toValue_reordered_of_perm {cs cs' : List (String × Complaint)}
    (distinct : (cs.map Prod.fst).Nodup) (h : cs.Perm cs') :
  (Complaint.entries (named cs)).toValue.Reordered (Complaint.entries (named cs')).toValue
  := by
  rw [toValue_named, toValue_named, reordered_object]
  · exact (h.map _).map _
  · rw [List.map_map]
    exact distinct

/-- Reordered complaints about the same names one by one are reordered. -/
theorem toValue_reordered {cs cs' : List (Key × Complaint)}
    (h : List.Forall₂ (fun c c' => c.1 = c'.1 ∧ c.2.toValue.Reordered c'.2.toValue) cs cs') :
  (Complaint.entries cs).toValue.Reordered (Complaint.entries cs').toValue
  := by
  have hentries : orderedEntries (Complaint.toEntries cs) =
      orderedEntries (Complaint.toEntries cs') := by
    induction h with
    | nil => rfl
    | cons h _ ih =>
      obtain ⟨hkey, hvalue⟩ := h
      simp only [Complaint.toEntries, orderedEntries, hkey, ih, show _ = _ from hvalue]
  rw [Complaint.toValue, Complaint.toValue, Value.Reordered, ordered, ordered, hentries]

/-! ### Reordered data -/

/-- Two readings of a field that are rejected with reordered complaints, or travel as reordered
data. -/
inductive Mirrors (shape : Shape) : Except Fault Value → Except Fault Value → Prop
  | rejected {c c' : Complaint} (h : c.toValue.Reordered c'.toValue) :
    Mirrors shape (.error (.rejected c)) (.error (.rejected c'))
  | ok {r r' w w' : Value} (h : Travels shape r w) (h' : Travels shape r' w')
    (reordered : w.Reordered w') : Mirrors shape (.ok r) (.ok r')

/-- A reading of a field without fields of its own mirrors itself. -/
theorem mirrors_leaf {shape : Shape} (hleaf : shape.isPart = false) {v : Value} (hv : v.IsJson) :
  Mirrors shape (shape.load v) (shape.load v)
  := by
  cases h : shape.load v with
  | error fault =>
    obtain ⟨c, rfl⟩ := leaf_rejected hleaf h
    exact .rejected (.refl _)
  | ok r => exact .ok (.leaf (load_fits hleaf hv h)) (.leaf (load_fits hleaf hv h)) (.refl _)

/-- Maps mirror each other when their names come in another order. -/
theorem mirrors_loadMap {shape : Shape} {raw : Bool} {v w : Value} (hv : v.IsJson) (hw : w.IsJson)
    (h : v.Reordered w) (hfits : ∀ x r, x.IsJson → loadMap raw x = .ok r → shape.Fits r) :
  Mirrors shape (loadMap raw v) (loadMap raw w)
  := by
  by_cases hdict : ∃ es, v = .dict es
  · obtain ⟨es, rfl⟩ := hdict
    obtain ⟨fs, rfl⟩ := h.dict_iff.mp ⟨es, rfl⟩
    obtain ⟨pairs, rfl⟩ := hv.exists_object
    obtain ⟨others, rfl⟩ := hw.exists_object
    obtain ⟨distinct, -⟩ := (isJson_object pairs).mp hv
    have hfits' := hfits _ (object pairs) hv
    have hfits'' := hfits _ (object others) hw
    -- the complaints about both maps are the same up to order
    have hperm : (mapComplaints raw pairs).Perm (mapComplaints raw others) := by
      rw [← mapComplaints_orderedPairs raw pairs, ← mapComplaints_orderedPairs raw others]
      exact ((reordered_object distinct).mp h).filterMap _
    rw [← object, ← object, loadMap_eq, loadMap_eq] at *
    by_cases hnone : mapComplaints raw pairs = []
    · have hnone' : mapComplaints raw others = [] := by
        rw [hnone] at hperm
        exact hperm.nil_eq.symm
      rw [if_pos hnone] at hfits' ⊢
      rw [if_pos hnone'] at hfits'' ⊢
      exact .ok (.leaf (hfits' rfl)) (.leaf (hfits'' rfl)) h
    · have hsome : mapComplaints raw others ≠ [] := by
        intro hnil
        rw [hnil] at hperm
        exact hnone hperm.eq_nil
      rw [if_neg hnone, if_neg hsome]
      exact .rejected (toValue_reordered_of_perm (nodup_mapComplaints raw distinct) hperm)
  · have hother (x : Value) (hx : ¬∃ es, x = .dict es) :
        loadMap raw x = .error (.because "Not a valid mapping type.") := by
      cases x with
      | dict es => exact absurd ⟨es, rfl⟩ hx
      | _ => rfl
    rw [hother v hdict, hother w (mt h.dict_iff.mpr hdict)]
    exact .rejected (.refl _)

/-- Scalars are read as they are, and nothing else is read where they are called for. -/
theorem load_ordered {shape : Shape} {v : Value}
    (h : shape = .text ∨ shape = .integer ∨ shape = .boolean) :
  shape.load v.ordered = shape.load v
  := by
  obtain rfl | rfl | rfl := h
  · cases v <;> simp [ordered, load, loadText]
  · cases v <;> simp [ordered, load, loadInteger, toInteger]
  · cases v <;> simp [ordered, load, loadBoolean, truth?, number?]

/-- Fields without fields of their own read reordered data alike. -/
theorem leaf_mirrors {shape : Shape} (hleaf : shape.isPart = false) {v w : Value} (hv : v.IsJson)
    (hw : w.IsJson) (h : v.Reordered w) :
  Mirrors shape (shape.load v) (shape.load w)
  := by
  by_cases hnull : v = .null
  · obtain rfl := h.null_iff.mp hnull
    subst hnull
    exact mirrors_leaf hleaf hv
  · have hgiven : w ≠ .null := mt h.null_iff.mpr hnull
    have hscalar (hshape : shape = .text ∨ shape = .integer ∨ shape = .boolean) :
        Mirrors shape (shape.load v) (shape.load w) := by
      rw [← @load_ordered shape w hshape, ← h, load_ordered hshape]
      exact mirrors_leaf hleaf hv
    have hmap {raw : Bool} (hload : ∀ x, x ≠ .null → shape.load x = loadMap raw x) :
        Mirrors shape (shape.load v) (shape.load w) := by
      rw [hload v hnull, hload w hgiven]
      apply mirrors_loadMap hv hw h
      intro x r hx hr
      apply load_fits hleaf hx
      rw [hload]
      · exact hr
      · rintro rfl
        contradiction
    cases shape with
    | text => exact hscalar (.inl rfl)
    | integer => exact hscalar (.inr (.inl rfl))
    | boolean => exact hscalar (.inr (.inr rfl))
    | textMap => exact hmap fun x hx => by rw [load]; exact hx
    | rawMap => exact hmap fun x hx => by rw [load]; exact hx
    | part required kind fields => contradiction

/-- Fields that mirror each other are read to their end with complaints about the same fields,
which are reordered. -/
theorem tallyUp_mirrors {fields : List (Slot × Shape)}
    {give give' : Slot × Shape → Except Fault Value}
    (h : ∀ f ∈ fields, Mirrors f.2 (give f) (give' f)) :
  ∃ tally tally', tallyUp (fields.map fun f => (f.1, give f)) = .ok tally ∧
    tallyUp (fields.map fun f => (f.1, give' f)) = .ok tally' ∧
    List.Forall₂ (fun c c' => c.1 = c'.1 ∧ c.2.toValue.Reordered c'.2.toValue)
      tally.complaints tally'.complaints
  := by
  induction fields with
  | nil => exact ⟨_, _, rfl, rfl, .nil⟩
  | cons f fields ih =>
    obtain ⟨tally, tally', hleft, hright, hcomplaints⟩ := ih fun g hg => h g (by simp [hg])
    have hf := h f (by simp)
    rw [List.map_cons, List.map_cons]
    generalize give f = x at hf
    generalize give' f = y at hf
    cases hf with
    | rejected hc =>
      rw [tallyUp, tallyUp, hleft, hright]
      exact ⟨_, _, rfl, rfl, .cons ⟨rfl, hc⟩ hcomplaints⟩
    | ok _ _ _ =>
      rw [tallyUp, tallyUp, hleft, hright]
      exact ⟨_, _, rfl, rfl, hcomplaints⟩

/-- Parts whose fields mirror each other do so themselves. -/
theorem load_object_mirrors {required : Bool} {kind : Kind} {fields : List (Slot × Shape)}
    {pairs others : List (String × Value)} (hpart : RegularPart kind fields)
    (hspared : ∀ p ∈ unmodelledPairs fields pairs, kind.spares (.text p.1))
    (hspared' : ∀ p ∈ unmodelledPairs fields others, kind.spares (.text p.1))
    (h : ∀ f ∈ fields, Mirrors f.2 (loadAt f.2 (pairs.lookup f.1.wire))
      (loadAt f.2 (others.lookup f.1.wire))) :
  Mirrors (.part required kind fields) (load (.part required kind fields) (object pairs))
    (load (.part required kind fields) (object others))
  := by
  by_cases hall : ∀ f ∈ fields, ∃ v, loadAt f.2 (pairs.lookup f.1.wire) = .ok v
  · have hboth : ∀ f ∈ fields, ∃ w w',
        (∃ v, loadAt f.2 (pairs.lookup f.1.wire) = .ok v ∧ Travels f.2 v w) ∧
        (∃ v, loadAt f.2 (others.lookup f.1.wire) = .ok v ∧ Travels f.2 v w') ∧
        w.Reordered w' := by
      intro f hf
      obtain ⟨v, hv⟩ := hall f hf
      have hmirrors := h f hf
      rw [hv] at hmirrors ⊢
      generalize loadAt f.2 (others.lookup f.1.wire) = x at hmirrors ⊢
      cases hmirrors with
      | ok hr hr' hw => exact ⟨_, _, ⟨v, rfl, hr⟩, ⟨_, rfl, hr'⟩, hw⟩
    choose! data data' hdata using hboth
    obtain ⟨r, hload, hr⟩ := load_object_travels required hpart hspared
      fun f hf => (hdata f hf).1
    obtain ⟨r', hload', hr'⟩ := load_object_travels required hpart hspared'
      fun f hf => (hdata f hf).2.1
    rw [hload, hload']
    refine .ok hr hr' (reordered_of_orderedPairs ?_)
    rw [orderedPairs, orderedPairs, List.map_map, List.map_map]
    apply List.map_congr_left
    intro f hf
    exact congrArg (f.1.wire, ·) (hdata f hf).2.2
  · rw [load_object, load_object]
    obtain ⟨tally, tally', hleft, hright, hcomplaints⟩ := tallyUp_mirrors h
    rw [hleft, hright, Except.bind, Except.bind, finish, finish]
    cases hcs : tally.complaints with
    | nil => exact absurd (exists_of_tallyUp hleft hcs) hall
    | cons c cs =>
      rw [hcs] at hcomplaints
      cases hcs' : tally'.complaints with
      | nil =>
        rw [hcs'] at hcomplaints
        contradiction
      | cons c' cs' =>
        rw [hcs'] at hcomplaints
        exact .rejected (toValue_reordered hcomplaints)

/-- Inert data that differs in the order of names alone is rejected with reordered complaints,
or is read as records that travel as reordered data. -/
theorem load_mirrors {shape : Shape} (hregular : shape.regular) {v w : Value} (hv : v.IsJson)
    (hw : w.IsJson) (hinert : shape.inert v) (hinert' : shape.inert w) (h : v.Reordered w) :
  Mirrors shape (shape.load v) (shape.load w)
  := by
  induction shape using shapeInduction generalizing v w with
  | onLeaf shape hleaf => exact leaf_mirrors hleaf hv hw h
  | onPart required kind fields ih =>
    have hpart := regularPart hregular
    by_cases hdict : ∃ es, v = .dict es
    · obtain ⟨es, rfl⟩ := hdict
      obtain ⟨fs, rfl⟩ := h.dict_iff.mp ⟨es, rfl⟩
      obtain ⟨pairs, rfl⟩ := hv.exists_object
      obtain ⟨others, rfl⟩ := hw.exists_object
      obtain ⟨distinct, hjson⟩ := (isJson_object pairs).mp hv
      obtain ⟨-, hjson'⟩ := (isJson_object others).mp hw
      obtain ⟨hspared, hinert⟩ := inert_object.mp hinert
      obtain ⟨hspared', hinert'⟩ := inert_object.mp hinert'
      apply load_object_mirrors hpart hspared hspared'
      intro f hf
      have hregular' := hpart.fields_regular f hf
      have hlookup := Reordered.lookup h distinct f.1.wire
      cases hleft : pairs.lookup f.1.wire with
      | none =>
        cases hright : others.lookup f.1.wire with
        | none => exact .ok (travels_absent hregular') (travels_absent hregular') (.refl _)
        | some y => simp [hleft, hright] at hlookup
      | some x =>
        cases hright : others.lookup f.1.wire with
        | none => simp [hleft, hright] at hlookup
        | some y =>
          rw [hleft, hright] at hlookup
          exact ih f hf hregular' (hjson _ (Assoc.mem_of_lookup hleft))
            (hjson' _ (Assoc.mem_of_lookup hright)) (hinert f hf x hleft)
            (hinert' f hf y hright) (Option.some.inj hlookup)
    · by_cases hnull : v = .null
      · obtain rfl := h.null_iff.mp hnull
        subst hnull
        cases required with
        | false => exact .ok .null .null (.refl _)
        | true => exact .rejected (.refl _)
      · have hother (x : Value) (hx : ¬∃ es, x = .dict es) (hgiven : x ≠ .null) :
            load (.part required kind fields) x = .error (.rejected notDictionary) := by
          cases x with
          | dict es => exact absurd ⟨es, rfl⟩ hx
          | null => exact absurd rfl hgiven
          | _ => simp [load]
        rw [hother v hdict hnull, hother w (mt h.dict_iff.mpr hdict) (mt h.null_iff.mpr hnull)]
        exact .rejected (.refl _)

end Shape

end Installation

import Installation.Proofs.Schema.Load

/-!
# Complaints

Data that is not read is rejected, and the complaints about a part are those about its fields.
There is a single exception: an entry `self` cannot be an attribute and stops the loading at
once.  Data is `Shape.selfless` when no part of it has such an entry, and is read or rejected
with complaints then: `load_rejected`.  The complaints about a part name those of its fields that
are not read: `load_object_selfless`.
-/

namespace Installation

open Value

namespace Shape

/-! ### Data without entries `self` -/

mutual

/-- Whether no part has an entry `self` that is no field, at any level. -/
def selfless : Shape → Value → Bool
  | .part _ _ fields, .dict entries =>
    (entryAt? "self" (unmodelled fields entries)).isNone && selflessFields fields entries
  | _, _ => true

/-- Whether this holds of the values of all fields. -/
def selflessFields : List (Slot × Shape) → List (Key × Value) → Bool
  | [], _ => true
  | (slot, shape) :: fields, entries =>
    (match entryAt? slot.wire entries with
      | some v => selfless shape v
      | none => true) &&
    selflessFields fields entries

end

section Selfless

variable {required : Bool} {kind : Kind} {fields : List (Slot × Shape)}
  {pairs : List (String × Value)}

/-- When data of a part has no entry `self`. -/
theorem selfless_object :
  selfless (.part required kind fields) (object pairs) ↔
    "self" ∉ (unmodelledPairs fields pairs).map Prod.fst ∧
    ∀ f ∈ fields, ∀ v, pairs.lookup f.1.wire = some v → selfless f.2 v
  := by
  have hfields (gs : List (Slot × Shape)) : selflessFields gs (named pairs) ↔
      ∀ f ∈ gs, ∀ v, pairs.lookup f.1.wire = some v → selfless f.2 v := by
    induction gs with
    | nil => simp [selflessFields]
    | cons g gs ih =>
      rw [selflessFields, Bool.and_eq_true, ih, List.forall_mem_cons, entryAt?_named]
      cases pairs.lookup g.1.wire <;> simp
  rw [object, selfless, Bool.and_eq_true, hfields, unmodelled_named, entryAt?_named,
    Option.isNone_iff_eq_none, Assoc.lookup_eq_none]

/-- Inert data has no entries `self`. -/
theorem selfless_of_inert {shape : Shape} {v : Value} (hv : v.IsJson) (h : shape.inert v) :
  shape.selfless v
  := by
  induction shape using shapeInduction generalizing v with
  | onLeaf shape hleaf =>
    cases shape with
    | part required kind fields => contradiction
    | _ => simp [selfless]
  | onPart required kind fields ih =>
    cases v with
    | dict entries =>
      obtain ⟨pairs, rfl⟩ := hv.exists_object
      obtain ⟨-, hjson⟩ := (isJson_object pairs).mp hv
      obtain ⟨hspared, hfields⟩ := inert_object.mp h
      refine selfless_object.mpr ⟨?_, fun f hf x hfound => ?_⟩
      · intro hself
        obtain ⟨p, hp, heq⟩ := List.mem_map.mp hself
        exact (spares_text (hspared p hp)).1 heq
      · exact ih f hf (hjson _ (Assoc.mem_of_lookup hfound)) (hfields f hf x hfound)
    | _ => simp [selfless]

end Selfless

/-! ### Rejected data -/

/-- Fields that fail with complaints alone are read to their end, and the complaints name the
fields that fail. -/
theorem exists_tally {fields : List (Slot × Shape)} {give : Slot × Shape → Except Fault Value}
    (h : ∀ f ∈ fields, ∀ fault, give f = .error fault → ∃ c, fault = .rejected c) :
  ∃ tally, tallyUp (fields.map fun f => (f.1, give f)) = .ok tally ∧
    tally.complaints.map Prod.fst =
      (fields.filter fun f => !(give f).isOk).map fun f => Key.text f.1.wire
  := by
  induction fields with
  | nil => exact ⟨_, rfl, rfl⟩
  | cons f fields ih =>
    obtain ⟨tally, htally, hnames⟩ := ih fun g hg => h g (by simp [hg])
    rw [List.map_cons, List.filter_cons]
    cases hf : give f with
    | ok v =>
      rw [tallyUp, htally]
      exact ⟨_, rfl, hnames⟩
    | error fault =>
      obtain ⟨c, rfl⟩ := h f (by simp) fault hf
      rw [tallyUp, htally]
      refine ⟨_, rfl, ?_⟩
      simp [Tally.complain, hnames, Except.isOk, Except.toBool]

/-- What a field is rejected with is among the complaints. -/
theorem mem_complaints {fields : List (Slot × Shape)} {give : Slot × Shape → Except Fault Value}
    {tally : Tally} (h : tallyUp (fields.map fun f => (f.1, give f)) = .ok tally)
    {f : Slot × Shape} (hf : f ∈ fields) {c : Complaint} (hc : give f = .error (.rejected c)) :
  (.text f.1.wire, c) ∈ tally.complaints
  := by
  induction fields generalizing tally with
  | nil => contradiction
  | cons g fields ih =>
    rw [List.map_cons] at h
    cases hrest : tallyUp (fields.map fun f => (f.1, give f)) with
    | error fault =>
      cases hg : give g with
      | ok v => simp [hg, tallyUp, hrest, Except.map] at h
      | error fault =>
        rw [hg] at h
        cases fault <;> simp [tallyUp, hrest, Except.map] at h
    | ok others =>
      rw [List.mem_cons] at hf
      cases hg : give g with
      | ok v =>
        rw [hg, tallyUp, hrest] at h
        obtain rfl := Except.ok.inj h
        obtain rfl | hf := hf
        · rw [hg] at hc
          contradiction
        · have hmem := ih hrest hf
          exact hmem
      | error fault =>
        rw [hg] at h
        cases fault with
        | rejected d =>
          rw [tallyUp, hrest] at h
          obtain rfl := Except.ok.inj h
          obtain rfl | hf := hf
          · rw [hg] at hc
            obtain rfl : d = c := by simpa using hc
            exact List.mem_cons_self ..
          · exact List.mem_cons_of_mem _ (ih hrest hf)
        | _ => contradiction

section Leaf

variable {v : Value} {fault : Fault}

theorem loadText_rejected (h : loadText v = .error fault) :
  ∃ c, fault = .rejected c
  := by
  unfold loadText at h
  split at h
  · contradiction
  · exact ⟨_, (Except.error.inj h).symm⟩

theorem loadInteger_rejected (h : loadInteger v = .error fault) :
  ∃ c, fault = .rejected c
  := by
  unfold loadInteger at h
  split at h
  · exact ⟨_, (Except.error.inj h).symm⟩
  · split at h
    · contradiction
    · exact ⟨_, (Except.error.inj h).symm⟩
    · exact ⟨_, (Except.error.inj h).symm⟩

theorem loadBoolean_rejected (h : loadBoolean v = .error fault) :
  ∃ c, fault = .rejected c
  := by
  unfold loadBoolean at h
  split at h
  · contradiction
  · exact ⟨_, (Except.error.inj h).symm⟩

theorem loadMap_rejected {raw : Bool} (h : loadMap raw v = .error fault) :
  ∃ c, fault = .rejected c
  := by
  unfold loadMap at h
  split at h
  · split at h
    · contradiction
    · exact ⟨_, (Except.error.inj h).symm⟩
  · exact ⟨_, (Except.error.inj h).symm⟩

/-- A field without fields of its own fails with a complaint. -/
theorem leaf_rejected {shape : Shape} (hleaf : shape.isPart = false)
    (h : shape.load v = .error fault) :
  ∃ c, fault = .rejected c
  := by
  have hnull : v ≠ .null := by
    rintro rfl
    rw [load_null hleaf] at h
    contradiction
  cases shape with
  | text => exact loadText_rejected (by rwa [load] at h; exact hnull)
  | integer => exact loadInteger_rejected (by rwa [load] at h; exact hnull)
  | boolean => exact loadBoolean_rejected (by rwa [load] at h; exact hnull)
  | textMap => exact loadMap_rejected (by rwa [load] at h; exact hnull)
  | rawMap => exact loadMap_rejected (by rwa [load] at h; exact hnull)
  | part required kind fields => contradiction

end Leaf

section Part

variable {required : Bool} {kind : Kind} {fields : List (Slot × Shape)}
  {pairs : List (String × Value)}

/-- What comes of the data of a part without an entry `self` whose fields fail with complaints
alone.  The complaints name the fields that fail, and where there are none the part is read. -/
theorem load_object_selfless (hself : "self" ∉ (unmodelledPairs fields pairs).map Prod.fst)
    (h : ∀ f ∈ fields, ∀ fault,
      loadAt f.2 (pairs.lookup f.1.wire) = .error fault → ∃ c, fault = .rejected c) :
  ∃ complaints : List (Key × Complaint),
    complaints.map Prod.fst = (fields.filter fun f =>
      !(loadAt f.2 (pairs.lookup f.1.wire)).isOk).map (fun f => Key.text f.1.wire) ∧
    (complaints = [] → ∃ r, load (.part required kind fields) (object pairs) = .ok r) ∧
    (complaints ≠ [] → load (.part required kind fields) (object pairs) =
      .error (.rejected (.entries complaints)))
  := by
  obtain ⟨tally, htally, hnames⟩ := exists_tally h
  refine ⟨tally.complaints, hnames, ?_⟩
  rw [load_object, htally, Except.bind, finish]
  cases tally.complaints with
  | nil =>
    have hany : ((unmodelledPairs fields pairs).any fun a => a.1 == "self") = false := by
      rw [List.any_eq_false]
      intro p hp
      simpa using fun heq : p.1 = "self" => hself (heq ▸ List.mem_map_of_mem hp)
    refine ⟨fun _ => ?_, fun hne => absurd rfl hne⟩
    simp only
    rw [unmodelled_named, build, asAttrs?_named]
    simp only [hany]
    exact ⟨_, rfl⟩
  | cons c cs => exact ⟨fun hnil => absurd hnil (by simp), fun _ => rfl⟩

/-- A part is rejected with what one of its fields is rejected with, if the fields fail with
complaints alone. -/
theorem exists_load_object_rejected (h : ∀ f ∈ fields, ∀ fault,
      loadAt f.2 (pairs.lookup f.1.wire) = .error fault → ∃ c, fault = .rejected c)
    {f : Slot × Shape} (hf : f ∈ fields) {c : Complaint}
    (hc : loadAt f.2 (pairs.lookup f.1.wire) = .error (.rejected c)) :
  ∃ complaints, load (.part required kind fields) (object pairs) =
    .error (.rejected (.entries complaints)) ∧ (.text f.1.wire, c) ∈ complaints
  := by
  obtain ⟨tally, htally, -⟩ := exists_tally h
  have hmem := mem_complaints htally hf hc
  rw [load_object, htally, Except.bind, finish]
  cases hcomplaints : tally.complaints with
  | nil => simp [hcomplaints] at hmem
  | cons d ds => exact ⟨_, rfl, hcomplaints ▸ hmem⟩

end Part

/-- Data without entries `self` that is not read is rejected with a complaint. -/
theorem load_rejected {shape : Shape} {v : Value} (hv : v.IsJson) (hself : shape.selfless v)
    {fault : Fault} (h : shape.load v = .error fault) :
  ∃ c, fault = .rejected c
  := by
  induction shape using shapeInduction generalizing v fault with
  | onLeaf shape hleaf => exact leaf_rejected hleaf h
  | onPart required kind fields ih =>
    cases v with
    | null =>
      cases required with
      | false => contradiction
      | true => exact ⟨_, (Except.error.inj h).symm⟩
    | dict entries =>
      obtain ⟨pairs, rfl⟩ := hv.exists_object
      obtain ⟨-, hjson⟩ := (isJson_object pairs).mp hv
      obtain ⟨hnone, hfields⟩ := selfless_object.mp hself
      have hgive : ∀ f ∈ fields, ∀ fault,
          loadAt f.2 (pairs.lookup f.1.wire) = .error fault → ∃ c, fault = .rejected c := by
        intro f hf fault hfault
        cases hfound : pairs.lookup f.1.wire with
        | none => simp [hfound, loadAt] at hfault
        | some x =>
          rw [hfound] at hfault
          exact ih f hf (hjson _ (Assoc.mem_of_lookup hfound)) (hfields f hf x hfound) hfault
      rw [← object] at h
      obtain ⟨complaints, -, hread, hrejected⟩ := load_object_selfless hnone hgive
      by_cases hcomplaints : complaints = []
      · obtain ⟨r, hr⟩ := hread hcomplaints
        rw [hr] at h
        contradiction
      · rw [hrejected hcomplaints] at h
        exact ⟨_, (Except.error.inj h).symm⟩
    | _ => exact ⟨_, (Except.error.inj h).symm⟩

end Shape

end Installation

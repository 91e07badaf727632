import Installation.Proofs.Schema.Travel
import Installation.Schema.Load

/-!
# Loading inert data

Entries that are no fields become attributes of the record that is read, and most of them
stand in nobody's way there.  Data is `Shape.inert` when this holds of all of them, at every
level.  What inert JSON data is read as travels: `load_travels`.  Two inert values that agree
in their fields, `Shape.Agree`, are rejected with the same complaints or are read as records
that travel as the same data: `load_twin`.
-/

namespace Installation

/-- Whether an entry under a key stands in nobody's way among the attributes of a record. -/
def Kind.spares (kind : Kind) : Key → Bool
  | .text name => name != "self" && !kind.declared.contains name && !kind.operations.contains name
  | _ => false

namespace Shape

mutual

/-- Whether the entries that are no fields stand in nobody's way, at every level. -/
def inert : Shape → Value → Bool
  | .part _ kind fields, .dict entries =>
    (unmodelled fields entries).all (fun e => kind.spares e.1) && inertFields fields entries
  | _, _ => true

/-- Whether this holds of the values of all fields. -/
def inertFields : List (Slot × Shape) → List (Key × Value) → Bool
  | [], _ => true
  | (slot, shape) :: fields, entries =>
    (match Value.entryAt? slot.wire entries with
      | some v => inert shape v
      | none => true) &&
    inertFields fields entries

end

/-- Named values that are no fields. -/
def unmodelledPairs (fields : List (Slot × Shape)) (pairs : List (String × Value)) :
    List (String × Value) :=
  pairs.filter fun p => !(wires fields).contains p.1

theorem unmodelled_named (fields : List (Slot × Shape)) (pairs : List (String × Value)) :
  unmodelled fields (named pairs) = named (unmodelledPairs fields pairs)
  := by
  have hmodelled (name : String) :
      isModelled fields (.text name) = (wires fields).contains name := by
    simp only [isModelled, wires, List.contains_map, Key.beq_text]
  rw [unmodelled, named, List.filter_map, unmodelledPairs, named]
  congr 2
  funext p
  simp [hmodelled]

/-- When data of a part is inert. -/
theorem inert_object {required : Bool} {kind : Kind} {fields : List (Slot × Shape)}
    {pairs : List (String × Value)} :
  inert (.part required kind fields) (Value.object pairs) ↔
    (∀ p ∈ unmodelledPairs fields pairs, kind.spares (.text p.1)) ∧
    ∀ f ∈ fields, ∀ v, pairs.lookup f.1.wire = some v → inert f.2 v
  := by
  have hfields (gs : List (Slot × Shape)) : inertFields gs (named pairs) ↔
      ∀ f ∈ gs, ∀ v, pairs.lookup f.1.wire = some v → inert f.2 v := by
    induction gs with
    | nil => simp [inertFields]
    | cons g gs ih =>
      rw [inertFields, Bool.and_eq_true, ih, List.forall_mem_cons, Value.entryAt?_named]
      cases pairs.lookup g.1.wire <;> simp
  have hspared (ps : List (String × Value)) :
      (named ps).all (fun e => kind.spares e.1) ↔ ∀ p ∈ ps, kind.spares (.text p.1) := by
    simp [named]
  rw [Value.object, inert, Bool.and_eq_true, hfields, unmodelled_named, hspared]

theorem spares_text {kind : Kind} {name : String} (h : kind.spares (.text name)) :
  name ≠ "self" ∧ name ∉ kind.declared ∧ name ∉ kind.operations
  := by
  simpa [Kind.spares, and_assoc] using h

/-- The value for a field among those that are given under the names of attributes. -/
theorem lookup_attrs {α : Type} {fields : List (Slot × Shape)}
    (distinct : (attrNames fields).Nodup) (value : Slot × Shape → α) {f : Slot × Shape}
    (hf : f ∈ fields) :
  (fields.map fun f => (f.1.attr, value f)).lookup f.1.attr = some (value f)
  := Assoc.lookup_map distinct hf

/-- The value for a field among those that are given under the names of fields. -/
theorem lookup_wires {α : Type} {fields : List (Slot × Shape)}
    (distinct : (wires fields).Nodup) (value : Slot × Shape → α) {f : Slot × Shape}
    (hf : f ∈ fields) :
  (fields.map fun f => (f.1.wire, value f)).lookup f.1.wire = some (value f)
  := Assoc.lookup_map distinct hf

/-! ### What the fields of a part give -/

/-- What a field is read as, from what is found under its name. -/
def loadAt (shape : Shape) : Option Value → Except Fault Value
  | some v => shape.load v
  | none => .ok shape.absent

/-- What fields give together, from what each of them gives. -/
def tallyUp : List (Slot × Except Fault Value) → Except Fault Tally
  | [] => .ok ⟨[], []⟩
  | (slot, .ok v) :: found => (tallyUp found).map (Tally.accept slot v)
  | (slot, .error (.rejected complaint)) :: found =>
    (tallyUp found).map (Tally.complain slot complaint)
  | (_, .error fault) :: _ => .error fault

theorem loadFields_eq (fields : List (Slot × Shape)) (entries : List (Key × Value)) :
  loadFields fields entries =
    tallyUp (fields.map fun f => (f.1, loadAt f.2 (Value.entryAt? f.1.wire entries)))
  := by
  induction fields with
  | nil => rfl
  | cons f fields ih =>
    rw [loadFields, List.map_cons, ih]
    cases Value.entryAt? f.1.wire entries with
    | none => rfl
    | some v =>
      simp only [loadAt]
      cases load f.2 v with
      | ok r => rfl
      | error fault => cases fault <;> rfl

/-- Where all fields give a value there are no complaints. -/
theorem tallyUp_ok {fields : List (Slot × Shape)} {give : Slot × Shape → Except Fault Value}
    {value : Slot × Shape → Value} (h : ∀ f ∈ fields, give f = .ok (value f)) :
  tallyUp (fields.map fun f => (f.1, give f)) =
    .ok ⟨fields.map fun f => (f.1.attr, value f), []⟩
  := by
  induction fields with
  | nil => rfl
  | cons f fields ih =>
    rw [List.map_cons, h f (by simp), tallyUp, ih fun g hg => h g (by simp [hg])]
    rfl

/-- Without complaints, all fields have given a value. -/
theorem exists_of_tallyUp {fields : List (Slot × Shape)}
    {give : Slot × Shape → Except Fault Value} {tally : Tally}
    (h : tallyUp (fields.map fun f => (f.1, give f)) = .ok tally) (hnone : tally.complaints = []) :
  ∀ f ∈ fields, ∃ v, give f = .ok v
  := by
  induction fields generalizing tally with
  | nil => simp
  | cons f fields ih =>
    rw [List.map_cons] at h
    cases hrest : tallyUp (fields.map fun f => (f.1, give f)) with
    | error fault =>
      cases hf : give f with
      | ok v => simp [hf, tallyUp, hrest, Except.map] at h
      | error fault =>
        rw [hf] at h
        cases fault <;> simp [tallyUp, hrest, Except.map] at h
    | ok others =>
      cases hf : give f with
      | ok v =>
        rw [hf, tallyUp, hrest] at h
        obtain rfl : Tally.accept f.1 v others = tally := by simpa [Except.map] using h
        rintro g (_ | ⟨_, hg⟩)
        · exact ⟨v, hf⟩
        · exact ih hrest hnone g hg
      | error fault =>
        rw [hf] at h
        cases fault with
        | rejected complaint =>
          rw [tallyUp, hrest] at h
          obtain rfl : Tally.complain f.1 complaint others = tally := by
            simpa [Except.map] using h
          simp [Tally.complain] at hnone
        | _ => simp [tallyUp] at h

/-- Fields that fail with the same faults stop with the same fault or give the same
complaints. -/
theorem tallyUp_twin {fields : List (Slot × Shape)} {give give' : Slot × Shape → Except Fault Value}
    (h : ∀ f ∈ fields, ∀ fault, give f = .error fault ↔ give' f = .error fault) :
  (∃ fault, tallyUp (fields.map fun f => (f.1, give f)) = .error fault ∧
    tallyUp (fields.map fun f => (f.1, give' f)) = .error fault) ∨
  ∃ tally tally', tallyUp (fields.map fun f => (f.1, give f)) = .ok tally ∧
    tallyUp (fields.map fun f => (f.1, give' f)) = .ok tally' ∧
    tally.complaints = tally'.complaints
  := by
  induction fields with
  | nil => exact .inr ⟨_, _, rfl, rfl, rfl⟩
  | cons f fields ih =>
    have hf := h f (by simp)
    rw [List.map_cons, List.map_cons]
    cases hgive : give f with
    | ok v =>
      obtain ⟨v', hgive'⟩ : ∃ v', give' f = .ok v' := by
        cases hgive' : give' f with
        | ok v' => exact ⟨v', rfl⟩
        | error fault => simp [(hf fault).mpr hgive'] at hgive
      rw [hgive', tallyUp, tallyUp]
      obtain ⟨fault, hleft, hright⟩ | ⟨tally, tally', hleft, hright, hsame⟩ :=
        ih fun g hg => h g (by simp [hg])
      · exact .inl ⟨fault, by rw [hleft]; rfl, by rw [hright]; rfl⟩
      · exact .inr ⟨Tally.accept f.1 v tally, Tally.accept f.1 v' tally', by rw [hleft]; rfl,
          by rw [hright]; rfl, hsame⟩
    | error fault =>
      rw [(hf fault).mp hgive]
      cases fault with
      | rejected complaint =>
        rw [tallyUp, tallyUp]
        obtain ⟨fault, hleft, hright⟩ | ⟨tally, tally', hleft, hright, hsame⟩ :=
          ih fun g hg => h g (by simp [hg])
        · exact .inl ⟨fault, by rw [hleft]; rfl, by rw [hright]; rfl⟩
        · refine .inr ⟨Tally.complain f.1 complaint tally,
            Tally.complain f.1 complaint tally',
            by rw [hleft]; rfl, by rw [hright]; rfl, ?_⟩
          simp [Tally.complain, hsame]
      | _ => exact .inl ⟨_, rfl, rfl⟩

/-! ### Loading a part -/

section Part

variable {required : Bool} {kind : Kind} {fields : List (Slot × Shape)}
  {pairs : List (String × Value)}

/-- The data of a part, up to its complaints. -/
theorem load_object (required : Bool) (kind : Kind) (fields : List (Slot × Shape))
    (pairs : List (String × Value)) :
  load (.part required kind fields) (Value.object pairs) =
    (tallyUp (fields.map fun f => (f.1, loadAt f.2 (pairs.lookup f.1.wire)))).bind
      (finish kind fields (named pairs))
  := by
  rw [Value.object, load]
  simp only [loadFields_eq, Value.entryAt?_named]
  cases tallyUp (fields.map fun f => (f.1, loadAt f.2 (pairs.lookup f.1.wire))) <;> rfl

theorem asAttrs?_named (pairs : List (String × Value)) :
  asAttrs? (named pairs) = some pairs
  := by
  induction pairs with
  | nil => rfl
  | cons p pairs ih => simp [asAttrs?, ih]

/-- A record with further attributes that stand in nobody's way. -/
theorem build_named {attrs extra : List (String × Value)}
    (h : ∀ p ∈ extra, kind.spares (.text p.1)) :
  build kind attrs (named extra) = .ok (.record kind (Assoc.overlay attrs extra))
  := by
  have hself : (extra.any fun a => a.1 == "self") = false := by
    rw [List.any_eq_false]
    intro p hp
    simpa using (spares_text (h p hp)).1
  rw [build, asAttrs?_named]
  simp [hself]

/-- Where all fields give a value, a record is read that has these values as attributes and
all of its operations. -/
theorem load_object_ok (required : Bool) (hpart : RegularPart kind fields)
    (hspared : ∀ p ∈ unmodelledPairs fields pairs, kind.spares (.text p.1))
    {value : Slot × Shape → Value}
    (h : ∀ f ∈ fields, loadAt f.2 (pairs.lookup f.1.wire) = .ok (value f)) :
  ∃ attrs, load (.part required kind fields) (Value.object pairs) = .ok (.record kind attrs) ∧
    (∀ name ∈ kind.operations, attrs.lookup name = none) ∧
    ∀ f ∈ fields, attrs.lookup f.1.attr = some (value f)
  := by
  refine ⟨Assoc.overlay (fields.map fun f => (f.1.attr, value f)) (unmodelledPairs fields pairs),
    ?_, ?_, ?_⟩
  · rw [load_object, tallyUp_ok h, Except.bind, finish]
    simp only
    rw [unmodelled_named]
    exact build_named hspared
  · intro name hname
    rw [Assoc.lookup_overlay_of_not_mem, Assoc.lookup_eq_none]
    · intro hmem
      rw [List.map_map] at hmem
      obtain ⟨f, hf, rfl⟩ := List.mem_map.mp hmem
      exact hpart.apart f.1.attr (hpart.declared f hf) hname
    · intro hmem
      obtain ⟨p, hp, rfl⟩ := List.mem_map.mp hmem
      exact (spares_text (hspared p hp)).2.2 hname
  · intro f hf
    rw [Assoc.lookup_overlay_of_not_mem]
    · exact lookup_attrs hpart.attrNames_nodup value hf
    · intro hmem
      obtain ⟨p, hp, heq⟩ := List.mem_map.mp hmem
      exact (spares_text (hspared p hp)).2.1 (heq ▸ hpart.declared f hf)

/-- Where a record is read, all fields have given a value. -/
theorem exists_of_load_object {r : Value}
    (h : load (.part required kind fields) (Value.object pairs) = .ok r) :
  ∀ f ∈ fields, ∃ v, loadAt f.2 (pairs.lookup f.1.wire) = .ok v
  := by
  rw [load_object] at h
  cases htally : tallyUp (fields.map fun f => (f.1, loadAt f.2 (pairs.lookup f.1.wire))) with
  | error fault => simp [htally, Except.bind] at h
  | ok tally =>
    apply exists_of_tallyUp htally
    rw [htally, Except.bind, finish] at h
    cases hcomplaints : tally.complaints with
    | nil => rfl
    | cons c cs => simp [hcomplaints] at h

/-- Where a field is not read, both of two parts are rejected with the same fault if their fields
fail with the same faults. -/
theorem load_object_faults {others : List (String × Value)}
    (h : ∀ f ∈ fields, ∀ fault, loadAt f.2 (pairs.lookup f.1.wire) = .error fault ↔
      loadAt f.2 (others.lookup f.1.wire) = .error fault)
    (hnot : ¬∀ f ∈ fields, ∃ v, loadAt f.2 (pairs.lookup f.1.wire) = .ok v) :
  ∃ fault, load (.part required kind fields) (Value.object pairs) = .error fault ∧
    load (.part required kind fields) (Value.object others) = .error fault
  := by
  rw [load_object, load_object]
  obtain ⟨fault, hleft, hright⟩ | ⟨tally, tally', hleft, hright, hsame⟩ := tallyUp_twin h
  · rw [hleft, hright]
    exact ⟨fault, rfl, rfl⟩
  · rw [hleft, hright]
    simp only [Except.bind, finish]
    rw [← hsame]
    cases hcomplaints : tally.complaints with
    | nil => exact absurd (exists_of_tallyUp hleft hcomplaints) hnot
    | cons c cs => exact ⟨_, rfl, rfl⟩

end Part

/-! ### What is read travels -/

/-- What is read as an integer is one. -/
theorem exists_of_loadInteger {v r : Value} (h : loadInteger v = .ok r) :
  ∃ i, r = .int i
  := by
  unfold loadInteger at h
  split at h
  · contradiction
  · split at h
    · exact ⟨_, (Except.ok.inj h).symm⟩
    · contradiction
    · contradiction

/-- What is read as a boolean is one. -/
theorem exists_of_loadBoolean {v r : Value} (h : loadBoolean v = .ok r) :
  ∃ b, r = .bool b
  := by
  unfold loadBoolean at h
  split at h
  · exact ⟨_, (Except.ok.inj h).symm⟩
  · contradiction

/-- Data of a map is read as it is, unless there is a complaint about one of its values. -/
theorem loadMap_object (raw : Bool) (pairs : List (String × Value)) {r : Value} :
  loadMap raw (Value.object pairs) = .ok r ↔
    r = Value.object pairs ∧ ∀ p ∈ pairs, valueComplaint? raw p.2 = none
  := by
  have hentry (p : String × Value) : entryComplaint? raw (.text p.1, p.2) = none ↔
      valueComplaint? raw p.2 = none := by
    rw [entryComplaint?, keyComplaint?]
    cases valueComplaint? raw p.2 <;> simp
  have hall : (named pairs).filterMap (entryComplaint? raw) = [] ↔
      ∀ p ∈ pairs, valueComplaint? raw p.2 = none := by
    rw [List.filterMap_eq_nil_iff, named, List.forall_mem_map]
    exact forall₂_congr fun p _ => hentry p
  rw [Value.object, loadMap, ← hall]
  cases (named pairs).filterMap (entryComplaint? raw) with
  | nil => simpa using eq_comm
  | cons c cs => simp

/-- What a field of a map is read as. -/
theorem exists_of_loadMap {raw : Bool} {v r : Value} (hv : v.IsJson) (h : loadMap raw v = .ok r) :
  ∃ pairs, v = Value.object pairs ∧ r = Value.object pairs ∧ (pairs.map Prod.fst).Nodup ∧
    ∀ p ∈ pairs, p.2.IsJson ∧ valueComplaint? raw p.2 = none
  := by
  cases v with
  | dict entries =>
    obtain ⟨pairs, rfl⟩ := hv.exists_object
    obtain ⟨distinct, hjson⟩ := (Value.isJson_object pairs).mp hv
    obtain ⟨rfl, hall⟩ := (loadMap_object raw pairs).mp h
    exact ⟨pairs, rfl, rfl, distinct, fun p hp => ⟨hjson p hp, hall p hp⟩⟩
  | _ => simp [loadMap] at h

/-- Null is read as it is, unless it stands for a part that is required. -/
theorem load_null {shape : Shape} (hleaf : shape.isPart = false) :
  shape.load .null = .ok .null
  := by
  cases shape with
  | part required kind fields => contradiction
  | _ => rfl

/-- What a field without fields of its own is read as travels as it is. -/
theorem load_fits {shape : Shape} (hleaf : shape.isPart = false) {v r : Value} (hv : v.IsJson)
    (h : shape.load v = .ok r) :
  shape.Fits r
  := by
  by_cases hnull : v = .null
  · subst hnull
    rw [load_null hleaf] at h
    obtain rfl := Except.ok.inj h
    exact fits_null hleaf
  · cases shape with
    | text =>
      rw [load] at h
      · cases v with
        | text s => exact .inr ⟨s, (Except.ok.inj h).symm⟩
        | _ => simp [loadText] at h
      · exact hnull
    | integer =>
      rw [load] at h
      · exact .inr (exists_of_loadInteger h)
      · exact hnull
    | boolean =>
      rw [load] at h
      · exact .inr (exists_of_loadBoolean h)
      · exact hnull
    | textMap =>
      rw [load] at h
      · obtain ⟨pairs, -, rfl, distinct, hall⟩ := exists_of_loadMap hv h
        refine .inr ⟨pairs, rfl, distinct, fun p hp => ?_⟩
        have hnone := (hall p hp).2
        revert hnone
        cases p.2 <;> simp [valueComplaint?]
      · exact hnull
    | rawMap =>
      rw [load] at h
      · obtain ⟨pairs, -, rfl, distinct, hall⟩ := exists_of_loadMap hv h
        refine .inr ⟨pairs, rfl, distinct, fun p hp => ⟨?_, (hall p hp).1⟩⟩
        intro heq
        have hnone := (hall p hp).2
        simp [heq, valueComplaint?] at hnone
      · exact hnull
    | part required kind fields => contradiction

mutual

/-- The data that a field travels as when it is left out. -/
def vacant : Shape → Value
  | .part true _ fields => Value.object (vacantPairs fields)
  | _ => .null

/-- The data that the fields of a part travel as when all of them are left out. -/
def vacantPairs : List (Slot × Shape) → List (String × Value)
  | [] => []
  | (slot, shape) :: fields => (slot.wire, vacant shape) :: vacantPairs fields

end

theorem vacantPairs_eq (fields : List (Slot × Shape)) :
  vacantPairs fields = fields.map fun f => (f.1.wire, vacant f.2)
  := by
  induction fields with
  | nil => rfl
  | cons f fields ih => rw [vacantPairs, ih, List.map_cons]

theorem blankAttrs_eq (fields : List (Slot × Shape)) :
  blankAttrs fields = fields.map fun f => (f.1.attr, absent f.2)
  := by
  induction fields with
  | nil => rfl
  | cons f fields ih => rw [blankAttrs, ih, List.map_cons]

theorem travels_absent {shape : Shape} (hregular : shape.regular) :
  Travels shape shape.absent shape.vacant
  := by
  induction shape using shapeInduction with
  | onLeaf shape hleaf =>
    cases shape with
    | part required kind fields => contradiction
    | _ => exact .leaf (fits_null rfl)
  | onPart required kind fields ih =>
    cases required with
    | false => exact .null
    | true =>
      have hpart := regularPart hregular
      rw [absent, vacant, vacantPairs_eq, blankAttrs_eq]
      refine .part ?_ ?_ ?_
      · intro name hname
        rw [Assoc.lookup_eq_none, List.map_map]
        intro hmem
        obtain ⟨f, hf, rfl⟩ := List.mem_map.mp hmem
        exact hpart.apart f.1.attr (hpart.declared f hf) hname
      · rw [List.map_map]
        rfl
      · intro f hf
        rw [lookup_attrs hpart.attrNames_nodup _ hf, lookup_wires hpart.wires_nodup _ hf]
        exact ih f hf (hpart.fields_regular f hf)

/-- What is read of a part, when what its fields give travels. -/
theorem load_object_travels (required : Bool) {kind : Kind} {fields : List (Slot × Shape)}
    {pairs : List (String × Value)} (hpart : RegularPart kind fields)
    (hspared : ∀ p ∈ unmodelledPairs fields pairs, kind.spares (.text p.1))
    {data : Slot × Shape → Value}
    (h : ∀ f ∈ fields, ∃ v, loadAt f.2 (pairs.lookup f.1.wire) = .ok v ∧
      Travels f.2 v (data f)) :
  ∃ r, load (.part required kind fields) (Value.object pairs) = .ok r ∧
    Travels (.part required kind fields) r (Value.object (fields.map fun f => (f.1.wire, data f)))
  := by
  choose! value hvalue using h
  obtain ⟨attrs, hload, hoffered, hattrs⟩ :=
    load_object_ok required hpart hspared fun f hf => (hvalue f hf).1
  refine ⟨_, hload, .part hoffered ?_ ?_⟩
  · rw [List.map_map]
    rfl
  · intro f hf
    rw [hattrs f hf, lookup_wires hpart.wires_nodup data hf]
    exact (hvalue f hf).2

/-- What the fields of a part that was read give, when what is read of each field travels. -/
theorem exists_data_of_load {required : Bool} {kind : Kind} {fields : List (Slot × Shape)}
    {pairs : List (String × Value)} {r : Value} (hpart : RegularPart kind fields)
    (hspared : ∀ p ∈ unmodelledPairs fields pairs, kind.spares (.text p.1))
    (hfields : ∀ f ∈ fields, ∀ v x, pairs.lookup f.1.wire = some v → load f.2 v = .ok x →
      ∃ w, Travels f.2 x w)
    (h : load (.part required kind fields) (Value.object pairs) = .ok r) :
  ∃ data : Slot × Shape → Value,
    Travels (.part required kind fields) r
      (Value.object (fields.map fun f => (f.1.wire, data f))) ∧
    ∀ f ∈ fields, ∃ v, loadAt f.2 (pairs.lookup f.1.wire) = .ok v ∧ Travels f.2 v (data f)
  := by
  have hdata : ∀ f ∈ fields, ∃ w, ∃ v, loadAt f.2 (pairs.lookup f.1.wire) = .ok v ∧
      Travels f.2 v w := by
    intro f hf
    obtain ⟨x, hx⟩ := exists_of_load_object h f hf
    cases hfound : pairs.lookup f.1.wire with
    | none => exact ⟨_, _, rfl, travels_absent (hpart.fields_regular f hf)⟩
    | some v =>
      rw [hfound] at hx
      obtain ⟨w, hw⟩ := hfields f hf v x hfound hx
      exact ⟨w, x, hx, hw⟩
  choose! data hdata using hdata
  obtain ⟨r', hload, htravels⟩ := load_object_travels required hpart hspared hdata
  obtain rfl : r' = r := Except.ok.inj (hload.symm.trans h)
  exact ⟨data, htravels, hdata⟩

/-- What inert data is read as travels. -/
theorem load_travels {shape : Shape} (hregular : shape.regular) {v r : Value} (hv : v.IsJson)
    (hinert : shape.inert v) (h : shape.load v = .ok r) :
  ∃ w, Travels shape r w
  := by
  induction shape using shapeInduction generalizing v r with
  | onLeaf shape hleaf => exact ⟨r, .leaf (load_fits hleaf hv h)⟩
  | onPart required kind fields ih =>
    have hpart := regularPart hregular
    cases v with
    | null =>
      cases required with
      | false =>
        obtain rfl := Except.ok.inj h
        exact ⟨.null, .null⟩
      | true => simp [load] at h
    | dict entries =>
      obtain ⟨pairs, rfl⟩ := hv.exists_object
      obtain ⟨-, hjson⟩ := (Value.isJson_object pairs).mp hv
      obtain ⟨hspared, hinert⟩ := inert_object.mp hinert
      obtain ⟨data, htravels, -⟩ := exists_data_of_load hpart hspared
        (fun f hf v x hfound => ih f hf (hpart.fields_regular f hf)
          (hjson (f.1.wire, v) (Assoc.mem_of_lookup hfound)) (hinert f hf v hfound)) h
      exact ⟨_, htravels⟩
    | _ => simp [load] at h

/-! ### Data that agrees in its fields -/

/-- Data of a field that agrees in all fields, at every level, whatever entries there are
besides. -/
inductive Agree : Shape → Value → Value → Prop
  | refl (shape : Shape) (v : Value) : Agree shape v v
  | part {required : Bool} {kind : Kind} {fields : List (Slot × Shape)}
    {es fs : List (Key × Value)}
    (there : ∀ f ∈ fields, (Value.entryAt? f.1.wire es).isSome =
      (Value.entryAt? f.1.wire fs).isSome)
    (h : ∀ f ∈ fields, ∀ v w, Value.entryAt? f.1.wire es = some v →
      Value.entryAt? f.1.wire fs = some w → Agree f.2 v w) :
    Agree (.part required kind fields) (.dict es) (.dict fs)

/-- Two readings of a field that fail with the same fault, or travel as the same data. -/
inductive Twin (shape : Shape) : Except Fault Value → Except Fault Value → Prop
  | fault (fault : Fault) : Twin shape (.error fault) (.error fault)
  | ok {r r' w : Value} (h : Travels shape r w) (h' : Travels shape r' w) :
    Twin shape (.ok r) (.ok r')

theorem Twin.error_iff {shape : Shape} {x y : Except Fault Value} (h : Twin shape x y)
    (fault : Fault) :
  x = .error fault ↔ y = .error fault
  := by
  cases h with
  | fault other => rfl
  | ok h h' => simp

/-- A reading of inert data is its own twin. -/
theorem twin_load {shape : Shape} (hregular : shape.regular) {v : Value} (hv : v.IsJson)
    (hinert : shape.inert v) :
  Twin shape (shape.load v) (shape.load v)
  := by
  cases h : shape.load v with
  | error fault => exact .fault fault
  | ok r =>
    obtain ⟨w, hw⟩ := load_travels hregular hv hinert h
    exact .ok hw hw

/-- Parts whose fields give twins are twins. -/
theorem load_object_twin {required : Bool} {kind : Kind} {fields : List (Slot × Shape)}
    {pairs others : List (String × Value)} (hpart : RegularPart kind fields)
    (hspared : ∀ p ∈ unmodelledPairs fields pairs, kind.spares (.text p.1))
    (hspared' : ∀ p ∈ unmodelledPairs fields others, kind.spares (.text p.1))
    (h : ∀ f ∈ fields, Twin f.2 (loadAt f.2 (pairs.lookup f.1.wire))
      (loadAt f.2 (others.lookup f.1.wire))) :
  Twin (.part required kind fields) (load (.part required kind fields) (Value.object pairs))
    (load (.part required kind fields) (Value.object others))
  := by
  by_cases hall : ∀ f ∈ fields, ∃ v, loadAt f.2 (pairs.lookup f.1.wire) = .ok v
  · have hboth : ∀ f ∈ fields, ∃ w,
        (∃ v, loadAt f.2 (pairs.lookup f.1.wire) = .ok v ∧ Travels f.2 v w) ∧
        ∃ v, loadAt f.2 (others.lookup f.1.wire) = .ok v ∧ Travels f.2 v w := by
      intro f hf
      obtain ⟨v, hv⟩ := hall f hf
      have htwin := h f hf
      rw [hv] at htwin ⊢
      cases hother : loadAt f.2 (others.lookup f.1.wire) with
      | error fault =>
        rw [hother] at htwin
        contradiction
      | ok v' =>
        rw [hother] at htwin
        cases htwin with
        | ok hv hv' => exact ⟨_, ⟨v, rfl, hv⟩, v', rfl, hv'⟩
    choose! data hdata using hboth
    obtain ⟨r, hload, hr⟩ := load_object_travels required hpart hspared
      fun f hf => (hdata f hf).1
    obtain ⟨r', hload', hr'⟩ := load_object_travels required hpart hspared'
      fun f hf => (hdata f hf).2
    rw [hload, hload']
    exact .ok hr hr'
  · obtain ⟨fault, hleft, hright⟩ :=
      @load_object_faults required kind _ _ _ (fun f hf => (h f hf).error_iff) hall
    rw [hleft, hright]
    exact .fault fault

/-- Inert data that agrees in its fields is rejected with the same fault, or is read as
records that travel as the same data. -/
theorem load_twin {shape : Shape} (hregular : shape.regular) {v w : Value} (hv : v.IsJson)
    (hw : w.IsJson) (hinert : shape.inert v) (hinert' : shape.inert w) (h : Agree shape v w) :
  Twin shape (shape.load v) (shape.load w)
  := by
  induction shape using shapeInduction generalizing v w with
  | onLeaf shape hleaf =>
    cases h with
    | refl => exact twin_load hregular hv hinert
    | part there h => contradiction
  | onPart required kind fields ih =>
    have hpart := regularPart hregular
    cases h with
    | refl => exact twin_load hregular hv hinert
    | @part _ _ _ es fs there h =>
      obtain ⟨pairs, rfl⟩ := hv.exists_object
      obtain ⟨others, rfl⟩ := hw.exists_object
      obtain ⟨-, hjson⟩ := (Value.isJson_object pairs).mp hv
      obtain ⟨-, hjson'⟩ := (Value.isJson_object others).mp hw
      obtain ⟨hspared, hinert⟩ := inert_object.mp hinert
      obtain ⟨hspared', hinert'⟩ := inert_object.mp hinert'
      simp only [Value.entryAt?_named] at there h
      apply load_object_twin hpart hspared hspared'
      intro f hf
      have hregular' := hpart.fields_regular f hf
      have hthere := there f hf
      cases hleft : pairs.lookup f.1.wire with
      | none =>
        cases hright : others.lookup f.1.wire with
        | none => exact .ok (travels_absent hregular') (travels_absent hregular')
        | some y => simp [hleft, hright] at hthere
      | some x =>
        cases hright : others.lookup f.1.wire with
        | none => simp [hleft, hright] at hthere
        | some y =>
          exact ih f hf hregular' (hjson _ (Assoc.mem_of_lookup hleft))
            (hjson' _ (Assoc.mem_of_lookup hright)) (hinert f hf x hleft)
            (hinert' f hf y hright) (h f hf x y hleft hright)

end Shape

/-! ### Loading a spec -/

/-- Dictionaries are read alike as a spec and as a part that is required. -/
theorem Schema.load_dict (schema : Schema) (es : List (Key × Value)) :
  schema.load (.dict es) = (schema.toShape true).load (.dict es)
  := by
  rw [Schema.load, toShape, Shape.load]

/-- What an inert spec is read as travels. -/
theorem Schema.load_spec_travels {v r : Value} (hv : v.IsJson)
    (hinert : (Schema.spec.toShape true).inert v) (h : Schema.spec.load v = .ok r) :
  ∃ w, Shape.Travels (Schema.spec.toShape true) r w
  := by
  cases v with
  | dict es =>
    rw [Schema.load_dict] at h
    exact Shape.load_travels (Shape.regular_spec true) hv hinert h
  | _ => simp [Schema.load] at h

end Installation

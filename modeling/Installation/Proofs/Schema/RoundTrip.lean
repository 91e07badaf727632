import Installation.Proofs.Schema.Held
import Installation.Proofs.Value.Same

/-!
# Round trips

Data is `Shape.closed` when all of its entries are fields, at every level.  It is read as a
record that has the attributes of its fields and no others, `Shape.Bare`.  Nothing of such a
record is lost on the way through a dump, whatever was converted or left out when it was read:
the dump is read as the record itself.  `Schema.load_dump` says this of all schemas.
-/

namespace Installation

open Value

namespace Shape

/-! ### Closed data -/

mutual

/-- Whether all entries are fields, at every level. -/
def closed : Shape → Value → Bool
  | .part _ _ fields, .dict entries =>
    (unmodelled fields entries).isEmpty && closedFields fields entries
  | _, _ => true

/-- Whether this holds of the values of all fields. -/
def closedFields : List (Slot × Shape) → List (Key × Value) → Bool
  | [], _ => true
  | (slot, shape) :: fields, entries =>
    (match Value.entryAt? slot.wire entries with
      | some v => closed shape v
      | none => true) &&
    closedFields fields entries

end

/-- When data of a part is closed. -/
theorem closed_object {required : Bool} {kind : Kind} {fields : List (Slot × Shape)}
    {pairs : List (String × Value)} :
  closed (.part required kind fields) (object pairs) ↔ unmodelledPairs fields pairs = [] ∧
    ∀ f ∈ fields, ∀ v, pairs.lookup f.1.wire = some v → closed f.2 v
  := by
  have hfields (gs : List (Slot × Shape)) : closedFields gs (named pairs) ↔
      ∀ f ∈ gs, ∀ v, pairs.lookup f.1.wire = some v → closed f.2 v := by
    induction gs with
    | nil => simp [closedFields]
    | cons g gs ih =>
      rw [closedFields, Bool.and_eq_true, ih, List.forall_mem_cons, Value.entryAt?_named]
      cases pairs.lookup g.1.wire <;> simp
  rw [object, closed, Bool.and_eq_true, hfields, unmodelled_named, List.isEmpty_iff, named,
    List.map_eq_nil_iff]

/-- A part without further entries is read as the record of what its fields give. -/
theorem load_closed_object (required : Bool) (kind : Kind) {fields : List (Slot × Shape)}
    {pairs : List (String × Value)} (hclosed : unmodelledPairs fields pairs = [])
    {value : Slot × Shape → Value}
    (h : ∀ f ∈ fields, loadAt f.2 (pairs.lookup f.1.wire) = .ok (value f)) :
  load (.part required kind fields) (object pairs) =
    .ok (.record kind (fields.map fun f => (f.1.attr, value f)))
  := by
  rw [load_object, tallyUp_ok h, Except.bind, finish]
  simp only
  rw [unmodelled_named, hclosed, build_named (by simp), Assoc.overlay_nil]

/-! ### Bare records -/

/-- What a field can be read as where there are no further entries: a record has the attributes
of its fields, in the order of the fields, and no others. -/
inductive Bare : Shape → Value → Prop
  | leaf {shape : Shape} {v : Value} (fits : shape.Fits v) : Bare shape v
  | null {kind : Kind} {fields : List (Slot × Shape)} : Bare (.part false kind fields) .null
  | part {required : Bool} {kind : Kind} {fields : List (Slot × Shape)}
    {value : Slot × Shape → Value} (h : ∀ f ∈ fields, Bare f.2 (value f)) :
    Bare (.part required kind fields) (.record kind (fields.map fun f => (f.1.attr, value f)))

/-- What is left out is bare. -/
theorem bare_absent (shape : Shape) :
  Bare shape shape.absent
  := by
  induction shape using shapeInduction with
  | onLeaf shape hleaf =>
    cases shape with
    | part required kind fields => contradiction
    | _ => exact .leaf (fits_null rfl)
  | onPart required kind fields ih =>
    cases required with
    | false => exact .null
    | true =>
      rw [absent, blankAttrs_eq]
      exact .part ih

/-- What closed data is read as is bare. -/
theorem load_bare {shape : Shape} {v r : Value} (hv : v.IsJson) (hclosed : shape.closed v)
    (h : shape.load v = .ok r) :
  Bare shape r
  := by
  induction shape using shapeInduction generalizing v r with
  | onLeaf shape hleaf => exact .leaf (load_fits hleaf hv h)
  | onPart required kind fields ih =>
    cases v with
    | null =>
      cases required with
      | false =>
        obtain rfl := Except.ok.inj h
        exact .null
      | true => simp [load] at h
    | dict entries =>
      obtain ⟨pairs, rfl⟩ := hv.exists_object
      obtain ⟨-, hjson⟩ := (isJson_object pairs).mp hv
      obtain ⟨hnone, hfields⟩ := closed_object.mp hclosed
      obtain ⟨value, hvalue, rfl⟩ := exists_of_load_record h
      rw [hnone, Assoc.overlay_nil]
      refine .part fun f hf => ?_
      have hgive := hvalue f hf
      cases hfound : pairs.lookup f.1.wire with
      | none =>
        rw [hfound] at hgive
        have habsent : f.2.absent = value f := Except.ok.inj hgive
        exact habsent ▸ bare_absent f.2
      | some x =>
        rw [hfound] at hgive
        exact ih f hf (hjson _ (Assoc.mem_of_lookup hfound)) (hfields f hf x hfound) hgive
    | _ => simp [load] at h

/-- What a field without fields of its own is read as is read as it is. -/
theorem Fits.load {shape : Shape} {v : Value} (h : shape.Fits v) :
  shape.load v = .ok v
  := by
  have hmap (raw : Bool) {pairs : List (String × Value)}
      (h : ∀ p ∈ pairs, valueComplaint? raw p.2 = none) :
      loadMap raw (object pairs) = .ok (object pairs) :=
    (loadMap_object raw pairs).mpr ⟨rfl, h⟩
  cases shape with
  | text =>
    obtain rfl | ⟨s, rfl⟩ := h
    all_goals rfl
  | integer =>
    obtain rfl | ⟨i, rfl⟩ := h
    all_goals rfl
  | boolean =>
    obtain rfl | ⟨b, rfl⟩ := h
    · rfl
    · cases b <;> rfl
  | textMap =>
    obtain rfl | ⟨pairs, rfl, -, hall⟩ := h
    · rfl
    · refine hmap false fun p hp => ?_
      obtain ⟨s, hs⟩ := hall p hp
      rw [hs, valueComplaint?]
  | rawMap =>
    obtain rfl | ⟨pairs, rfl, -, hall⟩ := h
    · rfl
    · refine hmap true fun p hp => ?_
      have hgiven := (hall p hp).1
      revert hgiven
      cases p.2 <;> simp [valueComplaint?]
  | part required kind fields => contradiction

namespace Bare

/-- A bare record travels, and what it travels as is read as the record itself. -/
theorem exists_load {shape : Shape} {r : Value} (hregular : shape.regular) (h : Bare shape r) :
  ∃ w, Travels shape r w ∧ shape.load w = .ok r
  := by
  induction h with
  | leaf fits => exact ⟨_, .leaf fits, fits.load⟩
  | null => exact ⟨.null, .null, rfl⟩
  | @part required kind fields value h ih =>
    have hpart := regularPart hregular
    have hfields : ∀ f ∈ fields, ∃ w, Travels f.2 (value f) w ∧ f.2.load w = .ok (value f) :=
      fun f hf => ih f hf (hpart.fields_regular f hf)
    choose! data hdata using hfields
    refine ⟨object (fields.map fun f => (f.1.wire, data f)), .part ?_ ?_ ?_, ?_⟩
    · intro name hname
      rw [Assoc.lookup_eq_none, List.map_map]
      intro hmem
      obtain ⟨f, hf, rfl⟩ := List.mem_map.mp hmem
      exact hpart.apart f.1.attr (hpart.declared f hf) hname
    · rw [List.map_map]
      rfl
    · intro f hf
      rw [lookup_attrs hpart.attrNames_nodup _ hf, lookup_wires hpart.wires_nodup _ hf]
      exact (hdata f hf).1
    · apply load_closed_object
      · rw [unmodelledPairs, List.filter_eq_nil_iff]
        intro p hp
        obtain ⟨f, hf, rfl⟩ := List.mem_map.mp hp
        simpa [wires] using ⟨f.1, ⟨f.2, hf⟩, rfl⟩
      · intro f hf
        rw [lookup_wires hpart.wires_nodup data hf]
        exact (hdata f hf).2

/-- A bare record equals itself, with all numbers in it. -/
theorem same_refl {shape : Shape} {r : Value} (hregular : shape.regular) (h : Bare shape r) :
  r.same r = true
  := by
  induction h with
  | leaf fits => exact Value.same_refl fits.isJson
  | null => exact Value.same_refl trivial
  | @part required kind fields value h ih =>
    have hpart := regularPart hregular
    apply same_record_self
    · rw [List.map_map]
      exact hpart.attrNames_nodup
    · intro p hp
      obtain ⟨f, hf, rfl⟩ := List.mem_map.mp hp
      exact ih f hf (hpart.fields_regular f hf)

end Bare

end Shape

namespace Schema

open Shape

theorem regular_of_mem_all :
  ∀ schema ∈ all, (schema.toShape true).regular
  := by
  decide +kernel

/-- What closed data is read as, dumped with its nulls, has an entry for each field and is
accepted again, as a record that is equal to the first one, at every level, and that is dumped as
the same entries. -/
theorem load_dump {schema : Schema} (hschema : schema ∈ all) {d r : Value} (hd : d.IsJson)
    (hclosed : (schema.toShape true).closed d) (h : schema.load d = .ok r) :
  ∃ es again, schema.dump r = .ok es ∧ es.map Prod.fst = (wires schema.fields).map Key.text ∧
    schema.load (.dict es) = .ok again ∧ again = r ∧ (again == r) = true ∧
    schema.dump again = .ok es
  := by
  have hregular := regular_of_mem_all schema hschema
  cases d with
  | dict entries =>
    rw [load_dict] at h
    have hbare := load_bare hd hclosed h
    obtain ⟨w, htravels, hload⟩ := hbare.exists_load hregular
    have hdump := htravels.dump hregular
    have hsame := hbare.same_refl hregular
    cases htravels with
    | leaf fits => contradiction
    | @part _ _ _ attrs pairs offered names hfields =>
      have hentries : schema.dump (.record schema.kind attrs) = .ok (named pairs) := by
        rw [Schema.dump]
        rw [toShape, Shape.dump] at hdump
        · cases hes : dumpFields schema.fields (.record schema.kind attrs) with
          | error fault => simp [hes, Except.map] at hdump
          | ok es =>
            rw [hes] at hdump
            exact congrArg _ (Value.dict.inj (Except.ok.inj hdump))
        · simp
      refine ⟨named pairs, _, hentries, ?_, (load_dict schema _).trans hload, rfl, ?_, hentries⟩
      · rw [← names, named, List.map_map, List.map_map]
        rfl
      · exact (Bool.true_and _).trans hsame
  | _ => simp [Schema.load] at h

/-- A spec with integers that are written as texts, a truth value that is a word, nulls, and a
null inside a map. -/
def roughSpec : Value :=
  object
    [("replicas", .text "3"), ("version", .null), ("ingress", object [("enabled", .text "yes")]),
     ("fileStore", object
       [("external", .null),
        ("operatorManaged", object
          [("replicas", .text " 4 "),
           ("resources", object [("limits", object [("memory", .null)])])])])]

theorem load_dump_rough :
  roughSpec.IsJson ∧ (spec.toShape true).closed roughSpec ∧
  ∃ r es again, spec.load roughSpec = .ok r ∧ spec.dump r = .ok es ∧
    es.lookup (.text "replicas") = some (.int 3) ∧ es.lookup (.text "version") = some .null ∧
    spec.load (.dict es) = .ok again ∧ again = r ∧ (again == r) = true ∧
    spec.dump again = .ok es
  := by
  have hjson : roughSpec.IsJson := by
    simp [roughSpec, isJson_object, IsJson]
  have hclosed : (spec.toShape true).closed roughSpec := by decide
  have hloads : ∃ r, spec.load roughSpec = .ok r ∧ ∃ es, spec.dump r = .ok es ∧
      es.lookup (.text "replicas") = some (.int 3) ∧
      es.lookup (.text "version") = some .null := ⟨_, rfl, _, rfl, rfl, rfl⟩
  obtain ⟨r, hload, es, hdump, hreplicas, hversion⟩ := hloads
  obtain ⟨es', again, hdump', -, hagain, heq, hsame, hstable⟩ :=
    load_dump (by simp [all]) hjson hclosed hload
  obtain rfl : es' = es := Except.ok.inj (hdump'.symm.trans hdump)
  exact ⟨hjson, hclosed, r, es', again, hload, hdump, hreplicas, hversion, hagain, heq, hsame,
    hstable⟩

end Schema

end Installation

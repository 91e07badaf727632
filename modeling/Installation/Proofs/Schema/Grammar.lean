import Installation.Proofs.Gaps.Alter
import Installation.Proofs.Number.Numeral
import Installation.Proofs.Number.Point
import Installation.Proofs.Schema.Complaint

/-!
# The grammar of specs

`Shape.Conforms` says which data a field of a shape admits; what stands for an integer or for a
truth value is spelled out in `conforms_integer_iff` and `conforms_boolean_iff`.  Data without
entries `self` is read exactly when it conforms, and otherwise the complaints name the fields
whose data does not: `load_ok_iff` and `exists_blamed_object`.  What inert data is read as is
`Shape.WellTyped`, so that what is declared of a record holds of it at every level.  All of this
together says of specs what `Schema.load_spec_exact` states.
-/

namespace Installation

open Value

namespace Shape

/-! ### Admitted data -/

/-- The data that a field of a shape admits: null, unless the field is a part that is required,
a text, what stands for an integer and is no boolean, what stands for a truth value, a map to
texts or to values that are not null, and a dictionary in which all fields that are there have
admitted data. -/
inductive Conforms : Shape → Value → Prop
  | null {shape : Shape} (hleaf : shape.isPart = false) : Conforms shape .null
  | nullPart {kind : Kind} {fields : List (Slot × Shape)} :
    Conforms (.part false kind fields) .null
  | text (s : String) : Conforms .text (.text s)
  | integer {v : Value} {i : Int} (apart : ∀ b, v ≠ .bool b) (h : v.toInteger = .ok i) :
    Conforms .integer v
  | boolean {v : Value} {b : Bool} (h : v.truth? = some b) : Conforms .boolean v
  | textMap {pairs : List (String × Value)} (h : ∀ p ∈ pairs, ∃ s, p.2 = .text s) :
    Conforms .textMap (object pairs)
  | rawMap {pairs : List (String × Value)} (h : ∀ p ∈ pairs, p.2 ≠ .null) :
    Conforms .rawMap (object pairs)
  | part {required : Bool} {kind : Kind} {fields : List (Slot × Shape)}
    {pairs : List (String × Value)}
    (h : ∀ f ∈ fields, ∀ v, pairs.lookup f.1.wire = some v → Conforms f.2 v) :
    Conforms (.part required kind fields) (object pairs)

section Leaf

variable {v : Value}

/-- A number stands for an integer when it is finite. -/
theorem exists_toInteger_float (x : Binary64) :
  (∃ i, (Value.float x).toInteger = .ok i) ↔
    ∃ negative m q reduced, x = .finite negative m q reduced
  := by
  cases x with
  | finite negative m q reduced => exact ⟨fun _ => ⟨_, _, _, reduced, rfl⟩, fun _ => ⟨_, rfl⟩⟩
  | nan payload => simp [toInteger, Binary64.extended?]
  | infinite negative => cases negative <;> simp [toInteger, Binary64.extended?]

/-- A text stands for an integer when it is a numeral. -/
theorem exists_toInteger_text (s : String) :
  (∃ i, (Value.text s).toInteger = .ok i) ↔ ∃ i, Numeral.Writes s.toList i
  := by
  simp only [← Numeral.integer_ok_iff, toInteger]
  cases Numeral.integer s.toList with
  | ok i => simp
  | error misreading => cases misreading <;> simp

/-- An integer field admits null, integers, finite numbers and numerals. -/
theorem conforms_integer_iff :
  Conforms .integer v ↔
    v = .null ∨ (∃ i, v = .int i) ∨
    (∃ negative m q reduced, v = .float (.finite negative m q reduced)) ∨
    ∃ s i, v = .text s ∧ Numeral.Writes s.toList i
  := by
  have hread : Conforms .integer v ↔ v = .null ∨ (∀ b, v ≠ .bool b) ∧ ∃ i, v.toInteger = .ok i := by
    constructor
    · intro h
      cases h with
      | null hleaf => exact .inl rfl
      | integer apart h => exact .inr ⟨apart, _, h⟩
    · rintro (rfl | ⟨apart, i, h⟩)
      · exact .null rfl
      · exact .integer apart h
  rw [hread]
  cases v with
  | float x =>
    rw [exists_toInteger_float]
    simp
  | text s =>
    rw [exists_toInteger_text]
    simp
  | _ => simp [toInteger]

/-- A number stands for a truth value when it is one or zero. -/
theorem exists_truth?_float (x : Binary64) :
  (∃ b, (Value.float x).truth? = some b) ↔ x.Denotes 1 ∨ x.Denotes 0
  := by
  simp only [truth?, number?, Binary64.Denotes]
  cases x.extended? with
  | none => simp
  | some p => by_cases hone : p.same (.ofInt 1) <;> simp [hone]

/-- A boolean field admits null, booleans, the numbers one and zero, and the words for true and
false. -/
theorem conforms_boolean_iff :
  Conforms .boolean v ↔
    v = .null ∨ (∃ b, v = .bool b) ∨ v = .int 1 ∨ v = .int 0 ∨ v = .float .one ∨
    (∃ negative, v = .float (.zero negative)) ∨
    ∃ word ∈ trueWords ++ falseWords, v = .text word
  := by
  have hread : Conforms .boolean v ↔ v = .null ∨ ∃ b, v.truth? = some b := by
    constructor
    · intro h
      cases h with
      | null hleaf => exact .inl rfl
      | boolean h => exact .inr ⟨_, h⟩
    · rintro (rfl | ⟨b, h⟩)
      · exact .null rfl
      · exact .boolean h
  rw [hread]
  cases v with
  | float x =>
    rw [exists_truth?_float, Binary64.denotes_one_iff, Binary64.denotes_zero_iff]
    simp
  | int i =>
    by_cases hone : i = 1 <;> by_cases hzero : i = 0 <;>
      simp [truth?, number?, Extended.same_ofInt, hone, hzero]
  | bool b => cases b <;> simp [truth?, number?, Extended.same_ofInt]
  | text s =>
    by_cases htrue : s ∈ trueWords <;> by_cases hfalse : s ∈ falseWords <;>
      simp [truth?, htrue, hfalse]
  | _ => simp [truth?, number?]

theorem loadText_ok_iff (hgiven : v ≠ .null) :
  (∃ r, loadText v = .ok r) ↔ Conforms .text v
  := by
  constructor
  · rintro ⟨r, hr⟩
    cases v with
    | text s => exact .text s
    | _ => simp [loadText] at hr
  · intro h
    cases h with
    | null hleaf => exact absurd rfl hgiven
    | text s => exact ⟨_, rfl⟩

theorem loadInteger_ok_iff (hgiven : v ≠ .null) :
  (∃ r, loadInteger v = .ok r) ↔ Conforms .integer v
  := by
  constructor
  · rintro ⟨r, hr⟩
    unfold loadInteger at hr
    split at hr
    · contradiction
    · rename_i apart
      split at hr
      · rename_i hi
        exact .integer apart hi
      · contradiction
      · contradiction
  · intro h
    cases h with
    | null hleaf => exact absurd rfl hgiven
    | integer apart hi =>
      unfold loadInteger
      split
      · exact absurd rfl (apart _)
      · rw [hi]
        exact ⟨_, rfl⟩

theorem loadBoolean_ok_iff (hgiven : v ≠ .null) :
  (∃ r, loadBoolean v = .ok r) ↔ Conforms .boolean v
  := by
  constructor
  · rintro ⟨r, hr⟩
    unfold loadBoolean at hr
    split at hr
    · rename_i b hb
      exact .boolean hb
    · contradiction
  · intro h
    cases h with
    | null hleaf => exact absurd rfl hgiven
    | boolean hb =>
      rw [loadBoolean, hb]
      exact ⟨_, rfl⟩

/-- Maps of JSON are read when all of their values are admitted. -/
theorem loadMap_ok_iff {raw : Bool} (hv : v.IsJson) :
  (∃ r, loadMap raw v = .ok r) ↔
    ∃ pairs, v = object pairs ∧ ∀ p ∈ pairs, valueComplaint? raw p.2 = none
  := by
  constructor
  · rintro ⟨r, hr⟩
    obtain ⟨pairs, hpairs, -, -, hall⟩ := exists_of_loadMap hv hr
    exact ⟨pairs, hpairs, fun p hp => (hall p hp).2⟩
  · rintro ⟨pairs, rfl, hall⟩
    exact ⟨_, (loadMap_object raw pairs).mpr ⟨rfl, hall⟩⟩

/-- Fields without fields of their own read the data that they admit. -/
theorem leaf_ok_iff {shape : Shape} (hleaf : shape.isPart = false) (hv : v.IsJson) :
  (∃ r, shape.load v = .ok r) ↔ shape.Conforms v
  := by
  have htext (x : Value) : valueComplaint? false x = none ↔ ∃ s, x = .text s := by
    cases x <;> simp [valueComplaint?]
  have hraw (x : Value) : valueComplaint? true x = none ↔ x ≠ .null := by
    cases x <;> simp [valueComplaint?]
  by_cases hnull : v = .null
  · subst hnull
    simp only [load_null hleaf, Except.ok.injEq, exists_eq', true_iff]
    exact .null hleaf
  · cases shape with
    | text =>
      rw [load]
      · exact loadText_ok_iff hnull
      · exact hnull
    | integer =>
      rw [load]
      · exact loadInteger_ok_iff hnull
      · exact hnull
    | boolean =>
      rw [load]
      · exact loadBoolean_ok_iff hnull
      · exact hnull
    | textMap =>
      rw [load]
      · simp only [loadMap_ok_iff hv, htext]
        constructor
        · rintro ⟨pairs, rfl, hall⟩
          exact .textMap hall
        · intro h
          cases h with
          | null hleaf => exact absurd rfl hnull
          | textMap hall => exact ⟨_, rfl, hall⟩
      · exact hnull
    | rawMap =>
      rw [load]
      · simp only [loadMap_ok_iff hv, hraw]
        constructor
        · rintro ⟨pairs, rfl, hall⟩
          exact .rawMap hall
        · intro h
          cases h with
          | null hleaf => exact absurd rfl hnull
          | rawMap hall => exact ⟨_, rfl, hall⟩
      · exact hnull
    | part required kind fields => contradiction

end Leaf

/-- Data of a part conforms when the data of its fields does. -/
theorem conforms_object {required : Bool} {kind : Kind} {fields : List (Slot × Shape)}
    {pairs : List (String × Value)} :
  Conforms (.part required kind fields) (object pairs) ↔
    ∀ f ∈ fields, ∀ v, pairs.lookup f.1.wire = some v → Conforms f.2 v
  := by
  constructor
  · intro h
    generalize hv : object pairs = v at h
    cases h with
    | null hleaf => contradiction
    | nullPart => simp [object] at hv
    | part h =>
      obtain rfl := object_injective hv
      exact h
  · exact .part

/-! ### Read data -/

/-- A field that is left out gives a value, and one that is there does when its data is read. -/
theorem loadAt_isOk_iff {shape : Shape} {found : Option Value}
    (h : ∀ v ∈ found, (∃ r, shape.load v = .ok r) ↔ shape.Conforms v) :
  (loadAt shape found).isOk ↔ ∀ v ∈ found, shape.Conforms v
  := by
  cases found with
  | none => simp [loadAt, Except.isOk, Except.toBool]
  | some v =>
    simp only [Option.mem_some_iff, forall_eq'] at h ⊢
    rw [← h, loadAt]
    cases shape.load v <;> simp [Except.isOk, Except.toBool]

/-- Whether the given names are those that complaints about the data of a part have to be under:
the names of the fields that are there with data that is not admitted, or a name that is no
field's where there is no dictionary at all. -/
inductive Blamed (fields : List (Slot × Shape)) : Value → List String → Prop
  | fields {pairs : List (String × Value)} {names : List String}
    (inOrder : names.Sublist (wires fields))
    (h : ∀ f ∈ fields, f.1.wire ∈ names ↔ ∃ v ∈ pairs.lookup f.1.wire, ¬f.2.Conforms v) :
    Blamed fields (object pairs) names
  | notDictionary {v : Value} (h : ∀ es, v ≠ .dict es) : Blamed fields v ["_schema"]

section Part

variable {required : Bool} {kind : Kind} {fields : List (Slot × Shape)}
  {pairs : List (String × Value)}

/-- The data of a part is read when no field is to blame, and rejected with complaints about the
fields that are to blame otherwise. -/
theorem exists_blamed_object (hpart : RegularPart kind fields) (hjson : (object pairs).IsJson)
    (hself : selfless (.part required kind fields) (object pairs))
    (h : ∀ f ∈ fields, ∀ v ∈ pairs.lookup f.1.wire,
      (∃ r, f.2.load v = .ok r) ↔ f.2.Conforms v) :
  ∃ names, Blamed fields (object pairs) names ∧
    (names = [] → ∃ r, load (.part required kind fields) (object pairs) = .ok r) ∧
    (names ≠ [] → ∃ complaints, load (.part required kind fields) (object pairs) =
      .error (.rejected (.entries complaints)) ∧ complaints.map Prod.fst = names.map Key.text)
  := by
  obtain ⟨-, hpairs⟩ := (isJson_object pairs).mp hjson
  obtain ⟨hnone, hfields⟩ := selfless_object.mp hself
  obtain ⟨complaints, hnames, hread, hrejected⟩ :=
    @load_object_selfless required kind _ _ hnone fun f hf fault hfault => by
      cases hfound : pairs.lookup f.1.wire with
      | none => simp [hfound, loadAt] at hfault
      | some x =>
        rw [hfound] at hfault
        exact load_rejected (hpairs _ (Assoc.mem_of_lookup hfound)) (hfields f hf x hfound) hfault
  refine ⟨(fields.filter fun f => !(loadAt f.2 (pairs.lookup f.1.wire)).isOk).map
    (fun f => f.1.wire), .fields (List.filter_sublist.map _) fun f hf => ?_, fun hnil => ?_,
    fun hne => ?_⟩
  · have hok := loadAt_isOk_iff (h f hf)
    rw [List.mem_map]
    constructor
    · rintro ⟨g, hg, heq⟩
      obtain ⟨hg, hfails⟩ := List.mem_filter.mp hg
      obtain rfl := eq_of_wire_eq hpart.wires_nodup hg hf heq
      rw [Bool.not_eq_true', ← Bool.not_eq_true, hok] at hfails
      simpa using hfails
    · rintro ⟨v, hv, hnot⟩
      refine ⟨f, List.mem_filter.mpr ⟨hf, ?_⟩, rfl⟩
      rw [Bool.not_eq_true', ← Bool.not_eq_true, hok]
      exact fun hall => hnot (hall v hv)
  · apply hread
    rw [← List.map_eq_nil_iff, hnames, List.map_eq_nil_iff.mp hnil, List.map_nil]
  · refine ⟨complaints, hrejected ?_, ?_⟩
    · rintro rfl
      rw [List.map_nil, eq_comm, List.map_eq_nil_iff] at hnames
      exact hne (by rw [hnames, List.map_nil])
    · rw [hnames, List.map_map]
      rfl

/-- No field is to blame for data that conforms. -/
theorem Blamed.eq_nil {names : List String} (hblamed : Blamed fields (object pairs) names)
    (h : ∀ f ∈ fields, ∀ v, pairs.lookup f.1.wire = some v → f.2.Conforms v) :
  names = []
  := by
  generalize hv : object pairs = v at hblamed
  cases hblamed with
  | @fields others names inOrder hblame =>
    obtain rfl := object_injective hv
    rw [List.eq_nil_iff_forall_not_mem]
    intro name hname
    obtain ⟨f, hf, rfl⟩ := List.mem_map.mp (inOrder.subset hname)
    obtain ⟨x, hx, hnot⟩ := (hblame f hf).mp hname
    exact hnot (h f hf x hx)
  | notDictionary hnot => exact absurd hv.symm (hnot _)

end Part

/-- Data without entries `self` is read exactly when it conforms. -/
theorem load_ok_iff {shape : Shape} (hregular : shape.regular) {v : Value} (hv : v.IsJson)
    (hself : shape.selfless v) :
  (∃ r, shape.load v = .ok r) ↔ shape.Conforms v
  := by
  induction shape using shapeInduction generalizing v with
  | onLeaf shape hleaf => exact leaf_ok_iff hleaf hv
  | onPart required kind fields ih =>
    have hpart := regularPart hregular
    cases v with
    | null =>
      cases required with
      | false => exact ⟨fun _ => .nullPart, fun _ => ⟨_, rfl⟩⟩
      | true =>
        constructor
        · rintro ⟨r, hr⟩
          contradiction
        · intro h
          cases h with
          | null hleaf => contradiction
    | dict entries =>
      obtain ⟨pairs, rfl⟩ := hv.exists_object
      obtain ⟨-, hjson⟩ := (isJson_object pairs).mp hv
      obtain ⟨-, hfields⟩ := selfless_object.mp hself
      have hgive : ∀ f ∈ fields, ∀ x ∈ pairs.lookup f.1.wire,
          ((∃ r, f.2.load x = .ok r) ↔ f.2.Conforms x) := fun f hf x hfound =>
        ih f hf (hpart.fields_regular f hf) (hjson _ (Assoc.mem_of_lookup hfound))
          (hfields f hf x hfound)
      rw [← object, conforms_object]
      constructor
      · rintro ⟨r, hr⟩ f hf x hfound
        have hread := exists_of_load_object hr f hf
        rw [hfound] at hread
        exact (hgive f hf x hfound).mp hread
      · intro h
        obtain ⟨names, hblamed, hread, -⟩ := exists_blamed_object hpart hv hself hgive
        exact hread (hblamed.eq_nil h)
    | _ =>
      constructor
      · rintro ⟨r, hr⟩
        simp [load] at hr
      · rintro ⟨⟩

/-! ### Declared types -/

/-- Whether a value is of its declared type: a text, an integer, a boolean or a map, or null in
the place of one, and a record of the kind of a part whose attributes are of their declared
types.  A part may be null as well unless it is required. -/
inductive WellTyped : Shape → Value → Prop
  | leaf {shape : Shape} {v : Value} (fits : shape.Fits v) : WellTyped shape v
  | null {kind : Kind} {fields : List (Slot × Shape)} : WellTyped (.part false kind fields) .null
  | part {required : Bool} {kind : Kind} {fields : List (Slot × Shape)}
    {attrs : List (String × Value)}
    (h : ∀ f ∈ fields, WellTyped f.2 (attrIn f.1.attr attrs)) :
    WellTyped (.part required kind fields) (.record kind attrs)

/-- What travels is of its declared type. -/
theorem Travels.wellTyped {shape : Shape} {r w : Value} (h : Travels shape r w) :
  WellTyped shape r
  := by
  induction h with
  | leaf fits => exact .leaf fits
  | null => exact .null
  | part offered names h ih => exact .part ih

section Part

variable {kind : Kind} {fields : List (Slot × Shape)} {v : Value}

/-- A part that is required is a record of its kind. -/
theorem WellTyped.exists_record (h : WellTyped (.part true kind fields) v) :
  ∃ attrs, v = .record kind attrs ∧ ∀ f ∈ fields, WellTyped f.2 (attrIn f.1.attr attrs)
  := by
  cases h with
  | leaf fits => contradiction
  | part h => exact ⟨_, rfl, h⟩

end Part

end Shape

/-! ### Specs -/

namespace Schema

open Shape

/-- The fields of a schema are the attributes that its kind declares. -/
theorem declared_eq_attrNames :
  ∀ schema ∈ all, schema.kind.declared = attrNames schema.fields
  := by
  decide

/-- A specification of the loading of specs.  Data without entries `self` is read exactly when it
conforms.  What is not read is rejected, with complaints under the names of exactly those fields
that are there with data that is not admitted.  What inert data is read as is of its declared
type at every level, and has a file store and a database. -/
theorem load_spec_exact {d : Value} (hd : d.IsJson) (hself : (spec.toShape true).selfless d) :
  ((∃ r, spec.load d = .ok r) ↔ (spec.toShape true).Conforms d) ∧
  (∀ fault, spec.load d = .error fault → ∃ complaints names,
    fault = .rejected (.entries complaints) ∧ complaints.map Prod.fst = names.map Key.text ∧
    Blamed spec.fields d names) ∧
  ((spec.toShape true).inert d → ∀ r, spec.load d = .ok r →
    (spec.toShape true).WellTyped r ∧
    (∃ attrs, attrIn "file_store" r.attrs = .record .fileStore attrs) ∧
    ∃ attrs, attrIn "database" r.attrs = .record .database attrs)
  := by
  refine ⟨?_, fun fault hfault => ?_, fun hinert r hr => ?_⟩
  · cases d with
    | dict entries =>
      rw [load_dict]
      exact load_ok_iff (regular_spec true) hd hself
    | null =>
      constructor
      · rintro ⟨r, hr⟩
        contradiction
      · intro h
        cases h with
        | null hleaf => contradiction
    | _ =>
      constructor
      · rintro ⟨r, hr⟩
        simp [load] at hr
      · rintro ⟨⟩
  · cases d with
    | dict entries =>
      obtain ⟨pairs, rfl⟩ := hd.exists_object
      obtain ⟨-, hjson⟩ := (isJson_object pairs).mp hd
      obtain ⟨-, hfields⟩ := selfless_object.mp hself
      rw [load_dict] at hfault
      obtain ⟨names, hblamed, hread, hrejected⟩ :=
        @exists_blamed_object true _ _ _ regularPart_spec hd hself fun f hf x hfound =>
          load_ok_iff (regularPart_spec.fields_regular f hf)
            (hjson _ (Assoc.mem_of_lookup hfound)) (hfields f hf x hfound)
      by_cases hnil : names = []
      · obtain ⟨r, hr⟩ := hread hnil
        exact absurd (hr.symm.trans hfault) (by simp)
      · obtain ⟨complaints, hload, hnames⟩ := hrejected hnil
        exact ⟨complaints, names, Except.error.inj (hfault.symm.trans hload), hnames, hblamed⟩
    | _ => exact ⟨_, ["_schema"], (Except.error.inj hfault).symm, rfl, .notDictionary (by simp)⟩
  · obtain ⟨w, htravels⟩ := load_spec_travels hd hinert hr
    have htyped := htravels.wellTyped
    obtain ⟨attrs, rfl, hattrs⟩ := htyped.exists_record
    obtain ⟨file, hfile, -⟩ := (hattrs _ (spec.mem_fields "fileStore" rfl)).exists_record
    obtain ⟨database, hdatabase, -⟩ := (hattrs _ (spec.mem_fields "database" rfl)).exists_record
    exact ⟨htyped, ⟨file, hfile⟩, database, hdatabase⟩

/-- A spec with an integer that is written as a text, a truth value that is a word, labels, and
an entry that is no field. -/
def looseSpec : Value :=
  object
    [("replicas", .text "3"), ("ingress", object [("enabled", .text "yes")]),
     ("resourceLabels", object [("team", .text "chat")]), ("database", object []),
     ("backupURL", .text "s3://backups")]

/-- A spec with a boolean for an integer, a label that is null, and a null for a file store. -/
def faultySpec : Value :=
  object
    [("fileStore", .null), ("resourceLabels", object [("team", .null)]),
     ("version", .text "5"), ("replicas", .bool true)]

theorem load_spec_exact_loose :
  (∃ r, spec.load looseSpec = .ok r ∧ (spec.toShape true).WellTyped r) ∧
  ¬(spec.toShape true).Conforms faultySpec ∧
  Blamed spec.fields faultySpec ["replicas", "resourceLabels", "fileStore"]
  := by
  have hloose : looseSpec.IsJson := by
    simp [looseSpec, isJson_object, IsJson]
  have hfaulty : faultySpec.IsJson := by
    simp [faultySpec, isJson_object, IsJson]
  obtain ⟨-, -, htyped⟩ := load_spec_exact hloose (by decide)
  obtain ⟨hiff, hblamed, -⟩ := load_spec_exact hfaulty (by decide)
  have hload : ∃ r, spec.load looseSpec = .ok r := ⟨_, rfl⟩
  have hfails : ∃ cs, spec.load faultySpec = .error (.rejected (.entries cs)) ∧
      cs.map Prod.fst = ["replicas", "resourceLabels", "fileStore"].map Key.text :=
    ⟨_, rfl, rfl⟩
  obtain ⟨r, hr⟩ := hload
  obtain ⟨cs, hcs, hkeys⟩ := hfails
  refine ⟨⟨r, hr, (htyped (by decide) r hr).1⟩, ?_, ?_⟩
  · rw [← hiff]
    rintro ⟨r, hr⟩
    exact absurd (hr.symm.trans hcs) (by simp)
  · obtain ⟨complaints, names, heq, hnames, hblamed⟩ := hblamed _ hcs
    obtain rfl : cs = complaints := by simpa using heq
    have hinj : Function.Injective Key.text := fun s t h => Key.text.inj h
    rwa [← hinj.list_map (hnames.symm.trans hkeys)]

end Schema

end Installation

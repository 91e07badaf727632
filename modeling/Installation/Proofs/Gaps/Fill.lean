import Installation.Gaps
import Installation.Proofs.Schema.Load

/-!
# Gaps of data

What the filling of gaps does to a spec can be told from the data that the spec travels as.
`fillData` fills the gaps of data, `isBlocked` tells data whose ingress lacks a host, and
`fillSpec_travels` is that a spec that travels as some data is stopped where the data is
blocked, and otherwise travels as the filled data afterwards.
-/

namespace Installation

/-- Whether all defaults are texts. -/
def Defaults.AreTexts (d : Defaults) : Prop := ∀ p ∈ d.toPairs, ∃ s, p.2 = .text s

namespace Defaults.AreTexts

variable {d : Defaults} (h : d.AreTexts)

include h

theorem image : ∃ s, d.image = .text s := h ("image", d.image) (by simp [Defaults.toPairs])

theorem version :
  ∃ s, d.version = .text s
  := h ("version", d.version) (by simp [Defaults.toPairs])

theorem pullPolicy :
  ∃ s, d.pullPolicy = .text s
  := h ("pull_policy", d.pullPolicy) (by simp [Defaults.toPairs])

theorem fileStoreSize :
  ∃ s, d.fileStoreSize = .text s
  := h ("filestore_storage_size", d.fileStoreSize) (by simp [Defaults.toPairs])

theorem databaseType :
  ∃ s, d.databaseType = .text s
  := h ("database_type", d.databaseType) (by simp [Defaults.toPairs])

theorem databaseSize :
  ∃ s, d.databaseSize = .text s
  := h ("database_storage_size", d.databaseSize) (by simp [Defaults.toPairs])

end Defaults.AreTexts

theorem Defaults.areTexts_builtin :
  builtin.AreTexts
  := by
  simp [AreTexts, builtin, toPairs]

namespace Value

/-! ### Data with its gaps filled -/

/-- Data with an entry in the place of one that is not given. -/
def fillEntry (w : Value) (name : String) (v : Value) : Value :=
  if (w.under name).truthy then w else w.setEntry name v

/-- Data of a managed file store with its gaps filled. -/
def fillManagedFileStoreData (d : Defaults) (w : Value) : Value :=
  w.fillEntry "storageSize" d.fileStoreSize

/-- Data of a managed database with its gaps filled. -/
def fillManagedDatabaseData (d : Defaults) (w : Value) : Value :=
  (w.fillEntry "type" d.databaseType).fillEntry "storageSize" d.databaseSize

/-- The managed part in data, without any of its fields where it is null. -/
def managedData (schema : Schema) (w : Value) : Value :=
  if (w.under "operatorManaged").isNull then object (Shape.vacantPairs schema.fields)
  else w.under "operatorManaged"

/-- Data with the gaps of its managed part filled. -/
def fillManagedData (fill : Value → Value) (schema : Schema) (w : Value) : Value :=
  w.setEntry "operatorManaged" (fill (w.managedData schema))

/-- Data of a file store with its gaps filled. -/
def fillFileStoreData (d : Defaults) (w : Value) : Value :=
  if (w.under "external").isNull && (w.under "externalVolume").isNull then
    fillManagedData (fillManagedFileStoreData d) Schema.managedFileStore w
  else w

/-- Data of a database with its gaps filled. -/
def fillDatabaseData (d : Defaults) (w : Value) : Value :=
  if (w.under "external").isNull then
    fillManagedData (fillManagedDatabaseData d) Schema.managedDatabase w
  else w

/-- Data of a spec with the gaps of its own filled. -/
def fillOwnData (d : Defaults) (w : Value) : Value :=
  ((w.fillEntry "image" d.image).fillEntry "version" d.version).fillEntry "imagePullPolicy"
    d.pullPolicy

/-- Data of a spec with the entry under a name replaced by what becomes of it. -/
def fillUnder (name : String) (fill : Value → Value) (w : Value) : Value :=
  w.setEntry name (fill (w.under name))

/-- Data of a spec with its gaps filled. -/
def fillData (d : Defaults) (w : Value) : Value :=
  fillUnder "database" (fillDatabaseData d)
    (fillUnder "fileStore" (fillFileStoreData d) (fillOwnData d w))

/-- Whether data is of a spec that is reached. -/
def isReached (w : Value) : Bool :=
  (w.under "ingress").isNull || ((w.under "ingress").under "enabled").truthy

/-- The host in data of a spec. -/
def hostOf (w : Value) : Value :=
  (if (w.under "ingress").isNull then w.under "ingressName"
    else (w.under "ingress").under "host").orElse (.text "")

/-- Whether data is of a spec that is reached and has no host. -/
def isBlocked (w : Value) : Bool := w.isReached && !w.hostOf.truthy

end Value

open Shape

/-! ### Records and their data -/

section Part

variable {required : Bool} {kind : Kind} {fields : List (Slot × Shape)} {r w : Value}

/-- A field without fields of its own is read from the data. -/
theorem attr_leaf (hpart : RegularPart kind fields)
    (h : Travels (.part required kind fields) r w) (hgiven : r ≠ .null)
    {wire attr : String} {shape : Shape} (hf : (⟨wire, attr⟩, shape) ∈ fields)
    (hleaf : shape.isPart = false) :
  r.attr attr = .ok (w.under wire) ∧ shape.Fits (w.under wire)
  := by
  obtain ⟨x, hattr, htravels⟩ := h.attr hpart hgiven hf
  simp only at hattr htravels
  generalize w.under wire = y at htravels ⊢
  cases htravels with
  | leaf fits => exact ⟨hattr, fits⟩
  | null => contradiction
  | part offered names h => contradiction

/-- A record that travels is one of the kind of its part. -/
theorem exists_record (h : Travels (.part required kind fields) r w) (hgiven : r ≠ .null) :
  ∃ attrs, r = .record kind attrs
  := by
  cases h with
  | leaf fits => contradiction
  | null => contradiction
  | part offered names h => exact ⟨_, rfl⟩

/-- A record travels as named values. -/
theorem exists_object (h : Travels (.part required kind fields) r w) (hgiven : r ≠ .null) :
  ∃ pairs, w = Value.object pairs
  := by
  cases h with
  | leaf fits => contradiction
  | null => contradiction
  | part offered names h => exact ⟨_, rfl⟩

theorem given_of_required (h : Travels (.part true kind fields) r w) :
  r ≠ .null
  := by
  cases h with
  | leaf fits => contradiction
  | part offered names h => simp

/-- A gap of a record is filled along with that of its data. -/
theorem fillAttr_travels (hpart : RegularPart kind fields)
    (h : Travels (.part required kind fields) r w) (hgiven : r ≠ .null)
    {wire attr : String} (hf : (⟨wire, attr⟩, .text) ∈ fields) {v : Value}
    (hv : ∃ s, v = .text s) :
  ∃ r', fillAttr attr v r = .done r' ∧ r' ≠ .null ∧
    Travels (.part required kind fields) r' (w.fillEntry wire v)
  := by
  obtain ⟨hattr, -⟩ := attr_leaf hpart h hgiven hf rfl
  obtain ⟨attrs, rfl⟩ := exists_record h hgiven
  rw [fillAttr, hattr, Value.fillEntry]
  simp only
  split
  · exact ⟨_, rfl, hgiven, h⟩
  · exact ⟨_, rfl, by simp [Value.setAttr], h.setAttr hpart hgiven hf (.leaf (.inr hv))⟩

/-- A gap among the attributes of a record is filled along with that of its data. -/
theorem fillGap_travels (hpart : RegularPart kind fields) {attrs : List (String × Value)}
    (h : Travels (.part required kind fields) (.record kind attrs) w)
    {wire attr : String} (hf : (⟨wire, attr⟩, .text) ∈ fields) {v : Value}
    (hv : ∃ s, v = .text s) :
  Travels (.part required kind fields) (.record kind (fillGap attr v attrs))
    (w.fillEntry wire v)
  := by
  obtain ⟨r', hdone, -, htravels⟩ := fillAttr_travels hpart h (by simp) hf hv
  have hattr : (Value.record kind attrs).attr attr = .ok ((attrs.lookup attr).getD .null) := by
    have hdeclared := hpart.declared _ hf
    rw [Value.attr]
    cases attrs.lookup attr <;> simp [hdeclared]
  have hr' : r' = .record kind (fillGap attr v attrs) := by
    rw [fillAttr, hattr] at hdone
    rw [fillGap, ← (Attempt.mk.inj hdone).1]
    split <;> rfl
  rw [← hr']
  exact htravels

/-- A record without attributes travels as the data without any of the fields. -/
theorem travels_empty (hpart : RegularPart kind fields)
    (h : ∀ f ∈ fields, Travels f.2 .null (vacant f.2)) :
  Travels (.part required kind fields) (.record kind [])
    (Value.object (vacantPairs fields))
  := by
  rw [vacantPairs_eq]
  refine .part ?_ ?_ ?_
  · simp
  · rw [List.map_map]
    rfl
  · intro f hf
    rw [lookup_wires hpart.wires_nodup _ hf]
    exact h f hf

end Part

/-! ### The parts that are managed -/

theorem fillManagedFileStore_travels {d : Defaults} (hd : d.AreTexts) {required : Bool}
    {attrs : List (String × Value)} {w : Value}
    (h : Travels (Schema.managedFileStore.toShape required) (.record .managedFileStore attrs) w) :
  Travels (Schema.managedFileStore.toShape required)
    (.record .managedFileStore (fillManagedFileStore d attrs)) (w.fillManagedFileStoreData d)
  := by
  apply fillGap_travels regularPart_managedFileStore h _ hd.fileStoreSize
  simp [Schema.managedFileStore, Schema.renamed]

theorem fillManagedDatabase_travels {d : Defaults} (hd : d.AreTexts) {required : Bool}
    {attrs : List (String × Value)} {w : Value}
    (h : Travels (Schema.managedDatabase.toShape required) (.record .managedDatabase attrs) w) :
  Travels (Schema.managedDatabase.toShape required)
    (.record .managedDatabase (fillManagedDatabase d attrs)) (w.fillManagedDatabaseData d)
  := by
  apply fillGap_travels regularPart_managedDatabase _ _ hd.databaseSize
  · apply fillGap_travels regularPart_managedDatabase h _ hd.databaseType
    simp [Schema.managedDatabase, Schema.field]
  · simp [Schema.managedDatabase, Schema.renamed]

/-- A managed file store that is put in travels without any of its fields. -/
theorem emptyFileStore_travels :
  Travels (Schema.managedFileStore.toShape false) (.record Schema.managedFileStore.kind [])
    (Value.object (vacantPairs Schema.managedFileStore.fields))
  := by
  apply travels_empty regularPart_managedFileStore
  simp only [Schema.managedFileStore, Schema.field, Schema.renamed, List.forall_mem_cons,
    List.not_mem_nil, false_implies, implies_true, and_true]
  exact ⟨.leaf (.inl rfl), .leaf (.inl rfl), .leaf (.inl rfl)⟩

/-- A managed database that is put in travels without any of its fields. -/
theorem emptyDatabase_travels :
  Travels (Schema.managedDatabase.toShape false) (.record Schema.managedDatabase.kind [])
    (Value.object (vacantPairs Schema.managedDatabase.fields))
  := by
  apply travels_empty regularPart_managedDatabase
  simp only [Schema.managedDatabase, Schema.field, Schema.renamed, List.forall_mem_cons,
    List.not_mem_nil, false_implies, implies_true, and_true]
  exact ⟨.leaf (.inl rfl), .leaf (.inl rfl), .leaf (.inl rfl), .leaf (.inl rfl),
    .leaf (.inl rfl)⟩

theorem fillPart_managedFileStore {d : Defaults} (hd : d.AreTexts) {r w : Value}
    (hgiven : r ≠ .null) (h : Travels (Schema.managedFileStore.toShape false) r w) :
  ∃ r', fillPart d r = .done r' ∧
    Travels (Schema.managedFileStore.toShape false) r' (w.fillManagedFileStoreData d)
  := by
  obtain ⟨attrs, rfl⟩ : ∃ attrs, r = .record .managedFileStore attrs := exists_record h hgiven
  refine ⟨_, ?_, fillManagedFileStore_travels hd h⟩
  rw [fillPart, h.offers hgiven (by decide)]

theorem fillPart_managedDatabase {d : Defaults} (hd : d.AreTexts) {r w : Value}
    (hgiven : r ≠ .null) (h : Travels (Schema.managedDatabase.toShape false) r w) :
  ∃ r', fillPart d r = .done r' ∧
    Travels (Schema.managedDatabase.toShape false) r' (w.fillManagedDatabaseData d)
  := by
  obtain ⟨attrs, rfl⟩ : ∃ attrs, r = .record .managedDatabase attrs := exists_record h hgiven
  refine ⟨_, ?_, fillManagedDatabase_travels hd h⟩
  rw [fillPart, h.offers hgiven (by decide)]

/-! ### File store and database -/

/-- The filling of the managed part among attributes, by what is found there. -/
theorem fillManaged_eq (d : Defaults) (fresh : Value) (attrs : List (String × Value)) :
  fillManaged d fresh attrs =
    if ((attrs.lookup "operator_managed").getD .null).isNull then
      .done (Assoc.insert "operator_managed" fresh attrs)
    else (fillPart d ((attrs.lookup "operator_managed").getD .null)).map fun v =>
      Assoc.insert "operator_managed" v attrs
  := by
  induction attrs with
  | nil => simp [fillManaged, Value.isNull]
  | cons p attrs ih =>
    obtain ⟨name, v⟩ := p
    rw [fillManaged, ih]
    by_cases hname : name = "operator_managed"
    · subst hname
      simp only [List.lookup_cons, Assoc.insert, beq_self_eq_true, Option.getD_some, if_true]
    · have hne : ("operator_managed" == name) = false := by simpa using Ne.symm hname
      simp only [hname, if_false, List.lookup_cons, hne, Assoc.insert]
      split <;> rfl

/-- The managed part of a record is filled along with that of its data. -/
theorem fillManaged_travels {d : Defaults} {schema : Schema} {fresh : Value}
    {fill : Value → Value} {required : Bool} {kind : Kind} {fields : List (Slot × Shape)}
    {attrs : List (String × Value)} {w : Value} (hpart : RegularPart kind fields)
    (hf : (⟨"operatorManaged", "operator_managed"⟩, schema.toShape false) ∈ fields)
    (hfresh : Travels (schema.toShape false) fresh
      (fill (Value.object (vacantPairs schema.fields))))
    (hfill : ∀ r w, r ≠ .null → Travels (schema.toShape false) r w →
      ∃ r', fillPart d r = .done r' ∧ Travels (schema.toShape false) r' (fill w))
    (h : Travels (.part required kind fields) (.record kind attrs) w) :
  ∃ attrs', fillManaged d fresh attrs = .done attrs' ∧
    Travels (.part required kind fields) (.record kind attrs') (w.fillManagedData fill schema)
  := by
  obtain ⟨x, hattr, hx⟩ := h.attr hpart (by simp) hf
  obtain rfl : (attrs.lookup "operator_managed").getD .null = x := by
    have hdeclared := hpart.declared _ hf
    rw [Value.attr] at hattr
    cases hfound : attrs.lookup "operator_managed" <;> simp_all
  have hset {y z : Value} (hyz : Travels (schema.toShape false) y z) :
      Travels (.part required kind fields)
        (.record kind (Assoc.insert "operator_managed" y attrs))
        (w.setEntry "operatorManaged" z) :=
    h.setAttr hpart (by simp) hf hyz
  rw [fillManaged_eq, Value.fillManagedData, Value.managedData]
  by_cases hnull : (attrs.lookup "operator_managed").getD .null = .null
  · rw [if_pos (Value.isNull_iff.mpr hnull),
      if_pos (Value.isNull_iff.mpr (hx.eq_null_iff.mp hnull))]
    exact ⟨_, rfl, hset hfresh⟩
  · rw [if_neg (mt Value.isNull_iff.mp hnull),
      if_neg (mt Value.isNull_iff.mp (mt hx.eq_null_iff.mpr hnull))]
    obtain ⟨r', hr', htravels⟩ := hfill _ _ hnull hx
    rw [hr']
    exact ⟨_, rfl, hset htravels⟩

/-- Whether a part of a record is set can be told from its data. -/
theorem tells_travels {required : Bool} {kind : Kind} {fields : List (Slot × Shape)}
    {r w : Value} (hpart : RegularPart kind fields)
    (h : Travels (.part required kind fields) r w) (hgiven : r ≠ .null) {operation : String}
    (hoperation : operation ∈ kind.operations) {wire attr : String} {shape : Shape}
    (hf : (⟨wire, attr⟩, shape) ∈ fields) :
  r.tells operation attr = .ok !(w.under wire).isNull
  := by
  obtain ⟨x, hattr, hx⟩ := h.attr hpart hgiven hf
  have hnull : x.isNull = (w.under wire).isNull := by
    rw [Bool.eq_iff_iff, Value.isNull_iff, Value.isNull_iff]
    exact hx.eq_null_iff
  rw [Value.tells, h.offers hgiven hoperation, ← hnull]
  change (r.attr attr).bind (fun x => .ok !x.isNull) = _
  rw [hattr]
  rfl

theorem fillPart_fileStore {d : Defaults} (hd : d.AreTexts) {r w : Value}
    (h : Travels (Schema.fileStore.toShape true) r w) :
  ∃ r', fillPart d r = .done r' ∧
    Travels (Schema.fileStore.toShape true) r' (w.fillFileStoreData d)
  := by
  have hgiven := given_of_required h
  obtain ⟨attrs, rfl⟩ : ∃ attrs, r = .record .fileStore attrs := exists_record h hgiven
  have hexternal : (Value.record .fileStore attrs).isExternal =
      .ok !(w.under "external").isNull :=
    tells_travels regularPart_fileStore h hgiven (by decide) (.head _)
  have hvolume : (Value.record .fileStore attrs).isExternalVolume =
      .ok !(w.under "externalVolume").isNull :=
    tells_travels regularPart_fileStore h hgiven (by decide) (.tail _ (.head _))
  have helsewhere : (Value.record .fileStore attrs).isElsewhere =
      .ok (!((w.under "external").isNull && (w.under "externalVolume").isNull)) := by
    rw [Value.isElsewhere, hexternal, hvolume]
    cases (w.under "external").isNull <;> cases (w.under "externalVolume").isNull <;> rfl
  obtain ⟨attrs', hdone, htravels⟩ := fillManaged_travels regularPart_fileStore
    (Schema.fileStore.mem_fields "operatorManaged" rfl)
    (fillManagedFileStore_travels hd emptyFileStore_travels)
    (fun r w => fillPart_managedFileStore hd) h
  rw [fillPart, h.offers hgiven (by decide), helsewhere, Value.fillFileStoreData]
  cases (w.under "external").isNull && (w.under "externalVolume").isNull with
  | true =>
    simp only [Bool.not_true, if_true]
    rw [freshFileStore, hdone]
    exact ⟨_, rfl, htravels⟩
  | false => exact ⟨_, rfl, h⟩

theorem fillPart_database {d : Defaults} (hd : d.AreTexts) {r w : Value}
    (h : Travels (Schema.database.toShape true) r w) :
  ∃ r', fillPart d r = .done r' ∧
    Travels (Schema.database.toShape true) r' (w.fillDatabaseData d)
  := by
  have hgiven := given_of_required h
  obtain ⟨attrs, rfl⟩ : ∃ attrs, r = .record .database attrs := exists_record h hgiven
  have hexternal : (Value.record .database attrs).isExternal =
      .ok !(w.under "external").isNull :=
    tells_travels regularPart_database h hgiven (by decide) (.head _)
  obtain ⟨attrs', hdone, htravels⟩ := fillManaged_travels regularPart_database
    (Schema.database.mem_fields "operatorManaged" rfl)
    (fillManagedDatabase_travels hd emptyDatabase_travels)
    (fun r w => fillPart_managedDatabase hd) h
  rw [fillPart, h.offers hgiven (by decide), hexternal, Value.fillDatabaseData]
  cases (w.under "external").isNull with
  | true =>
    simp only [Bool.not_true, if_true]
    rw [freshDatabase, hdone]
    exact ⟨_, rfl, htravels⟩
  | false => exact ⟨_, rfl, h⟩

/-! ### The spec -/

/-- The annotations of an ingress can be read. -/
theorem optionalEntries_fits {v : Value} (h : Shape.textMap.Fits v) :
  ∃ entries, optionalEntries v = .ok entries
  := by
  obtain rfl | ⟨pairs, rfl, -, -⟩ := h
  · exact ⟨[], rfl⟩
  · rw [optionalEntries]
    split
    · exact ⟨named pairs, rfl⟩
    · exact ⟨[], rfl⟩

/-- A text that may be left out is a text. -/
theorem exists_text_orElse {v : Value} (h : Shape.text.Fits v) :
  ∃ s, v.orElse (.text "") = .text s
  := by
  obtain rfl | ⟨s, rfl⟩ := h
  · exact ⟨"", rfl⟩
  · rw [Value.orElse]
    split
    · exact ⟨s, rfl⟩
    · exact ⟨"", rfl⟩

theorem viewOfIngress_travels {r w : Value} (hgiven : r ≠ .null)
    (h : Travels (Schema.ingress.toShape false) r w) :
  ∃ view, viewOfIngress r = .ok view ∧ view.enabled = (w.under "enabled").truthy ∧
    view.host = (w.under "host").orElse (.text "")
  := by
  have hpart := regularPart_ingress
  obtain ⟨henabled, -⟩ := attr_leaf hpart h hgiven (.head _) rfl
  obtain ⟨hhost, -⟩ := attr_leaf hpart h hgiven (.tail _ (.head _)) rfl
  obtain ⟨hannotations, hfits⟩ := attr_leaf hpart h hgiven (.tail _ (.tail _ (.head _))) rfl
  obtain ⟨htls, -⟩ := attr_leaf hpart h hgiven (.tail _ (.tail _ (.tail _ (.head _)))) rfl
  obtain ⟨entries, hentries⟩ := optionalEntries_fits hfits
  unfold viewOfIngress
  rw [henabled, hhost, hannotations, htls]
  simp only [bind, Except.bind, hentries]
  exact ⟨_, rfl, rfl, rfl⟩

theorem viewOfSpec_travels {r w : Value} (h : Travels (Schema.spec.toShape true) r w) :
  ∃ view, viewOfSpec r = .ok view ∧ view.enabled = true ∧
    view.host = (w.under "ingressName").orElse (.text "")
  := by
  have hpart := regularPart_spec
  have hgiven := given_of_required h
  obtain ⟨hhost, htext⟩ := attr_leaf hpart h hgiven (Schema.spec.mem_fields "ingressName" rfl) rfl
  obtain ⟨hannotations, hfits⟩ :=
    attr_leaf hpart h hgiven (Schema.spec.mem_fields "ingressAnnotations" rfl) rfl
  obtain ⟨htls, -⟩ := attr_leaf hpart h hgiven (Schema.spec.mem_fields "useIngressTLS" rfl) rfl
  obtain ⟨entries, hentries⟩ := optionalEntries_fits hfits
  obtain ⟨host, hname⟩ := exists_text_orElse htext
  unfold viewOfSpec
  rw [hhost, hannotations, htls]
  simp only [bind, Except.bind, hentries, hname, defaultTlsSecret]
  split
  · exact ⟨_, rfl, rfl, rfl⟩
  · exact ⟨_, rfl, rfl, rfl⟩

/-- How a spec is reached can be told from its data. -/
theorem resolveIngress_travels {r w : Value} (h : Travels (Schema.spec.toShape true) r w) :
  ∃ view, resolveIngress r = .ok view ∧ view.enabled = w.isReached ∧ view.host = w.hostOf
  := by
  have hgiven := given_of_required h
  obtain ⟨x, hattr, hx⟩ := h.attr regularPart_spec hgiven (Schema.spec.mem_fields "ingress" rfl)
  simp only at hattr hx
  rw [resolveIngress, hattr]
  by_cases hnull : x = .null
  · obtain rfl := hnull
    have hdata := hx.eq_null_iff.mp rfl
    obtain ⟨view, hview, henabled, hhost⟩ := viewOfSpec_travels h
    refine ⟨view, hview, ?_, ?_⟩
    · rw [henabled, Value.isReached, hdata]
      rfl
    · rw [hhost, Value.hostOf, hdata]
      rfl
  · have hdata := Value.isNull_iff.not.mpr (mt hx.eq_null_iff.mpr hnull)
    obtain ⟨view, hview, henabled, hhost⟩ := viewOfIngress_travels hnull hx
    refine ⟨view, ?_, ?_, ?_⟩
    · cases x with
      | null => exact absurd rfl hnull
      | _ => exact hview
    · rw [henabled, Value.isReached, Bool.eq_false_iff.mpr hdata, Bool.false_or]
    · rw [hhost, Value.hostOf, if_neg hdata]

/-- The gaps of a part of a spec are filled along with those of its data. -/
theorem fillPartAt_travels {d : Defaults} {schema : Schema} {fill : Value → Value}
    {wire attr : String} {r w : Value}
    (hf : (⟨wire, attr⟩, schema.toShape true) ∈ Schema.spec.fields)
    (hfill : ∀ r w, Travels (schema.toShape true) r w →
      ∃ r', fillPart d r = .done r' ∧ Travels (schema.toShape true) r' (fill w))
    (h : Travels (Schema.spec.toShape true) r w) :
  ∃ r', fillPartAt d attr r = .done r' ∧
    Travels (Schema.spec.toShape true) r' (w.fillUnder wire fill)
  := by
  have hgiven := given_of_required h
  obtain ⟨x, hattr, hx⟩ := h.attr regularPart_spec hgiven hf
  obtain ⟨y, hdone, hy⟩ := hfill x _ hx
  refine ⟨r.setAttr attr y, ?_, h.setAttr regularPart_spec hgiven hf hy⟩
  simp only at hattr
  rw [fillPartAt, hattr]
  simp only
  rw [hdone, Attempt.map_done]

/-- A required part is there. -/
theorem addPart_travels {schema : Schema} {wire attr : String} {r w : Value} (kind : Kind)
    (hf : (⟨wire, attr⟩, schema.toShape true) ∈ Schema.spec.fields)
    (h : Travels (Schema.spec.toShape true) r w) :
  addPart attr kind r = .done r
  := by
  obtain ⟨x, hattr, hx⟩ := h.attr regularPart_spec (given_of_required h) hf
  have hgiven := given_of_required hx
  simp only at hattr
  rw [addPart, hattr]
  simp only
  rw [if_neg (mt Value.isNull_iff.mp hgiven)]

/-- A spec that travels is stopped where its data is blocked, and otherwise travels as the
filled data once its gaps are filled. -/
theorem fillSpec_travels {d : Defaults} (hd : d.AreTexts) {r w : Value}
    (h : Travels (Schema.spec.toShape true) r w) :
  if w.isBlocked then fillSpec d r = .failed r .hostRequired
  else ∃ r', fillSpec d r = .done r' ∧
    Travels (Schema.spec.toShape true) r' (w.fillData d)
  := by
  obtain ⟨view, hview, henabled, hhost⟩ := resolveIngress_travels h
  have hblocked : (view.enabled && !view.host.truthy) = w.isBlocked := by
    rw [henabled, hhost, Value.isBlocked]
  rw [fillSpec, hview]
  simp only [hblocked]
  cases w.isBlocked with
  | true => rfl
  | false =>
    simp only [Bool.false_eq_true, if_false]
    obtain ⟨r₁, hdone₁, hgiven₁, h₁⟩ := fillAttr_travels regularPart_spec h (given_of_required h)
      (Schema.spec.mem_fields "image" rfl) hd.image
    obtain ⟨r₂, hdone₂, hgiven₂, h₂⟩ := fillAttr_travels regularPart_spec h₁ hgiven₁
      (Schema.spec.mem_fields "version" rfl) hd.version
    obtain ⟨r₃, hdone₃, hgiven₃, h₃⟩ := fillAttr_travels regularPart_spec h₂ hgiven₂
      (Schema.spec.mem_fields "imagePullPolicy" rfl) hd.pullPolicy
    obtain ⟨r₄, hdone₄, h₄⟩ := fillPartAt_travels (Schema.spec.mem_fields "fileStore" rfl)
      (fun r w => fillPart_fileStore hd) h₃
    obtain ⟨r₅, hdone₅, h₅⟩ := fillPartAt_travels (Schema.spec.mem_fields "database" rfl)
      (fun r w => fillPart_database hd) h₄
    refine ⟨r₅, ?_, h₅⟩
    rw [hdone₁, Attempt.andThen_done, hdone₂, Attempt.andThen_done, hdone₃, Attempt.andThen_done,
      addPart_travels .fileStore (Schema.spec.mem_fields "fileStore" rfl) h₃, Attempt.andThen_done,
      addPart_travels .database (Schema.spec.mem_fields "database" rfl) h₃, Attempt.andThen_done,
      hdone₄, Attempt.andThen_done, hdone₅]

end Installation

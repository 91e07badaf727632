import Installation.Proofs.Gaps.Fill
import Installation.Proofs.Schema.Growth

/-!
# Settled data

Data is `Settled` for defaults when each of its gaps is filled, with a text that is not empty
or with the default itself.  Filling the gaps of settled data changes nothing, and data whose
gaps were filled is settled for the same defaults, and for all others where none of the first
ones was empty.  Filling gaps lets data grow.
-/

namespace Installation

open Shape Value

/-- A value in the place of a gap that a default leaves as it is. -/
def Filled (x v : Value) : Prop := ∃ s, v = .text s ∧ (s ≠ "" ∨ x = .text s)

/-- Data whose gaps are filled as far as defaults can tell. -/
structure Settled (d : Defaults) (w : Value) : Prop where
  image : Filled d.image (w.under "image")
  version : Filled d.version (w.under "version")
  pullPolicy : Filled d.pullPolicy (w.under "imagePullPolicy")
  fileStore : ((w.under "fileStore").under "external" ≠ .null ∨
      (w.under "fileStore").under "externalVolume" ≠ .null) ∨
    Filled d.fileStoreSize (((w.under "fileStore").under "operatorManaged").under "storageSize")
  database : (w.under "database").under "external" ≠ .null ∨
    Filled d.databaseType (((w.under "database").under "operatorManaged").under "type") ∧
    Filled d.databaseSize (((w.under "database").under "operatorManaged").under "storageSize")

theorem Filled.ne_null {x v : Value} (h : Filled x v) :
  v ≠ .null
  := by
  obtain ⟨s, rfl, -⟩ := h
  simp

/-! ### Filling settled data -/

theorem fillEntry_of_filled {v x : Value} {name : String} (hv : v.IsJson)
    (h : Filled x (v.under name)) :
  v.fillEntry name x = v
  := by
  rw [fillEntry]
  split
  · rfl
  · rename_i hnot
    obtain ⟨s, hs, hgiven | rfl⟩ := h
    · simp [hs, truthy, hgiven] at hnot
    · rw [← hs]
      exact setEntry_under hv (by simp [hs])

theorem fillManagedData_of_filled {fill : Value → Value} {schema : Schema} {w : Value}
    (hw : w.IsJson) (hgiven : w.under "operatorManaged" ≠ .null)
    (hfill : fill (w.under "operatorManaged") = w.under "operatorManaged") :
  w.fillManagedData fill schema = w
  := by
  rw [fillManagedData, managedData, if_neg (mt isNull_iff.mp hgiven), hfill]
  exact setEntry_under hw hgiven

theorem under_ne_null {v : Value} {name : String} (h : v.under name ≠ .null) :
  v ≠ .null
  := by
  rintro rfl
  exact h rfl

/-- Filling the gaps of settled data changes nothing. -/
theorem fillData_of_settled {d : Defaults} {w : Value} (hw : w.IsJson) (h : Settled d w) :
  w.fillData d = w
  := by
  have hown : w.fillOwnData d = w := by
    rw [fillOwnData, fillEntry_of_filled hw h.image, fillEntry_of_filled hw h.version,
      fillEntry_of_filled hw h.pullPolicy]
  have hfileStore : w.under "fileStore" ≠ .null ∧
      (w.under "fileStore").fillFileStoreData d = w.under "fileStore" := by
    rw [fillFileStoreData]
    obtain (hgiven | hgiven) | hfilled := h.fileStore
    · exact ⟨under_ne_null hgiven, if_neg (by simp [hgiven])⟩
    · exact ⟨under_ne_null hgiven, if_neg (by simp [hgiven])⟩
    · have hmanaged := under_ne_null hfilled.ne_null
      refine ⟨under_ne_null hmanaged, ?_⟩
      rw [fillManagedData_of_filled (hw.under _) hmanaged, ite_self]
      exact fillEntry_of_filled ((hw.under _).under _) hfilled
  have hdatabase : w.under "database" ≠ .null ∧
      (w.under "database").fillDatabaseData d = w.under "database" := by
    rw [fillDatabaseData]
    obtain hgiven | ⟨htype, hsize⟩ := h.database
    · exact ⟨under_ne_null hgiven, if_neg (by simp [hgiven])⟩
    · have hmanaged := under_ne_null htype.ne_null
      refine ⟨under_ne_null hmanaged, ?_⟩
      rw [fillManagedData_of_filled (hw.under _) hmanaged, ite_self]
      rw [fillManagedDatabaseData, fillEntry_of_filled ((hw.under _).under _) htype,
        fillEntry_of_filled ((hw.under _).under _) hsize]
  have hleft : w.fillUnder "fileStore" (fillFileStoreData d) = w := by
    rw [fillUnder, hfileStore.2, setEntry_under hw hfileStore.1]
  have hright : w.fillUnder "database" (fillDatabaseData d) = w := by
    rw [fillUnder, hdatabase.2, setEntry_under hw hdatabase.1]
  rw [fillData, hown, hleft, hright]

/-! ### Settled up to nulls -/

/-- JSON data that differs in no more than nulls. -/
structure SameData (v w : Value) : Prop where
  left : v.IsJson
  right : w.IsJson
  eq : v.dropNulls = w.dropNulls

namespace SameData

variable {v w : Value} (h : SameData v w)

include h

theorem under (name : String) :
  SameData (v.under name) (w.under name)
  where
    left := h.left.under name
    right := h.right.under name
    eq := by rw [← h.left.under_dropNulls, ← h.right.under_dropNulls, h.eq]

theorem null_iff :
  v = .null ↔ w = .null
  := by
  rw [← dropNulls_eq_null, h.eq, dropNulls_eq_null]

theorem filled {x : Value} (hv : Filled x v) :
  Filled x w
  := by
  obtain ⟨s, rfl, hs⟩ := hv
  have heq := h.eq
  rw [dropNulls_text] at heq
  exact ⟨s, dropNulls_eq_text.mp heq.symm, hs⟩

theorem settled {d : Defaults} (hv : Settled d v) :
  Settled d w
  where
    image := (h.under _).filled hv.image
    version := (h.under _).filled hv.version
    pullPolicy := (h.under _).filled hv.pullPolicy
    fileStore := hv.fileStore.imp
      (Or.imp (mt ((h.under _).under _).null_iff.mpr) (mt ((h.under _).under _).null_iff.mpr))
      (((h.under _).under _).under _).filled
    database := hv.database.imp (mt ((h.under _).under _).null_iff.mpr)
      (And.imp (((h.under _).under _).under _).filled (((h.under _).under _).under _).filled)

end SameData

/-! ### Filled data is settled -/

/-- Defaults that leave alone what other ones have filled in: each of them is the same, or the
other one is not empty. -/
structure Persist (d d' : Defaults) : Prop where
  image : d'.image = d.image ∨ d.image.truthy
  version : d'.version = d.version ∨ d.version.truthy
  pullPolicy : d'.pullPolicy = d.pullPolicy ∨ d.pullPolicy.truthy
  fileStoreSize : d'.fileStoreSize = d.fileStoreSize ∨ d.fileStoreSize.truthy
  databaseType : d'.databaseType = d.databaseType ∨ d.databaseType.truthy
  databaseSize : d'.databaseSize = d.databaseSize ∨ d.databaseSize.truthy

/-- Defaults persist where they stay the same, and where none of them is empty. -/
theorem persist {d d' : Defaults} (h : d' = d ∨ ∀ p ∈ d.toPairs, p.2.truthy) :
  Persist d d'
  := by
  obtain rfl | h := h
  · exact ⟨.inl rfl, .inl rfl, .inl rfl, .inl rfl, .inl rfl, .inl rfl⟩
  · simp only [Defaults.toPairs, List.forall_mem_cons] at h
    obtain ⟨himage, hversion, hpolicy, hfile, htype, hsize, -⟩ := h
    exact ⟨.inr himage, .inr hversion, .inr hpolicy, .inr hfile, .inr htype, .inr hsize⟩

theorem filled_of_persist {x x' : Value} (hx : ∃ s, x = .text s) (h : x' = x ∨ x.truthy) :
  Filled x' x
  := by
  obtain ⟨s, rfl⟩ := hx
  obtain rfl | h := h
  · exact ⟨s, rfl, .inr rfl⟩
  · exact ⟨s, rfl, .inl (by simpa [truthy] using h)⟩

theorem under_fillEntry_ne {name other : String} (h : other ≠ name) (v x : Value) :
  (v.fillEntry name x).under other = v.under other
  := by
  rw [fillEntry]
  split
  · rfl
  · exact under_setEntry_ne h v x

/-- A gap that was filled is filled. -/
theorem filled_fillEntry {v x x' : Value} {name : String} (hdict : ∃ es, v = .dict es)
    (hfits : Shape.text.Fits (v.under name)) (hx : ∃ s, x = .text s)
    (h : x' = x ∨ x.truthy) :
  Filled x' ((v.fillEntry name x).under name)
  := by
  rw [fillEntry]
  split
  · rename_i hgiven
    obtain hnull | ⟨s, hs⟩ := hfits
    · simp [hnull, truthy] at hgiven
    · exact ⟨s, hs, .inl (by simpa [hs, truthy] using hgiven)⟩
  · obtain ⟨es, rfl⟩ := hdict
    rw [under_setEntry_dict]
    exact filled_of_persist hx h

theorem exists_dict_fillEntry {v x : Value} {name : String} (h : ∃ es, v = .dict es) :
  ∃ es, v.fillEntry name x = .dict es
  := by
  obtain ⟨es, rfl⟩ := h
  rw [fillEntry]
  split
  · exact ⟨es, rfl⟩
  · exact ⟨_, rfl⟩

/-! ### What is under the names of filled data -/

theorem under_fillUnder_ne {name other : String} (h : other ≠ name) (fill : Value → Value)
    (w : Value) :
  (w.fillUnder name fill).under other = w.under other
  := under_setEntry_ne h w _

theorem under_fillUnder {w : Value} (hdict : ∃ es, w = .dict es) (name : String)
    (fill : Value → Value) :
  (w.fillUnder name fill).under name = fill (w.under name)
  := by
  obtain ⟨es, rfl⟩ := hdict
  exact under_setEntry_dict name _ es

theorem exists_dict_fillUnder {w : Value} (hdict : ∃ es, w = .dict es) (name : String)
    (fill : Value → Value) :
  ∃ es, w.fillUnder name fill = .dict es
  := by
  obtain ⟨es, rfl⟩ := hdict
  exact ⟨_, rfl⟩

theorem exists_dict_fillOwnData {w : Value} (hdict : ∃ es, w = .dict es) (d : Defaults) :
  ∃ es, w.fillOwnData d = .dict es
  := exists_dict_fillEntry (exists_dict_fillEntry (exists_dict_fillEntry hdict))

theorem under_fillOwnData_ne {other : String} (h : other ∉ ["image", "version", "imagePullPolicy"])
    (d : Defaults) (w : Value) :
  (w.fillOwnData d).under other = w.under other
  := by
  simp only [List.mem_cons, List.not_mem_nil, or_false, not_or] at h
  rw [fillOwnData, under_fillEntry_ne h.2.2, under_fillEntry_ne h.2.1, under_fillEntry_ne h.1]

theorem under_fillData_ne {other : String} (h : other ∉ ["fileStore", "database"])
    (d : Defaults) (w : Value) :
  (w.fillData d).under other = (w.fillOwnData d).under other
  := by
  simp only [List.mem_cons, List.not_mem_nil, or_false, not_or] at h
  rw [fillData, under_fillUnder_ne h.2, under_fillUnder_ne h.1]

theorem under_fillData_fileStore {w : Value} (hdict : ∃ es, w = .dict es) (d : Defaults) :
  (w.fillData d).under "fileStore" = (w.under "fileStore").fillFileStoreData d
  := by
  rw [fillData, under_fillUnder_ne (by decide), under_fillUnder (exists_dict_fillOwnData hdict d),
    under_fillOwnData_ne (by decide)]

theorem under_fillData_database {w : Value} (hdict : ∃ es, w = .dict es) (d : Defaults) :
  (w.fillData d).under "database" = (w.under "database").fillDatabaseData d
  := by
  rw [fillData, under_fillUnder (exists_dict_fillUnder (exists_dict_fillOwnData hdict d) _ _),
    under_fillUnder_ne (by decide), under_fillOwnData_ne (by decide)]

section Travels

variable {d d' : Defaults} (hd : d.AreTexts) (hpersist : Persist d d') {required : Bool}
  {r w : Value}

include hd hpersist

theorem filled_managedFileStore (hgiven : r ≠ .null)
    (h : Travels (Schema.managedFileStore.toShape required) r w) :
  Filled d'.fileStoreSize ((w.fillManagedFileStoreData d).under "storageSize")
  := by
  obtain ⟨pairs, rfl⟩ := exists_object h hgiven
  obtain ⟨-, hfits⟩ := attr_leaf regularPart_managedFileStore h hgiven (.tail _ (.head _)) rfl
  exact filled_fillEntry ⟨_, rfl⟩ hfits hd.fileStoreSize hpersist.fileStoreSize

theorem filled_managedDatabase (hgiven : r ≠ .null)
    (h : Travels (Schema.managedDatabase.toShape required) r w) :
  Filled d'.databaseType ((w.fillManagedDatabaseData d).under "type") ∧
  Filled d'.databaseSize ((w.fillManagedDatabaseData d).under "storageSize")
  := by
  obtain ⟨pairs, rfl⟩ := exists_object h hgiven
  obtain ⟨-, htype⟩ := attr_leaf regularPart_managedDatabase h hgiven (.head _) rfl
  obtain ⟨-, hsize⟩ := attr_leaf regularPart_managedDatabase h hgiven
    (.tail _ (.tail _ (.head _))) rfl
  constructor
  · rw [fillManagedDatabaseData, under_fillEntry_ne (by decide)]
    exact filled_fillEntry ⟨_, rfl⟩ htype hd.databaseType hpersist.databaseType
  · apply filled_fillEntry (exists_dict_fillEntry ⟨_, rfl⟩) _ hd.databaseSize
      hpersist.databaseSize
    rw [under_fillEntry_ne (by decide)]
    exact hsize

end Travels

section Managed

variable {schema : Schema} {required : Bool} {kind : Kind} {fields : List (Slot × Shape)}
  {r w : Value}

/-- The managed part in the data of a record is that of a record. -/
theorem managedData_travels (hpart : RegularPart kind fields)
    (hf : (⟨"operatorManaged", "operator_managed"⟩, schema.toShape false) ∈ fields)
    (hempty : Travels (schema.toShape false) (.record schema.kind [])
      (object (vacantPairs schema.fields)))
    (hgiven : r ≠ .null) (h : Travels (.part required kind fields) r w) :
  ∃ x, x ≠ .null ∧ Travels (schema.toShape false) x (w.managedData schema)
  := by
  obtain ⟨x, -, hx⟩ := h.attr hpart hgiven hf
  rw [managedData]
  split
  · exact ⟨_, by simp, hempty⟩
  · rename_i hnull
    exact ⟨x, mt hx.eq_null_iff.mp (mt isNull_iff.mpr hnull), hx⟩

/-- The managed part in data is null or there as it is. -/
theorem managedData_grows (hpart : RegularPart kind fields)
    (hf : (⟨"operatorManaged", "operator_managed"⟩, schema.toShape false) ∈ fields)
    (hgiven : r ≠ .null) (h : Travels (.part required kind fields) r w) :
  Grows (schema.toShape false) (w.under "operatorManaged") (w.managedData schema)
  := by
  obtain ⟨x, -, hx⟩ := h.attr hpart hgiven hf
  rw [managedData]
  split
  · rename_i hnull
    have hmanaged := regularPart (hpart.fields_regular _ hf)
    rw [isNull_iff.mp hnull, vacantPairs_eq]
    refine .added ?_ fun f hf => ?_
    · rw [List.map_map]
      rfl
    · rw [lookup_wires hmanaged.wires_nodup _ hf]
      exact Grows.refl (travels_absent (hmanaged.fields_regular f hf))
  · exact Grows.refl hx

end Managed

section Filled

variable {d d' : Defaults} (hd : d.AreTexts) (hpersist : Persist d d') {r w : Value}

include hd hpersist

theorem settled_fileStore (h : Travels (Schema.fileStore.toShape true) r w) :
  ((w.fillFileStoreData d).under "external" ≠ .null ∨
    (w.fillFileStoreData d).under "externalVolume" ≠ .null) ∨
  Filled d'.fileStoreSize (((w.fillFileStoreData d).under "operatorManaged").under "storageSize")
  := by
  rw [fillFileStoreData]
  split
  · right
    obtain ⟨pairs, rfl⟩ := exists_object h (given_of_required h)
    obtain ⟨x, hgiven, hx⟩ := managedData_travels regularPart_fileStore
      (Schema.fileStore.mem_fields "operatorManaged" rfl) emptyFileStore_travels
      (given_of_required h) h
    rw [fillManagedData, object, under_setEntry_dict]
    exact filled_managedFileStore hd hpersist hgiven hx
  · rename_i hgiven
    left
    simpa [or_iff_not_imp_left] using hgiven

theorem settled_database (h : Travels (Schema.database.toShape true) r w) :
  (w.fillDatabaseData d).under "external" ≠ .null ∨
  Filled d'.databaseType (((w.fillDatabaseData d).under "operatorManaged").under "type") ∧
  Filled d'.databaseSize (((w.fillDatabaseData d).under "operatorManaged").under "storageSize")
  := by
  rw [fillDatabaseData]
  split
  · right
    obtain ⟨pairs, rfl⟩ := exists_object h (given_of_required h)
    obtain ⟨x, hgiven, hx⟩ := managedData_travels regularPart_database
      (Schema.database.mem_fields "operatorManaged" rfl) emptyDatabase_travels
      (given_of_required h) h
    rw [fillManagedData, object, under_setEntry_dict]
    exact filled_managedDatabase hd hpersist hgiven hx
  · rename_i hgiven
    left
    simpa using hgiven

/-- Data whose gaps were filled is settled. -/
theorem settled_fillData (h : Travels (Schema.spec.toShape true) r w) :
  Settled d' (w.fillData d)
  := by
  have hgiven := given_of_required h
  obtain ⟨pairs, hw⟩ := exists_object h hgiven
  have hdict : ∃ es, w = .dict es := ⟨_, hw⟩
  obtain ⟨-, himage⟩ := attr_leaf regularPart_spec h hgiven (Schema.spec.mem_fields "image" rfl) rfl
  obtain ⟨-, hversion⟩ :=
    attr_leaf regularPart_spec h hgiven (Schema.spec.mem_fields "version" rfl) rfl
  obtain ⟨-, hpolicy⟩ :=
    attr_leaf regularPart_spec h hgiven (Schema.spec.mem_fields "imagePullPolicy" rfl) rfl
  obtain ⟨x, -, hx⟩ := h.attr regularPart_spec hgiven (Schema.spec.mem_fields "fileStore" rfl)
  obtain ⟨y, -, hy⟩ := h.attr regularPart_spec hgiven (Schema.spec.mem_fields "database" rfl)
  refine ⟨?_, ?_, ?_, ?_, ?_⟩
  · rw [under_fillData_ne (by decide), fillOwnData, under_fillEntry_ne (by decide),
      under_fillEntry_ne (by decide)]
    exact filled_fillEntry hdict himage hd.image hpersist.image
  · rw [under_fillData_ne (by decide), fillOwnData, under_fillEntry_ne (by decide)]
    apply filled_fillEntry (exists_dict_fillEntry hdict) _ hd.version hpersist.version
    rw [under_fillEntry_ne (by decide)]
    exact hversion
  · rw [under_fillData_ne (by decide), fillOwnData]
    apply filled_fillEntry (exists_dict_fillEntry (exists_dict_fillEntry hdict)) _ hd.pullPolicy
      hpersist.pullPolicy
    rw [under_fillEntry_ne (by decide), under_fillEntry_ne (by decide)]
    exact hpolicy
  · rw [under_fillData_fileStore hdict]
    exact settled_fileStore hd hpersist hx
  · rw [under_fillData_database hdict]
    exact settled_database hd hpersist hy

end Filled

/-! ### Filled data has grown -/

section Grows

variable {required : Bool} {kind : Kind} {fields : List (Slot × Shape)} {w w' : Value}

/-- Grown data with the entry of a field set to what the field has grown to. -/
theorem grows_setEntry (hpart : RegularPart kind fields)
    (h : Grows (.part required kind fields) w w') (hgiven : w' ≠ .null) {wire attr : String}
    {shape : Shape} (hf : (⟨wire, attr⟩, shape) ∈ fields) {y : Value}
    (hy : Grows shape (if w.isNull then vacant shape else w.under wire) y) :
  Grows (.part required kind fields) w (w'.setEntry wire y) ∧ w'.setEntry wire y ≠ .null
  := by
  obtain ⟨others, rfl⟩ := h.exists_object hgiven
  exact ⟨h.setEntry hpart hf hy, by rw [setEntry_object]; simp [object]⟩

theorem grows_fillEntry (hpart : RegularPart kind fields)
    (h : Grows (.part required kind fields) w w') (hgiven : w' ≠ .null) {wire attr : String}
    (hf : (⟨wire, attr⟩, .text) ∈ fields) {x : Value} (hx : ∃ s, x = .text s) :
  Grows (.part required kind fields) w (w'.fillEntry wire x) ∧ w'.fillEntry wire x ≠ .null
  := by
  rw [fillEntry]
  split
  · exact ⟨h, hgiven⟩
  · rename_i hgap
    obtain ⟨s, rfl⟩ := hx
    obtain ⟨others, rfl⟩ := h.exists_object hgiven
    have hbefore := (h.under hf).not_truthy (Bool.eq_false_iff.mpr hgap)
    exact grows_setEntry hpart h hgiven hf (.text _ s hbefore)

theorem grows_managedFileStore {d : Defaults} (hd : d.AreTexts)
    (h : Grows (Schema.managedFileStore.toShape required) w w') (hgiven : w' ≠ .null) :
  Grows (Schema.managedFileStore.toShape required) w (w'.fillManagedFileStoreData d)
  := (grows_fillEntry regularPart_managedFileStore h hgiven (.tail _ (.head _))
    hd.fileStoreSize).1

theorem grows_managedDatabase {d : Defaults} (hd : d.AreTexts)
    (h : Grows (Schema.managedDatabase.toShape required) w w') (hgiven : w' ≠ .null) :
  Grows (Schema.managedDatabase.toShape required) w (w'.fillManagedDatabaseData d)
  := by
  obtain ⟨htype, hgiven⟩ := grows_fillEntry regularPart_managedDatabase h hgiven (.head _)
    hd.databaseType
  exact (grows_fillEntry regularPart_managedDatabase htype hgiven (.tail _ (.tail _ (.head _)))
    hd.databaseSize).1

/-- Data of a part grows when the gaps of its managed part are filled. -/
theorem grows_fillManaged {schema : Schema} {r : Value} {fill : Value → Value}
    (hpart : RegularPart kind fields)
    (hf : (⟨"operatorManaged", "operator_managed"⟩, schema.toShape false) ∈ fields)
    (hempty : Travels (schema.toShape false) (.record schema.kind [])
      (object (vacantPairs schema.fields)))
    (hfill : ∀ v w, Grows (schema.toShape false) v w → w ≠ .null →
      Grows (schema.toShape false) v (fill w))
    (h : Travels (.part required kind fields) r w) (hgiven : r ≠ .null) :
  Grows (.part required kind fields) w (w.fillManagedData fill schema)
  := by
  have hw : w ≠ .null := mt h.eq_null_iff.mpr hgiven
  obtain ⟨x, hx, htravels⟩ := managedData_travels hpart hf hempty hgiven h
  refine (grows_setEntry hpart (Grows.refl h) hw hf ?_).1
  rw [if_neg (mt isNull_iff.mp hw)]
  exact hfill _ _ (managedData_grows hpart hf hgiven h) (mt htravels.eq_null_iff.mpr hx)

theorem grows_fileStore {d : Defaults} (hd : d.AreTexts) {r : Value}
    (h : Travels (Schema.fileStore.toShape true) r w) :
  Grows (Schema.fileStore.toShape true) w (w.fillFileStoreData d)
  := by
  rw [fillFileStoreData]
  split
  · exact grows_fillManaged regularPart_fileStore
      (Schema.fileStore.mem_fields "operatorManaged" rfl)
      emptyFileStore_travels (fun v w => grows_managedFileStore hd) h (given_of_required h)
  · exact Grows.refl h

theorem grows_database {d : Defaults} (hd : d.AreTexts) {r : Value}
    (h : Travels (Schema.database.toShape true) r w) :
  Grows (Schema.database.toShape true) w (w.fillDatabaseData d)
  := by
  rw [fillDatabaseData]
  split
  · exact grows_fillManaged regularPart_database (Schema.database.mem_fields "operatorManaged" rfl)
      emptyDatabase_travels (fun v w => grows_managedDatabase hd) h (given_of_required h)
  · exact Grows.refl h

/-- Data of a spec grows when its gaps are filled. -/
theorem grows_fillData {d : Defaults} (hd : d.AreTexts) {r : Value}
    (h : Travels (Schema.spec.toShape true) r w) :
  Grows (Schema.spec.toShape true) w (w.fillData d) ∧ w.fillData d ≠ .null
  := by
  have hgiven := given_of_required h
  have hw : w ≠ .null := mt h.eq_null_iff.mpr hgiven
  obtain ⟨x, -, hx⟩ := h.attr regularPart_spec hgiven (Schema.spec.mem_fields "fileStore" rfl)
  obtain ⟨y, -, hy⟩ := h.attr regularPart_spec hgiven (Schema.spec.mem_fields "database" rfl)
  obtain ⟨h₁, hgiven₁⟩ := grows_fillEntry regularPart_spec (Grows.refl h) hw
    (Schema.spec.mem_fields "image" rfl) hd.image
  obtain ⟨h₂, hgiven₂⟩ := grows_fillEntry regularPart_spec h₁ hgiven₁
    (Schema.spec.mem_fields "version" rfl) hd.version
  obtain ⟨h₃, hgiven₃⟩ := grows_fillEntry regularPart_spec h₂ hgiven₂
    (Schema.spec.mem_fields "imagePullPolicy" rfl) hd.pullPolicy
  obtain ⟨h₄, hgiven₄⟩ := grows_setEntry regularPart_spec h₃ hgiven₃
    (Schema.spec.mem_fields "fileStore" rfl)
    (y := ((w.fillOwnData d).under "fileStore").fillFileStoreData d) (by
      rw [if_neg (mt isNull_iff.mp hw), under_fillOwnData_ne (by decide)]
      exact grows_fileStore hd hx)
  exact grows_setEntry regularPart_spec h₄ hgiven₄ (Schema.spec.mem_fields "database" rfl) (by
    rw [if_neg (mt isNull_iff.mp hw), under_fillUnder_ne (by decide),
      under_fillOwnData_ne (by decide)]
    exact grows_database hd hy)

end Grows

end Installation

import Installation.Proofs.Gaps.Alter
import Installation.Proofs.Gaps.Fill

/-!
# Services

File store and database are the two services of an installation.  Each is run elsewhere or is
managed along with it, which its operations tell, and `Service.filled` is what becomes of it
when its gaps are filled: `fillPart_given`.  To fill the gaps of a service twice is to fill them
once with the defaults of both: `filled_filled`.
-/

namespace Installation

open Shape Value

/-! ### Defaults after defaults -/

/-- Defaults that give way to others where they are empty. -/
def Defaults.orElse (d d' : Defaults) : Defaults where
  image := d.image.orElse d'.image
  version := d.version.orElse d'.version
  pullPolicy := d.pullPolicy.orElse d'.pullPolicy
  fileStoreSize := d.fileStoreSize.orElse d'.fileStoreSize
  databaseType := d.databaseType.orElse d'.databaseType
  databaseSize := d.databaseSize.orElse d'.databaseSize

theorem Value.orElse_of_truthy {v : Value} (h : v.truthy) (w : Value) :
  v.orElse w = v
  := if_pos h

theorem Value.orElse_orElse (u v w : Value) :
  (u.orElse v).orElse w = u.orElse (v.orElse w)
  := by
  by_cases h : u.truthy = true
  · rw [orElse_of_truthy h, orElse_of_truthy h, orElse_of_truthy h]
  · simp only [orElse, if_neg h]

theorem Value.orElse_self (v : Value) :
  v.orElse v = v
  := ite_self v

namespace Defaults

theorem orElse_self (d : Defaults) :
  d.orElse d = d
  := by
  simp [orElse, Value.orElse_self]

/-- Defaults of which none is empty give way to no others. -/
theorem orElse_of_truthy {d : Defaults} (h : ∀ p ∈ d.toPairs, p.2.truthy) (d' : Defaults) :
  d.orElse d' = d
  := by
  simp only [toPairs, List.forall_mem_cons] at h
  obtain ⟨himage, hversion, hpolicy, hfile, htype, hsize, -⟩ := h
  simp only [orElse, Value.orElse_of_truthy himage, Value.orElse_of_truthy hversion,
    Value.orElse_of_truthy hpolicy, Value.orElse_of_truthy hfile, Value.orElse_of_truthy htype,
    Value.orElse_of_truthy hsize]

end Defaults

theorem ne_null_of_truthy {v : Value} (h : v.truthy) :
  v ≠ .null
  := by
  rintro rfl
  contradiction

/-- A gap is an attribute that is replaced. -/
theorem fillGap_eq (name : String) (v : Value) (attrs : List (String × Value)) :
  fillGap name v attrs = alterAttr name (fun x => x.orElse v) attrs
  := by
  rw [fillGap]
  change (if (attrIn name attrs).truthy = true then _ else _) = _
  split
  · rename_i h
    exact (alterAttr_of_given _ (orElse_of_truthy h v) (ne_null_of_truthy h)).symm
  · rename_i h
    rw [alterAttr, Value.orElse, if_neg h]

/-! ### Services -/

/-- The services of an installation that are run elsewhere or managed along with it. -/
inductive Service where
  | fileStore
  | database
deriving DecidableEq

namespace Service

/-- The kind of the records of a service. -/
def kind : Service → Kind
  | .fileStore => .fileStore
  | .database => .database

/-- The kind of the records of a service that is managed. -/
def managed : Service → Kind
  | .fileStore => .managedFileStore
  | .database => .managedDatabase

/-- The schema of a service. -/
def schema : Service → Schema
  | .fileStore => .fileStore
  | .database => .database

/-- The schema of a service that is managed. -/
def managedSchema : Service → Schema
  | .fileStore => .managedFileStore
  | .database => .managedDatabase

/-- The attributes of which one is given where a service is run elsewhere. -/
def places : Service → List String
  | .fileStore => ["external", "external_volume"]
  | .database => ["external"]

/-- Whether a service is run elsewhere, asked by its operations. -/
def asks : Service → Value → Except Fault Bool
  | .fileStore => Value.isElsewhere
  | .database => Value.isExternal

/-- The attributes of a service that is managed, with their gaps filled. -/
def fillManaged (d : Defaults) : Service → List (String × Value) → List (String × Value)
  | .fileStore => fillManagedFileStore d
  | .database => fillManagedDatabase d

/-- Whether a service with the given attributes is run elsewhere. -/
def isElsewhere (s : Service) (attrs : List (String × Value)) : Bool :=
  s.places.any fun name => !(attrIn name attrs).isNull

/-- The record of a service that may be left out. -/
def given (s : Service) (v : Value) : Value := if v.isNull then .record s.kind [] else v

/-- What becomes of a managed service. -/
def filledManaged (d : Defaults) (s : Service) (v : Value) : Value :=
  .record s.managed (s.fillManaged d v.attrs)

/-- What becomes of a service. -/
def filled (d : Defaults) (s : Service) (v : Value) : Value :=
  if s.isElsewhere v.attrs then v
  else .record s.kind (alterAttr "operator_managed" (s.filledManaged d) v.attrs)

variable (s : Service) (d : Defaults)

theorem schema_kind :
  s.schema.kind = s.kind
  := by
  cases s <;> rfl

theorem managedSchema_kind :
  s.managedSchema.kind = s.managed
  := by
  cases s <;> rfl

theorem managed_mem :
  (⟨"operatorManaged", "operator_managed"⟩, s.managedSchema.toShape false) ∈ s.schema.fields
  := by
  cases s with
  | fileStore => exact Schema.fileStore.mem_fields "operatorManaged" rfl
  | database => exact Schema.database.mem_fields "operatorManaged" rfl

theorem regularPart_schema :
  RegularPart s.schema.kind s.schema.fields
  := by
  cases s with
  | fileStore => exact regularPart_fileStore
  | database => exact regularPart_database

theorem regularPart_managedSchema :
  RegularPart s.managedSchema.kind s.managedSchema.fields
  := by
  cases s with
  | fileStore => exact regularPart_managedFileStore
  | database => exact regularPart_managedDatabase

theorem regular_schema (required : Bool) :
  (s.schema.toShape required).regular
  := by
  cases s with
  | fileStore => exact regularPart_spec.fields_regular _ (Schema.spec.mem_fields "fileStore" rfl)
  | database => exact regularPart_spec.fields_regular _ (Schema.spec.mem_fields "database" rfl)

theorem managed_not_mem_places :
  "operator_managed" ∉ s.places
  := by
  cases s <;> decide

/-- How a service that may be left out is filled, by the answers to what is asked of it. -/
theorem fillPart_record (attrs : List (String × Value)) :
  fillPart d (.record s.kind attrs) =
    match (Value.record s.kind attrs).offers "set_defaults" with
    | .error fault => .failed (.record s.kind attrs) fault
    | .ok _ =>
      match s.asks (.record s.kind attrs) with
      | .error fault => .failed (.record s.kind attrs) fault
      | .ok true => .done (.record s.kind attrs)
      | .ok false =>
        (Installation.fillManaged d (s.filledManaged d .null) attrs).map (Value.record s.kind)
  := by
  cases s <;> rfl

/-- How a managed service is filled. -/
theorem fillPart_managed (attrs : List (String × Value)) :
  fillPart d (.record s.managed attrs) =
    match (Value.record s.managed attrs).offers "set_defaults" with
    | .error fault => .failed (.record s.managed attrs) fault
    | .ok _ => .done (s.filledManaged d (.record s.managed attrs))
  := by
  cases s <;> rfl

end Service

/-! ### What is asked of a service -/

/-- A declared attribute can be read. -/
theorem attr_declared {kind : Kind} {name : String} (h : name ∈ kind.declared)
    (attrs : List (String × Value)) :
  (Value.record kind attrs).attr name = .ok (attrIn name attrs)
  := by
  rw [Value.attr, attrIn]
  cases attrs.lookup name <;> simp [h]

/-- An operation that is not hidden tells whether an attribute is set. -/
theorem tells_record {kind : Kind} {operation name : String} (h : name ∈ kind.declared)
    (attrs : List (String × Value)) :
  (Value.record kind attrs).tells operation name =
    ((Value.record kind attrs).offers operation).map fun _ => !(attrIn name attrs).isNull
  := by
  rw [Value.tells, attr_declared h]
  cases (Value.record kind attrs).offers operation <;> rfl

theorem offers_record {kind : Kind} {operation : String} {attrs : List (String × Value)}
    (h : operation ∈ kind.operations) (hfree : attrs.lookup operation = none) :
  (Value.record kind attrs).offers operation = .ok kind
  := by
  simp [Value.offers, h, hfree]

namespace Service

variable (s : Service) (d : Defaults)

/-- What the operations of a service answer is so. -/
theorem isElsewhere_of_asks {attrs : List (String × Value)} {b : Bool}
    (h : s.asks (.record s.kind attrs) = .ok b) :
  s.isElsewhere attrs = b
  := by
  cases s with
  | fileStore =>
    change (Value.record .fileStore attrs).isElsewhere = .ok b at h
    rw [Value.isElsewhere, Value.isExternal, Value.isExternalVolume,
      tells_record (by decide), tells_record (by decide)] at h
    simp only [isElsewhere, places, List.any_cons, List.any_nil, Bool.or_false]
    cases hfirst : (Value.record .fileStore attrs).offers "is_external" with
    | error fault => simp [hfirst, Except.map, bind, Except.bind] at h
    | ok kind =>
      rw [hfirst] at h
      cases hexternal : (attrIn "external" attrs).isNull with
      | false => simpa [hexternal, Except.map, bind, Except.bind] using h
      | true =>
        cases hsecond : (Value.record .fileStore attrs).offers "is_external_volume" with
        | error fault => simp [hsecond, hexternal, Except.map, bind, Except.bind] at h
        | ok kind' => simpa [hsecond, hexternal, Except.map, bind, Except.bind] using h
  | database =>
    change (Value.record .database attrs).isExternal = .ok b at h
    rw [Value.isExternal, tells_record (by decide)] at h
    simp only [isElsewhere, places, List.any_cons, List.any_nil, Bool.or_false]
    cases hfirst : (Value.record .database attrs).offers "is_external" with
    | error fault => simp [hfirst, Except.map] at h
    | ok kind => simpa [hfirst, Except.map] using h

/-- A service answers where none of its operations is hidden. -/
theorem asks_of_offered {attrs : List (String × Value)}
    (h : ∀ name ∈ s.kind.operations, attrs.lookup name = none) :
  s.asks (.record s.kind attrs) = .ok (s.isElsewhere attrs)
  := by
  cases s with
  | fileStore =>
    change (Value.record .fileStore attrs).isElsewhere = _
    rw [Value.isElsewhere, Value.isExternal, Value.isExternalVolume, tells_record (by decide),
      tells_record (by decide), offers_record (by decide) (h _ (by decide)),
      offers_record (by decide) (h _ (by decide))]
    simp only [isElsewhere, places, List.any_cons, List.any_nil, Bool.or_false]
    cases (attrIn "external" attrs).isNull <;> rfl
  | database =>
    change (Value.record .database attrs).isExternal = _
    rw [Value.isExternal, tells_record (by decide), offers_record (by decide) (h _ (by decide))]
    simp only [isElsewhere, places, List.any_cons, List.any_nil, Bool.or_false]
    rfl

/-! ### Filling -/

/-- Whether a value is none but a record of a service, and what is managed along with it none
but a record of the managed service. -/
def Suits (v : Value) : Prop :=
  ∀ kind attrs, v = .record kind attrs → kind = s.kind ∧
    ∀ kind attrs', attrIn "operator_managed" attrs = .record kind attrs' → kind = s.managed

/-- What becomes of a managed service when nothing stops its filling. -/
theorem fillPart_of_managed {v : Value} (hgiven : v ≠ .null)
    (hsuits : ∀ kind attrs, v = .record kind attrs → kind = s.managed)
    (h : (fillPart d v).fault? = none) :
  fillPart d v = .done (s.filledManaged d v)
  := by
  cases v with
  | record kind attrs =>
    obtain rfl := hsuits kind attrs rfl
    rw [fillPart_managed] at h ⊢
    cases hoffers : (Value.record s.managed attrs).offers "set_defaults" with
    | error fault =>
      rw [hoffers] at h
      contradiction
    | ok kind => rfl
  | _ => contradiction

/-- What a service becomes when nothing stops its filling. -/
theorem fillPart_given {v : Value} (hsuits : s.Suits v)
    (h : (fillPart d (s.given v)).fault? = none) :
  fillPart d (s.given v) = .done (s.filled d v)
  := by
  by_cases hnull : v = .null
  · subst hnull
    cases s <;> rfl
  · rw [given, if_neg (mt isNull_iff.mp hnull)] at h ⊢
    cases v with
    | record kind attrs =>
      obtain ⟨rfl, hmanaged⟩ := hsuits kind attrs rfl
      rw [fillPart_record] at h ⊢
      cases hoffers : (Value.record s.kind attrs).offers "set_defaults" with
      | error fault =>
        rw [hoffers] at h
        contradiction
      | ok kind =>
        cases hasks : s.asks (.record s.kind attrs) with
        | error fault =>
          rw [hoffers, hasks] at h
          contradiction
        | ok elsewhere =>
          rw [hoffers, hasks] at h
          rw [filled, attrs_record, s.isElsewhere_of_asks hasks]
          cases elsewhere with
          | true => rfl
          | false =>
            simp only [Bool.false_eq_true, if_false] at h ⊢
            rw [fillManaged_eq] at h ⊢
            change (Attempt.map _ (if (attrIn "operator_managed" attrs).isNull = true then _
              else (fillPart d (attrIn "operator_managed" attrs)).map _)).fault? = none at h
            change Attempt.map _ (if (attrIn "operator_managed" attrs).isNull = true then _
              else (fillPart d (attrIn "operator_managed" attrs)).map _) = _
            by_cases hnone : attrIn "operator_managed" attrs = .null
            · rw [if_pos (isNull_iff.mpr hnone), alterAttr, hnone]
              rfl
            · rw [if_neg (mt isNull_iff.mp hnone)] at h ⊢
              rw [s.fillPart_of_managed d hnone hmanaged h, Attempt.map_done, alterAttr]
              rfl
    | _ => contradiction

/-! ### Filling twice -/

/-- The attributes of a managed service that are filled, with their defaults. -/
def gaps (d : Defaults) : Service → List (String × Value)
  | .fileStore => [("storage_size", d.fileStoreSize)]
  | .database => [("type", d.databaseType), ("storage_size", d.databaseSize)]

/-- What a managed service is filled with is one of the defaults. -/
theorem exists_of_gap {s : Service} (d : Defaults) {gap : String × Value} (h : gap ∈ s.gaps d) :
  ∃ p ∈ d.toPairs, p.2 = gap.2
  := by
  cases s with
  | fileStore =>
    obtain rfl := List.mem_singleton.mp h
    exact ⟨("filestore_storage_size", _), by simp [Defaults.toPairs], rfl⟩
  | database =>
    simp only [gaps, List.mem_cons, List.not_mem_nil, or_false] at h
    obtain rfl | rfl := h
    · exact ⟨("database_type", _), by simp [Defaults.toPairs], rfl⟩
    · exact ⟨("database_storage_size", _), by simp [Defaults.toPairs], rfl⟩

/-- The gaps of a managed service are filled with texts. -/
theorem exists_text_of_gaps {d : Defaults} (hd : d.AreTexts) :
  ∀ gap ∈ s.gaps d, ∃ t, gap.2 = .text t
  := by
  intro gap hgap
  obtain ⟨p, hp, hsource⟩ := exists_of_gap d hgap
  exact hsource ▸ hd p hp

/-- The gaps of a managed service are in the places of texts. -/
theorem exists_text_of_gap {d : Defaults} :
  ∀ gap ∈ s.gaps d, ∃ f ∈ s.managedSchema.fields, f.1.attr = gap.1 ∧ f.2 = .text
  := by
  cases s with
  | fileStore =>
    simp [gaps, managedSchema, Schema.managedFileStore, Schema.field, Schema.renamed]
  | database => simp [gaps, managedSchema, Schema.managedDatabase, Schema.field, Schema.renamed]

theorem fillManaged_eq_alterAttrs (attrs : List (String × Value)) :
  s.fillManaged d attrs =
    alterAttrs ((s.gaps d).map fun gap => (gap.1, fun v => v.orElse gap.2)) attrs
  := by
  cases s with
  | fileStore =>
    change fillGap _ _ attrs = _
    rw [fillGap_eq]
    rfl
  | database =>
    change fillGap _ _ (fillGap _ _ attrs) = _
    rw [fillGap_eq, fillGap_eq]
    rfl

/-- The operations of a managed service are left alone. -/
theorem offered_fillManaged {attrs : List (String × Value)}
    (h : ∀ name ∈ s.managed.operations, attrs.lookup name = none) :
  ∀ name ∈ s.managed.operations, (s.fillManaged d attrs).lookup name = none
  := by
  intro name hname
  rw [fillManaged_eq_alterAttrs, lookup_alterAttrs_of_not_mem]
  · exact h name hname
  · cases s <;> simp_all [Service.managed, Kind.operations, gaps]

variable (d₁ d₂ : Defaults)

theorem fillManaged_fillManaged (attrs : List (String × Value)) :
  s.fillManaged d₂ (s.fillManaged d₁ attrs) = s.fillManaged (d₁.orElse d₂) attrs
  := by
  have hfill (v w x : Value) : x.orElse (v.orElse w) = (x.orElse v).orElse w :=
    (orElse_orElse x v w).symm
  simp only [fillManaged_eq_alterAttrs]
  cases s with
  | fileStore =>
    simp only [gaps, Defaults.orElse, List.map_cons, List.map_nil, hfill]
    exact alterAttrs_alterAttrs [("storage_size", _, _)]
      (show ["storage_size"].Nodup by decide) attrs
  | database =>
    simp only [gaps, Defaults.orElse, List.map_cons, List.map_nil, hfill]
    exact alterAttrs_alterAttrs [("type", _, _), ("storage_size", _, _)]
      (show ["type", "storage_size"].Nodup by decide) attrs

theorem filledManaged_filledManaged (v : Value) :
  s.filledManaged d₂ (s.filledManaged d₁ v) = s.filledManaged (d₁.orElse d₂) v
  := by
  rw [filledManaged, filledManaged, attrs_record, fillManaged_fillManaged, filledManaged]

/-- Where a service is run does not depend on what is managed. -/
theorem isElsewhere_alterAttr (f : Value → Value) (attrs : List (String × Value)) :
  s.isElsewhere (alterAttr "operator_managed" f attrs) = s.isElsewhere attrs
  := by
  rw [isElsewhere, isElsewhere, Bool.eq_iff_iff, List.any_eq_true, List.any_eq_true]
  apply exists_congr
  intro name
  apply and_congr_right
  intro hname
  have hne : name ≠ "operator_managed" := by
    rintro rfl
    exact s.managed_not_mem_places hname
  rw [attrIn_alterAttr_ne _ _ hne]

/-- A service that is filled twice. -/
theorem filled_filled (v : Value) :
  s.filled d₂ (s.filled d₁ v) = s.filled (d₁.orElse d₂) v
  := by
  by_cases h : s.isElsewhere v.attrs = true
  · simp only [filled, if_pos h]
  · simp only [filled, if_neg h, attrs_record, isElsewhere_alterAttr, alterAttr_alterAttr,
      filledManaged_filledManaged]

end Service

end Installation

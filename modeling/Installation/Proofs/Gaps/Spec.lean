import Installation.Proofs.Gaps.Service

/-!
# What filling gaps does to a spec

The filling of a spec looks at how the spec is reached, and replaces five of its attributes:
image, version and pull policy by defaults where they are not given, and both services by what
becomes of them.  `fillSpec_of_parts` says so for specs whose services are filled, and
`exists_of_fillSpec` that no other specs are filled.  How a spec is reached does not depend on
the attributes that are replaced: `resolveIngress_filledAttrs`.
-/

namespace Installation

open Value

/-- The attributes of a spec that are no services, as they are filled. -/
def ownSteps (d : Defaults) : List (String × (Value → Value)) :=
  [("image", fun v => v.orElse d.image), ("version", fun v => v.orElse d.version),
   ("image_pull_policy", fun v => v.orElse d.pullPolicy)]

/-- The attributes of a spec whose gaps are filled. -/
def filledAttrs (d : Defaults) (attrs : List (String × Value)) : List (String × Value) :=
  alterAttrs
    (ownSteps d ++
      [("file_store", Service.fileStore.filled d), ("database", Service.database.filled d)])
    attrs

/-- The attributes of a spec whose own gaps are filled, and whose services are there. -/
def preparedAttrs (d : Defaults) (attrs : List (String × Value)) : List (String × Value) :=
  alterAttrs
    (ownSteps d ++ [("file_store", Service.fileStore.given), ("database", Service.database.given)])
    attrs

/-- Whether a view is that of a spec that is reached and has no host. -/
def IngressView.isBlocked (view : IngressView) : Bool := view.enabled && !view.host.truthy

/-! ### The steps -/

section Steps

variable (d : Defaults) (attrs : List (String × Value))

/-- A gap of a spec is an attribute that is replaced. -/
theorem fillAttr_record {name : String} (h : name ∈ Kind.spec.declared) (v : Value) :
  fillAttr name v (.record .spec attrs) =
    .done (.record .spec (alterAttr name (fun x => x.orElse v) attrs))
  := by
  rw [fillAttr, attr_declared h, ← fillGap_eq, fillGap]
  change Attempt.done (if (attrIn name attrs).truthy = true then _ else _) =
    Attempt.done (Value.record .spec (if (attrIn name attrs).truthy = true then _ else _))
  split <;> rfl

/-- A service that is left out is put in. -/
theorem addPart_record {name : String} (h : name ∈ Kind.spec.declared) (s : Service) :
  addPart name s.kind (.record .spec attrs) =
    .done (.record .spec (alterAttr name s.given attrs))
  := by
  rw [addPart, attr_declared h]
  simp only
  by_cases hnull : attrIn name attrs = .null
  · rw [if_pos (isNull_iff.mpr hnull), alterAttr, Service.given, if_pos (isNull_iff.mpr hnull)]
    rfl
  · rw [if_neg (mt isNull_iff.mp hnull),
      alterAttr_of_given s.given (if_neg (mt isNull_iff.mp hnull)) hnull]

theorem fillPartAt_record {name : String} (h : name ∈ Kind.spec.declared) :
  fillPartAt d name (.record .spec attrs) =
    (fillPart d (attrIn name attrs)).map fun part =>
      .record .spec (Assoc.insert name part attrs)
  := by
  rw [fillPartAt, attr_declared h]
  rfl

/-- The filling of a spec, up to its services. -/
theorem fillSpec_record :
  fillSpec d (.record .spec attrs) =
    match resolveIngress (.record .spec attrs) with
    | .error fault => .failed (.record .spec attrs) fault
    | .ok view =>
      if view.isBlocked then .failed (.record .spec attrs) .hostRequired
      else (fillPartAt d "file_store" (.record .spec (preparedAttrs d attrs))).andThen
        (fillPartAt d "database")
  := by
  have hfile (attrs : List (String × Value)) :
      addPart "file_store" .fileStore (.record .spec attrs) = _ :=
    addPart_record attrs (by decide) .fileStore
  have hdatabase (attrs : List (String × Value)) :
      addPart "database" .database (.record .spec attrs) = _ :=
    addPart_record attrs (by decide) .database
  rw [fillSpec, fillAttr_record _ (by decide), Attempt.andThen_done, fillAttr_record _ (by decide),
    Attempt.andThen_done, fillAttr_record _ (by decide), Attempt.andThen_done, hfile,
    Attempt.andThen_done, hdatabase, Attempt.andThen_done]
  cases resolveIngress (.record .spec attrs) <;> rfl

end Steps

/-! ### Attributes before and after -/

section Attributes

variable (d : Defaults) (attrs : List (String × Value))

theorem nodup_specSteps (f g : Value → Value) :
  ((ownSteps d ++ [("file_store", f), ("database", g)]).map Prod.fst).Nodup
  := show ["image", "version", "image_pull_policy", "file_store", "database"].Nodup by decide

/-- The services of a spec are put in where they are left out. -/
theorem attrIn_preparedAttrs :
  attrIn "file_store" (preparedAttrs d attrs) =
    Service.fileStore.given (attrIn "file_store" attrs) ∧
  attrIn "database" (preparedAttrs d attrs) = Service.database.given (attrIn "database" attrs)
  := by
  constructor
  · apply attrIn_alterAttrs _ (nodup_specSteps ..)
    simp
  · apply attrIn_alterAttrs _ (nodup_specSteps ..)
    simp

/-- A spec whose services are put in, and set to what becomes of them. -/
theorem insert_preparedAttrs :
  Assoc.insert "database" (Service.database.filled d (attrIn "database" attrs))
      (Assoc.insert "file_store" (Service.fileStore.filled d (attrIn "file_store" attrs))
        (preparedAttrs d attrs)) =
    filledAttrs d attrs
  := by
  have hfile : attrIn "file_store" (alterAttrs (ownSteps d) attrs) = attrIn "file_store" attrs := by
    rw [attrIn, lookup_alterAttrs_of_not_mem (by simp [ownSteps]), attrIn]
  have hdatabase : attrIn "database" (alterAttrs (ownSteps d) attrs) = attrIn "database" attrs := by
    rw [attrIn, lookup_alterAttrs_of_not_mem (by simp [ownSteps]), attrIn]
  rw [preparedAttrs, filledAttrs, alterAttrs_append, alterAttrs_append]
  generalize alterAttrs (ownSteps d) attrs = own at hfile hdatabase
  simp only [alterAttrs_cons, alterAttrs_nil]
  have hset (v : Value) : "file_store" ∈ (Assoc.insert "file_store" v own).map Prod.fst :=
    (Assoc.mem_map_fst_insert v own).mpr (.inl rfl)
  simp only [alterAttr, attrIn_insert_ne own (show "database" ≠ "file_store" by decide), hfile,
    hdatabase]
  rw [Assoc.insert_comm_of_mem _ _ (by decide) (hset _), Assoc.insert_insert,
    Assoc.insert_insert]

/-- What becomes of the services of a spec. -/
theorem attrIn_filledAttrs :
  attrIn "file_store" (filledAttrs d attrs) =
    Service.fileStore.filled d (attrIn "file_store" attrs) ∧
  attrIn "database" (filledAttrs d attrs) = Service.database.filled d (attrIn "database" attrs)
  := by
  constructor
  · apply attrIn_alterAttrs _ (nodup_specSteps ..)
    simp
  · apply attrIn_alterAttrs _ (nodup_specSteps ..)
    simp

/-- What becomes of a text of a spec. -/
theorem attrIn_filledAttrs_own {name : String} {v : Value}
    (h : (name, fun x => x.orElse v) ∈ ownSteps d) :
  attrIn name (filledAttrs d attrs) = (attrIn name attrs).orElse v
  := attrIn_alterAttrs (List.mem_append_left _ h) (nodup_specSteps ..) attrs

/-- Attributes that are not filled stay as they are. -/
theorem attr_filledAttrs {name : String}
    (h : name ∉ ["image", "version", "image_pull_policy", "file_store", "database"]) :
  (Value.record .spec (filledAttrs d attrs)).attr name = (Value.record .spec attrs).attr name
  := by
  have hlookup : (filledAttrs d attrs).lookup name = attrs.lookup name :=
    lookup_alterAttrs_of_not_mem (by simpa [ownSteps] using h) attrs
  rw [Value.attr, Value.attr, hlookup]

/-- How a spec is reached does not depend on the gaps that are filled. -/
theorem resolveIngress_filledAttrs :
  resolveIngress (.record .spec (filledAttrs d attrs)) = resolveIngress (.record .spec attrs)
  := by
  rw [resolveIngress, resolveIngress, viewOfSpec, viewOfSpec, attr_filledAttrs _ _ (by decide),
    attr_filledAttrs _ _ (by decide), attr_filledAttrs _ _ (by decide),
    attr_filledAttrs _ _ (by decide)]

end Attributes

/-! ### Filling -/

section Fill

variable (d : Defaults) (attrs : List (String × Value))

/-- The filling of the services of a spec, by what becomes of each of them. -/
theorem fillServices_record :
  (fillPartAt d "file_store" (.record .spec (preparedAttrs d attrs))).andThen
      (fillPartAt d "database") =
    ((fillPart d (Service.fileStore.given (attrIn "file_store" attrs))).map fun part =>
      Value.record .spec (Assoc.insert "file_store" part (preparedAttrs d attrs))).andThen
    fun _ => (fillPart d (Service.database.given (attrIn "database" attrs))).map fun part =>
      Value.record .spec
        (Assoc.insert "database" part
          (Assoc.insert "file_store"
            (fillPart d (Service.fileStore.given (attrIn "file_store" attrs))).state
            (preparedAttrs d attrs)))
  := by
  obtain ⟨hfile, hdatabase⟩ := attrIn_preparedAttrs d attrs
  rw [fillPartAt_record d _ (by decide), hfile]
  obtain ⟨part, fault⟩ := fillPart d (Service.fileStore.given (attrIn "file_store" attrs))
  cases fault with
  | some fault => rfl
  | none =>
    change fillPartAt d "database" (.record .spec (Assoc.insert "file_store" part _)) = _
    rw [fillPartAt_record d _ (by decide), attrIn_insert_ne _ (by decide), hdatabase]
    rfl

variable {d attrs}

/-- A spec whose services are filled is filled, unless it has no host. -/
theorem fillSpec_of_parts {view : IngressView}
    (hview : resolveIngress (.record .spec attrs) = .ok view)
    (hfile : fillPart d (Service.fileStore.given (attrIn "file_store" attrs)) =
      .done (Service.fileStore.filled d (attrIn "file_store" attrs)))
    (hdatabase : fillPart d (Service.database.given (attrIn "database" attrs)) =
      .done (Service.database.filled d (attrIn "database" attrs))) :
  fillSpec d (.record .spec attrs) =
    if view.isBlocked then .failed (.record .spec attrs) .hostRequired
    else .done (.record .spec (filledAttrs d attrs))
  := by
  rw [fillSpec_record, hview]
  simp only
  rw [fillServices_record, hfile, hdatabase, Attempt.map_done, Attempt.andThen_done,
    Attempt.map_done, ← insert_preparedAttrs]
  rfl

/-- A spec that is filled is reached with a host or not at all, and nothing stops the filling
of its services. -/
theorem exists_of_fillSpec (h : (fillSpec d (.record .spec attrs)).fault? = none) :
  (∃ view, resolveIngress (.record .spec attrs) = .ok view ∧ view.isBlocked = false) ∧
  (fillPart d (Service.fileStore.given (attrIn "file_store" attrs))).fault? = none ∧
  (fillPart d (Service.database.given (attrIn "database" attrs))).fault? = none
  := by
  rw [fillSpec_record, fillServices_record] at h
  cases hview : resolveIngress (.record .spec attrs) with
  | error fault =>
    rw [hview] at h
    contradiction
  | ok view =>
    rw [hview] at h
    cases hblocked : view.isBlocked with
    | true =>
      simp only [hblocked, if_true] at h
      contradiction
    | false =>
      refine ⟨⟨view, rfl, hblocked⟩, ?_⟩
      simp only [hblocked, Bool.false_eq_true, if_false] at h
      cases hfile : (fillPart d (Service.fileStore.given (attrIn "file_store" attrs))).fault? with
      | some fault =>
        rw [Attempt.andThen, Attempt.fault?_map, hfile] at h
        simp [hfile] at h
      | none =>
        rw [Attempt.andThen, Attempt.fault?_map, hfile] at h
        exact ⟨rfl, h⟩

/-- A spec that is filled twice. -/
theorem filledAttrs_filledAttrs (d₁ d₂ : Defaults) (attrs : List (String × Value)) :
  filledAttrs d₂ (filledAttrs d₁ attrs) = filledAttrs (d₁.orElse d₂) attrs
  := by
  have hfill (v w x : Value) : x.orElse (v.orElse w) = (x.orElse v).orElse w :=
    (orElse_orElse x v w).symm
  have hservice (s : Service) :
      s.filled (d₁.orElse d₂) = fun v => s.filled d₂ (s.filled d₁ v) :=
    funext fun v => (s.filled_filled d₁ d₂ v).symm
  simp only [filledAttrs, hservice]
  simp only [ownSteps, Defaults.orElse, hfill]
  exact alterAttrs_alterAttrs
    [("image", _, _), ("version", _, _), ("image_pull_policy", _, _), ("file_store", _, _),
     ("database", _, _)]
    (show ["image", "version", "image_pull_policy", "file_store", "database"].Nodup by decide)
    attrs

end Fill

end Installation

import Installation.Proofs.Gaps.Fill
import Installation.Reconcile

/-!
# Permanent faults

A fault is permanent when the update is not to be tried again before the configuration was
edited.  Reading and dumping a spec, filling its gaps and merging conditions stop with no such
fault, whatever they are given: they are `Passing`.  So the only permanent fault is the one
that reconciling puts in the place of an invalid configuration.
-/

namespace Installation

/-- Whether a fault stays until the configuration is edited. -/
def Fault.isPermanent : Fault → Bool
  | .permanent _ => true
  | _ => false

@[simp]
theorem Fault.isPermanent_eq_false {fault : Fault} :
  fault.isPermanent = false ↔ ∀ reason, fault ≠ .permanent reason
  := by
  cases fault <;> simp [isPermanent]

@[simp]
theorem Fault.isPermanent_because (text : String) :
  (because text).isPermanent = false
  := rfl

/-- Whether a computation is not stopped by a permanent fault. -/
def Passing {α : Type} (x : Except Fault α) : Prop :=
  ∀ fault, x = .error fault → fault.isPermanent = false

/-- Whether an update is not stopped by a permanent fault. -/
def Attempt.Passing {σ : Type} (a : Attempt σ) : Prop :=
  ∀ fault, a.fault? = some fault → fault.isPermanent = false

/-! ### Computations and updates -/

section Combine

variable {α β σ τ : Type} {fault : Fault}

@[simp]
theorem passing_ok (a : α) :
  Passing (.ok a : Except Fault α)
  := by
  rintro fault ⟨⟩

@[simp]
theorem passing_error :
  Passing (.error fault : Except Fault α) ↔ fault.isPermanent = false
  := by
  simp [Passing]

theorem passing_bind {x : Except Fault α} {f : α → Except Fault β} (hx : Passing x)
    (hf : ∀ a, Passing (f a)) :
  Passing (x >>= f)
  := by
  cases x with
  | error fault => exact passing_error.mpr (hx fault rfl)
  | ok a => exact hf a

theorem passing_map {x : Except Fault α} (hx : Passing x) (f : α → β) :
  Passing (x.map f)
  := by
  cases x with
  | error fault => exact passing_error.mpr (hx fault rfl)
  | ok a => exact passing_ok (f a)

namespace Attempt

@[simp]
theorem passing_done (s : σ) :
  (done s).Passing
  := by
  rintro fault ⟨⟩

@[simp]
theorem passing_failed {s : σ} :
  (failed s fault).Passing ↔ fault.isPermanent = false
  := by
  simp [Attempt.Passing, failed]

theorem Passing.map {a : Attempt σ} (h : a.Passing) (f : σ → τ) :
  (a.map f).Passing
  := h

theorem Passing.andThen {a : Attempt σ} {next : σ → Attempt σ} (h : a.Passing)
    (hnext : ∀ s, (next s).Passing) :
  (a.andThen next).Passing
  := by
  obtain ⟨s, fault⟩ := a
  cases fault with
  | none => exact hnext s
  | some fault => exact h

end Attempt

end Combine

/-! ### Values -/

namespace Value

@[simp]
theorem isPermanent_lacks (name : String) (v : Value) :
  (v.lacks name).isPermanent = false
  := by
  cases v with
  | record kind attrs =>
    rw [lacks]
    split <;> rfl
  | _ => rfl

theorem passing_attr (name : String) (v : Value) :
  Passing (v.attr name)
  := by
  cases v with
  | record kind attrs =>
    rw [attr]
    split
    · simp
    · split <;> simp
  | _ => simp [attr]

theorem passing_offers (name : String) (v : Value) :
  Passing (v.offers name)
  := by
  cases v with
  | record kind attrs =>
    rw [offers]
    split <;> simp
  | _ => simp [offers]

theorem passing_getOr (v : Value) (name : String) (substitute : Value) :
  Passing (v.getOr name substitute)
  := by
  cases v <;> simp [getOr]

theorem passing_item (name : String) (v : Value) :
  Passing (v.item name)
  := by
  cases v with
  | dict entries =>
    rw [item]
    split <;> simp
  | _ => simp [item]

theorem passing_spread (v : Value) :
  Passing v.spread
  := by
  cases v with
  | record kind attrs =>
    rw [spread]
    split <;> simp
  | _ => simp [spread]

theorem passing_elements (v : Value) :
  Passing v.elements
  := by
  cases v <;> simp [elements]

theorem passing_toKey (v : Value) :
  Passing v.toKey
  := by
  rw [toKey]
  split <;> simp

theorem passing_insertPairs (index : Nat) (entries : List (Key × Value)) (pairs : List Value) :
  Passing (insertPairs index entries pairs)
  := by
  induction pairs generalizing index entries with
  | nil => simp [insertPairs]
  | cons pair pairs ih =>
    refine passing_bind ?_ fun e => ih _ _
    rw [toEntry]
    split
    · simp
    · exact passing_bind (passing_toKey _) fun k => passing_ok _
    · simp

theorem passing_toEntries (v : Value) :
  Passing v.toEntries
  := by
  cases v with
  | dict entries => simp [toEntries]
  | record kind attrs =>
    rw [toEntries]
    split <;> simp
  | _ => exact passing_bind (passing_elements _) fun pairs => passing_insertPairs 0 [] pairs

theorem passing_toInteger (v : Value) :
  Passing v.toInteger
  := by
  cases v with
  | float x =>
    rw [toInteger]
    split <;> simp
  | text s =>
    rw [toInteger]
    split <;> simp
  | _ => simp [toInteger]

theorem passing_tells (operation name : String) (v : Value) :
  Passing (v.tells operation name)
  := passing_bind (passing_offers operation v) fun _ =>
    passing_bind (passing_attr name v) fun _ => passing_ok _

theorem passing_isElsewhere (v : Value) :
  Passing v.isElsewhere
  := by
  refine passing_bind (passing_tells _ _ _) fun b => ?_
  cases b with
  | true => exact passing_ok _
  | false => exact passing_tells _ _ _

end Value

open Value

/-! ### Reading and dumping -/

namespace Shape

theorem passing_loadMap (raw : Bool) (v : Value) :
  Passing (loadMap raw v)
  := by
  cases v with
  | dict entries =>
    rw [loadMap]
    split <;> simp
  | _ => simp [loadMap]

theorem passing_loadInteger (v : Value) :
  Passing (loadInteger v)
  := by
  unfold loadInteger
  split
  · exact passing_error.mpr rfl
  · split <;> simp

theorem passing_loadBoolean (v : Value) :
  Passing (loadBoolean v)
  := by
  rw [loadBoolean]
  split <;> simp

theorem passing_loadText (v : Value) :
  Passing (loadText v)
  := by
  cases v <;> simp [loadText]

theorem passing_finish (kind : Kind) (fields : List (Slot × Shape))
    (entries : List (Key × Value)) (tally : Tally) :
  Passing (finish kind fields entries tally)
  := by
  rw [finish]
  split
  · rw [build]
    split
    · simp
    · split <;> simp
  · simp

/-- The fields of a part are read without a permanent fault if each of them is. -/
theorem passing_tallyUp {fields : List (Slot × Shape)} {give : Slot × Shape → Except Fault Value}
    (h : ∀ f ∈ fields, Passing (give f)) :
  Passing (tallyUp (fields.map fun f => (f.1, give f)))
  := by
  induction fields with
  | nil => exact passing_ok _
  | cons f fields ih =>
    rw [List.forall_mem_cons] at h
    obtain ⟨hf, hrest⟩ := h
    rw [List.map_cons]
    cases hgive : give f with
    | ok v => exact passing_map (ih hrest) _
    | error fault =>
      cases fault with
      | rejected complaint => exact passing_map (ih hrest) _
      | _ => exact passing_error.mpr (hf _ hgive)

theorem passing_load (shape : Shape) (v : Value) :
  Passing (shape.load v)
  := by
  induction shape using shapeInduction generalizing v with
  | onLeaf shape hleaf =>
    unfold load
    split
    · contradiction
    · exact passing_ok _
    · exact passing_loadText v
    · exact passing_loadInteger v
    · exact passing_loadBoolean v
    · exact passing_loadMap false v
    · exact passing_loadMap true v
  | onPart required kind fields ih =>
    cases v with
    | null => cases required <;> simp [load]
    | dict entries =>
      have hgive : ∀ f ∈ fields, Passing (loadAt f.2 (entryAt? f.1.wire entries)) := by
        intro f hf
        cases entryAt? f.1.wire entries with
        | none => exact passing_ok _
        | some v => exact ih f hf v
      have hfields := passing_tallyUp hgive
      rw [← loadFields_eq] at hfields
      rw [load]
      cases htally : loadFields fields entries with
      | ok tally => exact passing_finish kind fields entries tally
      | error fault => exact passing_error.mpr (hfields fault htally)
    | _ => simp [load]

theorem passing_checkKeys (vs : List Value) :
  Passing (checkKeys vs)
  := by
  induction vs with
  | nil => exact passing_ok _
  | cons v vs ih => exact passing_bind (passing_toKey v) fun _ => ih

theorem passing_dumpMap (raw : Bool) (v : Value) :
  Passing (dumpMap raw v)
  := by
  refine passing_bind (passing_elements v) fun keys => ?_
  refine passing_bind (passing_checkKeys keys) fun _ => ?_
  cases v <;> simp

/-- The fields of a part are dumped without a permanent fault if each of them is. -/
theorem passing_dumpFields {fields : List (Slot × Shape)}
    (h : ∀ f ∈ fields, ∀ v, Passing (f.2.dump v)) (v : Value) :
  Passing (dumpFields fields v)
  := by
  induction fields with
  | nil => exact passing_ok _
  | cons f fields ih =>
    rw [List.forall_mem_cons] at h
    rw [dumpFields]
    split
    · exact ih h.2
    · exact passing_bind (h.1 _) fun x => passing_bind (ih h.2) fun es => passing_ok _

theorem passing_dump (shape : Shape) (v : Value) :
  Passing (shape.dump v)
  := by
  induction shape using shapeInduction generalizing v with
  | onLeaf shape hleaf =>
    unfold dump
    split
    · exact passing_ok _
    · exact passing_ok _
    · exact passing_map (passing_toInteger v) _
    · exact passing_ok _
    · exact passing_dumpMap false v
    · exact passing_dumpMap true v
    · contradiction
  | onPart required kind fields ih =>
    by_cases hnull : v = .null
    · subst hnull
      exact passing_ok _
    · rw [dump]
      · exact passing_map (passing_dumpFields ih v) _
      · exact hnull

end Shape

theorem Schema.passing_load (schema : Schema) (v : Value) :
  Passing (schema.load v)
  := by
  cases v with
  | dict entries =>
    rw [Schema.load_dict]
    exact Shape.passing_load _ _
  | _ => simp [Schema.load]

theorem Schema.passing_dump (schema : Schema) (v : Value) :
  Passing (schema.dump v)
  := Shape.passing_dumpFields (fun f _ => Shape.passing_dump f.2) v

/-! ### Filling gaps -/

theorem passing_optionalEntries (v : Value) :
  Passing (optionalEntries v)
  := by
  rw [optionalEntries]
  split
  · exact passing_toEntries v
  · exact passing_ok _

theorem passing_resolveIngress (spec : Value) :
  Passing (resolveIngress spec)
  := by
  rw [resolveIngress]
  cases hingress : spec.attr "ingress" with
  | error fault => exact passing_error.mpr (passing_attr "ingress" spec fault hingress)
  | ok ingress =>
    have hview : Passing (viewOfIngress ingress) :=
      passing_bind (passing_attr _ _) fun enabled =>
        passing_bind (passing_attr _ _) fun host =>
          passing_bind (passing_attr _ _) fun annotations =>
            passing_bind (passing_optionalEntries annotations) fun annotations =>
              passing_bind (passing_attr _ _) fun tlsSecret => passing_ok _
    cases ingress with
    | null =>
      refine passing_bind (passing_attr _ _) fun host => ?_
      refine passing_bind (passing_attr _ _) fun annotations => ?_
      refine passing_bind (passing_optionalEntries annotations) fun annotations => ?_
      refine passing_bind (passing_attr _ _) fun tls => ?_
      split
      · refine passing_bind ?_ fun tlsSecret => passing_ok _
        rw [defaultTlsSecret.eq_def]
        split
        · exact passing_ok _
        · exact passing_error.mpr (isPermanent_lacks _ _)
      · exact passing_ok _
    | _ => exact hview

section Fill

variable (d : Defaults)

mutual

theorem passing_fillPart (v : Value) :
  (fillPart d v).Passing
  :=
  match v with
  | .record kind attrs => by
    have hfileStore := (passing_fillManaged (freshFileStore d) attrs).map (Value.record kind)
    have hdatabase := (passing_fillManaged (freshDatabase d) attrs).map (Value.record kind)
    unfold fillPart
    simp only
    split
    · rename_i fault hoffers
      exact Attempt.passing_failed.mpr (passing_offers _ _ fault hoffers)
    · split
      · exact Attempt.passing_done _
      · exact Attempt.passing_done _
      · split
        · rename_i fault hasks
          exact Attempt.passing_failed.mpr (passing_isElsewhere _ fault hasks)
        · exact Attempt.passing_done _
        · exact hfileStore
      · split
        · rename_i fault hasks
          exact Attempt.passing_failed.mpr (passing_tells _ _ _ fault hasks)
        · exact Attempt.passing_done _
        · exact hdatabase
      · exact Attempt.passing_done _
  | .null | .bool _ | .int _ | .float _ | .text _ | .list _ | .tuple _ | .dict _ => by
    rw [fillPart]
    · exact Attempt.passing_failed.mpr (isPermanent_lacks _ _)
    · simp

theorem passing_fillManaged (fresh : Value) (attrs : List (String × Value)) :
  (fillManaged d fresh attrs).Passing
  :=
  match attrs with
  | [] => by
    rw [fillManaged]
    exact Attempt.passing_done _
  | (name, v) :: attrs => by
    have hv := passing_fillPart v
    have hattrs := passing_fillManaged fresh attrs
    rw [fillManaged]
    split
    · split
      · exact Attempt.passing_done _
      · exact hv.map _
    · exact hattrs.map _

end

theorem passing_fillAttr (name : String) (v spec : Value) :
  (fillAttr name v spec).Passing
  := by
  rw [fillAttr]
  split
  · rename_i fault hattr
    exact Attempt.passing_failed.mpr (passing_attr _ _ fault hattr)
  · exact Attempt.passing_done _

theorem passing_addPart (name : String) (kind : Kind) (spec : Value) :
  (addPart name kind spec).Passing
  := by
  rw [addPart]
  split
  · rename_i fault hattr
    exact Attempt.passing_failed.mpr (passing_attr _ _ fault hattr)
  · exact Attempt.passing_done _

theorem passing_fillPartAt (name : String) (spec : Value) :
  (fillPartAt d name spec).Passing
  := by
  rw [fillPartAt]
  split
  · rename_i fault hattr
    exact Attempt.passing_failed.mpr (passing_attr _ _ fault hattr)
  · exact (passing_fillPart d _).map _

theorem passing_fillSpec (spec : Value) :
  (fillSpec d spec).Passing
  := by
  rw [fillSpec]
  split
  · rename_i fault hview
    exact Attempt.passing_failed.mpr (passing_resolveIngress _ fault hview)
  · split
    · exact Attempt.passing_failed.mpr rfl
    · refine .andThen (.andThen (.andThen (.andThen (.andThen (.andThen ?_ ?_) ?_) ?_) ?_) ?_) ?_
      · exact passing_fillAttr _ _ _
      · exact passing_fillAttr _ _
      · exact passing_fillAttr _ _
      · exact passing_addPart _ _
      · exact passing_addPart _ _
      · exact passing_fillPartAt d _
      · exact passing_fillPartAt d _

end Fill

/-! ### Resources and conditions -/

namespace Resource

theorem passing_load (name : String) (data : Value) :
  Passing (load name data)
  := passing_map (Schema.spec.passing_load data) _

theorem passing_dumpSpec (r : Resource) :
  Passing r.dumpSpec
  := passing_map (Schema.spec.passing_dump r.spec) _

theorem passing_fillGaps (d : Defaults) (r : Resource) :
  (r.fillGaps d).Passing
  := by
  rw [fillGaps]
  split
  · rename_i fault hdump
    exact Attempt.passing_failed.mpr (passing_dumpSpec _ fault hdump)
  · refine ((passing_fillSpec d r.spec).map _).andThen fun r => ?_
    split
    · rename_i fault hdump
      exact Attempt.passing_failed.mpr (passing_dumpSpec _ fault hdump)
    · exact Attempt.passing_done _

end Resource

namespace Condition

theorem passing_merge (now : String) (new : Value) (conditions : List Value) :
  Passing (merge now new conditions)
  := by
  induction conditions with
  | nil => exact passing_bind (passing_spread new) fun added => passing_ok _
  | cons c conditions ih =>
    cases c with
    | dict entries =>
      refine passing_bind (passing_item "type" new) fun type => ?_
      split
      · refine passing_bind ?_ fun renewed => passing_ok _
        exact passing_bind (passing_item "status" new) fun status =>
          passing_bind (passing_spread new) fun added => passing_ok _
      · exact passing_bind ih fun merged => passing_ok _
    | _ => exact passing_error.mpr (isPermanent_lacks _ _)

theorem passing_upsert (now : String) (conditions new : Value) :
  Passing (upsert now conditions new)
  := by
  refine passing_bind ?_ fun conditions => passing_merge now new conditions
  rw [ofValue]
  split
  · exact passing_elements conditions
  · exact passing_ok _

end Condition

theorem Event.passing_statusEntries (event : Event) (ready : Bool) (reason message : String)
    (error : Value) {about : Except Fault (List (Key × Value))} (habout : Passing about) :
  Passing (event.statusEntries ready reason message error about)
  := passing_bind (passing_getOr _ _ _) fun _ => passing_bind (passing_getOr _ _ _) fun _ =>
    passing_bind (Condition.passing_upsert _ _ _) fun _ => passing_bind habout fun _ =>
      passing_ok _

end Installation

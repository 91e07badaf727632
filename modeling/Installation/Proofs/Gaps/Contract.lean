import Installation.Proofs.Gaps.Compose

/-!
# The contract of filling

What the filling of a spec promises, over all attributes of the spec at any level.  They are told
apart by the paths that lead to them, `Value.attrAt?`, and `FilledAt` says that a value differs
from another one in gaps at some paths alone.  A spec of which all attributes are of their declared
types is filled or is stopped for want of a host; in the first case nothing is missing from it
afterwards, and in both cases nothing that was given is lost: `fillSpec_contract`.
-/

namespace Installation

open Value

/-! ### Attributes at any level -/

/-- The attribute at the end of a path of names, if it is set. -/
def Value.attrAt? : List String → Value → Option Value
  | [], v => some v
  | name :: path, v => (v.attrs.lookup name).bind (attrAt? path)

/-- Whether a value is still what it was before, or else a record that still is of its kind. -/
inductive Persists : Value → Value → Prop
  | same (v : Value) : Persists v v
  | record (kind : Kind) (attrs attrs' : List (String × Value)) :
    Persists (.record kind attrs) (.record kind attrs')

/-- Whether a value differs from another one in gaps alone.  There is the same at all paths but
the given ones, and what was given at one of these persists. -/
structure FilledAt (paths : List (List String)) (v w : Value) : Prop where
  elsewhere : ∀ path ∉ paths, w.attrAt? path = v.attrAt? path
  persists : ∀ path x, v.attrAt? path = some x → x.truthy → ∃ y, w.attrAt? path = some y ∧
    Persists x y

theorem attrAt?_cons {name : String} {path : List String} (hpath : path ≠ []) (v : Value) :
  v.attrAt? (name :: path) = (attrIn name v.attrs).attrAt? path
  := by
  rw [attrAt?, attrIn]
  cases v.attrs.lookup name with
  | some x => rfl
  | none =>
    cases path with
    | nil => contradiction
    | cons step path => rfl

/-- What is left as it is differs in nothing. -/
theorem filledAt_self (paths : List (List String)) (v : Value) :
  FilledAt paths v v
  := ⟨fun _ _ => rfl, fun _ x hx _ => ⟨x, hx, .same x⟩⟩

/-- A text that may be filled. -/
theorem filledAt_orElse {v : Value} {s : String} (h : Shape.text.Admits v) :
  FilledAt [[]] v (v.orElse (.text s))
  := by
  have hnone {x : Value} (hx : x = .null ∨ ∃ t, x = .text t) {path : List String}
      (hpath : path ∉ [[]]) : x.attrAt? path = none := by
    cases path with
    | nil => simp at hpath
    | cons name path =>
      obtain rfl | ⟨t, rfl⟩ := hx
      all_goals rfl
  have hfilled : v.orElse (.text s) = .null ∨ ∃ t, v.orElse (.text s) = .text t := by
    rw [orElse]
    split
    · exact h
    · exact .inr ⟨s, rfl⟩
  refine ⟨fun path hpath => (hnone hfilled hpath).trans (hnone h hpath).symm, ?_⟩
  intro path x hx hgiven
  by_cases hpath : path ∈ [[]]
  · obtain rfl := List.mem_singleton.mp hpath
    obtain rfl := Option.some.inj hx
    rw [orElse_of_truthy hgiven]
    exact ⟨v, rfl, .same v⟩
  · rw [hnone h hpath] at hx
    contradiction

/-- A record, or the one that is put in for null, with some of its attributes replaced by what
differs from them in gaps alone. -/
theorem filledAt_alterAttrs {kind : Kind} {v : Value}
    (hv : v = .null ∨ ∃ attrs, v = .record kind attrs)
    {steps : List (String × (Value → Value))} (distinct : (steps.map Prod.fst).Nodup)
    {paths : List (List String)} (hroot : [] ∈ paths)
    (h : ∀ step ∈ steps, ∃ inner, [] ∈ inner ∧ (∀ path ∈ inner, step.1 :: path ∈ paths) ∧
      FilledAt inner (attrIn step.1 v.attrs) (step.2 (attrIn step.1 v.attrs))) :
  FilledAt paths v (.record kind (alterAttrs steps v.attrs))
  := by
  have hlookup (name : String) := lookup_alterAttrs_cases distinct name v.attrs
  constructor
  · intro path hpath
    cases path with
    | nil => contradiction
    | cons name path =>
      rw [attrAt?, attrs_record]
      obtain ⟨-, hsame⟩ | ⟨f, hstep, hfound⟩ := hlookup name
      · rw [hsame, ← attrAt?]
      · obtain ⟨inner, hinner, hpaths, hfilled⟩ := h _ hstep
        have hpath' : path ∉ inner := fun hmem => hpath (hpaths path hmem)
        have hne : path ≠ [] := fun heq => hpath' (heq ▸ hinner)
        rw [hfound, Option.bind_some, hfilled.elsewhere path hpath', attrAt?_cons hne]
  · intro path x hx hgiven
    cases path with
    | nil =>
      obtain rfl := Option.some.inj hx
      obtain rfl | ⟨attrs, rfl⟩ := hv
      · contradiction
      · exact ⟨_, rfl, .record ..⟩
    | cons name path =>
      rw [attrAt?] at hx
      rw [attrAt?, attrs_record]
      obtain ⟨-, hsame⟩ | ⟨f, hstep, hfound⟩ := hlookup name
      · exact ⟨x, hsame ▸ hx, .same x⟩
      · obtain ⟨inner, -, -, hfilled⟩ := h _ hstep
        rw [hfound, Option.bind_some]
        apply hfilled.persists path x _ hgiven
        rw [attrIn]
        cases hold : v.attrs.lookup name with
        | none => simp [hold] at hx
        | some y => simpa [hold] using hx

/-! ### Services -/

namespace Service

/-- The attribute of a spec that a service is. -/
def attrName : Service → String
  | .fileStore => "file_store"
  | .database => "database"

/-- The attributes that a managed service cannot do without. -/
def needs : Service → List String
  | .fileStore => ["storage_size"]
  | .database => ["type", "storage_size"]

/-- The paths in a service that its filling may change. -/
def filledPaths (s : Service) : List (List String) :=
  [] :: ["operator_managed"] :: s.needs.map fun name => ["operator_managed", name]

/-- Whether a service is run elsewhere, or is managed and lacks nothing. -/
def IsComplete (s : Service) (v : Value) : Prop :=
  ∃ attrs, v = .record s.kind attrs ∧
    ((∃ name ∈ s.places, attrIn name attrs ≠ .null) ∨
      ∃ managed, attrIn "operator_managed" attrs = .record s.managed managed ∧
        ∀ name ∈ s.needs, ∃ t, attrIn name managed = .text t ∧ t ≠ "")

theorem isElsewhere_iff {s : Service} {attrs : List (String × Value)} :
  s.isElsewhere attrs = true ↔ ∃ name ∈ s.places, attrIn name attrs ≠ .null
  := by
  rw [isElsewhere, List.any_eq_true]
  apply exists_congr
  intro name
  rw [Bool.not_eq_true', ← Bool.not_eq_true, isNull_iff]

/-- The gaps of a managed service are what it needs. -/
theorem map_fst_gaps (s : Service) (d : Defaults) :
  (s.gaps d).map Prod.fst = s.needs
  := by
  cases s <;> rfl

/-- A managed service is filled at what it needs, once each. -/
theorem nodup_gapSteps (s : Service) (d : Defaults) :
  (((s.gaps d).map fun gap => (gap.1, fun v : Value => v.orElse gap.2)).map Prod.fst).Nodup
  := by
  rw [List.map_map]
  cases s with
  | fileStore => exact List.nodup_singleton _
  | database => exact show ["type", "storage_size"].Nodup by decide

/-- What becomes of an attribute that a managed service cannot do without. -/
theorem attrIn_fillManaged (s : Service) (d : Defaults) {name : String} (h : name ∈ s.needs)
    (attrs : List (String × Value)) :
  ∃ p ∈ d.toPairs, attrIn name (s.fillManaged d attrs) = (attrIn name attrs).orElse p.2
  := by
  rw [← s.map_fst_gaps d] at h
  obtain ⟨gap, hgap, rfl⟩ := List.mem_map.mp h
  obtain ⟨p, hp, hsource⟩ := exists_of_gap d hgap
  have hstep : (gap.1, fun v : Value => v.orElse gap.2) ∈
      (s.gaps d).map fun gap => (gap.1, fun v : Value => v.orElse gap.2) :=
    List.mem_map.mpr ⟨gap, hgap, rfl⟩
  refine ⟨p, hp, ?_⟩
  rw [fillManaged_eq_alterAttrs, attrIn_alterAttrs hstep (s.nodup_gapSteps d), hsource]

end Service

open Shape

/-- A text that is not empty is left where a text that is not empty may be put in. -/
theorem exists_text_filled {v w : Value} (h : Shape.text.Admits v)
    (hw : ∃ s, w = .text s) (hgiven : w.truthy) :
  ∃ t, v.orElse w = .text t ∧ t ≠ ""
  := by
  have htext {x : Value} (hx : ∃ t, x = .text t) (hgiven : x.truthy) :
      ∃ t, x = .text t ∧ t ≠ "" := by
    obtain ⟨t, rfl⟩ := hx
    exact ⟨t, rfl, by simpa [truthy] using hgiven⟩
  by_cases hv : v.truthy = true
  · rw [orElse_of_truthy hv]
    exact htext (h.resolve_left (ne_null_of_truthy hv)) hv
  · rw [orElse, if_neg hv]
    exact htext hw hgiven

namespace Service

variable (s : Service) {d : Defaults}

/-- The attributes that a managed service cannot do without are texts. -/
theorem text_of_needs {name : String} (h : name ∈ s.needs) :
  ∃ f ∈ s.managedSchema.fields, f.1.attr = name ∧ f.2 = .text
  := by
  rw [← s.map_fst_gaps .builtin] at h
  obtain ⟨gap, hgap, rfl⟩ := List.mem_map.mp h
  exact s.exists_text_of_gap gap hgap

theorem admits_needs {v : Value} (typed : Typed (s.managedSchema.toShape false) v)
    {name : String} (h : name ∈ s.needs) :
  Shape.text.Admits (attrIn name v.attrs)
  := by
  obtain ⟨f, hf, rfl, hshape⟩ := s.text_of_needs h
  have hfield := typed.attr hf
  rw [hshape] at hfield
  exact hfield.admits rfl

/-- What a managed service is filled at. -/
theorem filledAt_filledManaged (hd : d.AreTexts) {v : Value}
    (typed : Typed (s.managedSchema.toShape false) v) :
  FilledAt ([] :: s.needs.map fun name => [name]) v (s.filledManaged d v)
  := by
  rw [filledManaged, fillManaged_eq_alterAttrs]
  apply filledAt_alterAttrs
  · rw [← s.managedSchema_kind]
    exact typed.accepts.1
  · exact s.nodup_gapSteps d
  · exact .head _
  · intro step hstep
    obtain ⟨gap, hgap, rfl⟩ := List.mem_map.mp hstep
    have hneed : gap.1 ∈ s.needs := s.map_fst_gaps d ▸ List.mem_map_of_mem hgap
    obtain ⟨t, ht⟩ := s.exists_text_of_gaps hd gap hgap
    refine ⟨[[]], .head _, ?_, ?_⟩
    · rintro path (_ | ⟨_, ⟨⟩⟩)
      exact .tail _ (List.mem_map.mpr ⟨gap.1, hneed, rfl⟩)
    · simp only [ht]
      exact filledAt_orElse (s.admits_needs typed hneed)

/-- What a service is filled at. -/
theorem filledAt_filled (hd : d.AreTexts) {v : Value} {required : Bool}
    (typed : Typed (s.schema.toShape required) v) :
  FilledAt s.filledPaths v (s.filled d v)
  := by
  rw [filled]
  split
  · exact filledAt_self _ v
  · change FilledAt _ v
      (.record s.kind (alterAttrs [("operator_managed", s.filledManaged d)] v.attrs))
    apply filledAt_alterAttrs
    · rw [← s.schema_kind]
      exact typed.accepts.1
    · exact List.nodup_singleton _
    · exact .head _
    · rintro step (_ | ⟨_, ⟨⟩⟩)
      refine ⟨_, .head _, ?_, s.filledAt_filledManaged hd (typed.attr s.managed_mem)⟩
      rintro path (_ | ⟨_, hpath⟩)
      · exact .tail _ (.head _)
      · obtain ⟨name, hname, rfl⟩ := List.mem_map.mp hpath
        exact .tail _ (.tail _ (List.mem_map.mpr ⟨name, hname, rfl⟩))

/-- A service that was filled lacks nothing. -/
theorem isComplete_filled (hd : d.AreTexts) (hgiven : ∀ p ∈ d.toPairs, p.2.truthy)
    {v : Value} {required : Bool} (typed : Typed (s.schema.toShape required) v) :
  s.IsComplete (s.filled d v)
  := by
  rw [filled]
  split
  · rename_i helsewhere
    obtain hnull | ⟨attrs, hrecord⟩ := typed.accepts.1
    · subst hnull
      cases s <;> contradiction
    · rw [s.schema_kind] at hrecord
      subst hrecord
      exact ⟨attrs, rfl, .inl (isElsewhere_iff.mp helsewhere)⟩
  · refine ⟨_, rfl, .inr ⟨_, attrIn_alterAttr .., fun name hname => ?_⟩⟩
    obtain ⟨p, hp, hbecomes⟩ :=
      s.attrIn_fillManaged d hname (attrIn "operator_managed" v.attrs).attrs
    rw [hbecomes]
    exact exists_text_filled (s.admits_needs (typed.attr s.managed_mem) hname)
      (hd p hp) (hgiven p hp)

end Service

/-! ### Specs -/

/-- The paths in a spec that its filling may change: the spec itself, its gaps, and the parts
that gaps are in. -/
def filledPaths : List (List String) :=
  [[], ["image"], ["version"], ["image_pull_policy"]] ++
    [Service.fileStore, .database].flatMap fun s => s.filledPaths.map (s.attrName :: ·)

example :
  filledPaths =
    [[], ["image"], ["version"], ["image_pull_policy"],
     ["file_store"], ["file_store", "operator_managed"],
     ["file_store", "operator_managed", "storage_size"],
     ["database"], ["database", "operator_managed"],
     ["database", "operator_managed", "type"],
     ["database", "operator_managed", "storage_size"]]
  := rfl

section Spec

variable {d : Defaults} {attrs : List (String × Value)}
  (typed : Typed (Schema.spec.toShape true) (.record .spec attrs))

include typed

theorem typed_service (s : Service) :
  ∃ required, Typed (s.schema.toShape required) (attrIn s.attrName attrs)
  := by
  cases s with
  | fileStore => exact ⟨_, typed.attr (Schema.spec.mem_fields "fileStore" rfl)⟩
  | database => exact ⟨_, typed.attr (Schema.spec.mem_fields "database" rfl)⟩

/-- What a spec is filled at. -/
theorem filledAt_filledAttrs (hd : d.AreTexts) :
  FilledAt filledPaths (.record .spec attrs) (.record .spec (filledAttrs d attrs))
  := by
  have hown {name : String} {v : Value} (hadmits : Shape.text.Admits (attrIn name attrs))
      (hpath : [name] ∈ filledPaths) (hv : ∃ t, v = .text t) :
      ∃ inner, [] ∈ inner ∧ (∀ path ∈ inner, name :: path ∈ filledPaths) ∧
        FilledAt inner (attrIn name attrs) ((attrIn name attrs).orElse v) := by
    obtain ⟨t, rfl⟩ := hv
    refine ⟨[[]], .head _, ?_, filledAt_orElse hadmits⟩
    rintro path (_ | ⟨_, ⟨⟩⟩)
    exact hpath
  have hservice (s : Service) :
      ∃ inner, [] ∈ inner ∧ (∀ path ∈ inner, s.attrName :: path ∈ filledPaths) ∧
        FilledAt inner (attrIn s.attrName attrs) (s.filled d (attrIn s.attrName attrs)) := by
    obtain ⟨required, hs⟩ := typed_service typed s
    refine ⟨s.filledPaths, .head _, fun path hpath => ?_, s.filledAt_filled hd hs⟩
    apply List.mem_append_right
    rw [List.mem_flatMap]
    exact ⟨s, by cases s <;> simp, List.mem_map_of_mem hpath⟩
  apply filledAt_alterAttrs (.inr ⟨attrs, rfl⟩) (nodup_specSteps ..) (.head _)
  rw [attrs_record, List.forall_mem_append]
  constructor
  · simp only [ownSteps, List.forall_mem_cons, List.not_mem_nil, false_implies, implies_true,
      and_true]
    exact ⟨hown ((typed.attr (Schema.spec.mem_fields "image" rfl)).admits rfl) (by decide) hd.image,
      hown ((typed.attr (Schema.spec.mem_fields "version" rfl)).admits rfl) (by decide) hd.version,
      hown ((typed.attr (Schema.spec.mem_fields "imagePullPolicy" rfl)).admits rfl) (by decide)
        hd.pullPolicy⟩
  · simp only [List.forall_mem_cons, List.not_mem_nil, false_implies, implies_true, and_true]
    exact ⟨hservice .fileStore, hservice .database⟩

/-- What the filling of a spec promises, with defaults that are texts and not empty.  It is
stopped for want of a host exactly when the spec is reached and its host is empty, and then the
spec is left as it was.  Otherwise it comes to its end: image, version, pull policy and both
services lack nothing, the spec differs from what it was in gaps at the paths of filled
attributes and of the parts that they are in, and services that are run elsewhere are as they
were. -/
theorem fillSpec_contract (hd : d.AreTexts) (hgiven : ∀ p ∈ d.toPairs, p.2.truthy) :
  ∃ view, resolveIngress (.record .spec attrs) = .ok view ∧
    ((view.enabled = true ∧ view.host = .text "") ∧
        fillSpec d (.record .spec attrs) = .failed (.record .spec attrs) .hostRequired ∨
      ¬(view.enabled = true ∧ view.host = .text "") ∧
        ∃ filled, fillSpec d (.record .spec attrs) = .done (.record .spec filled) ∧
          (∀ name ∈ ["image", "version", "image_pull_policy"],
            ∃ t, attrIn name filled = .text t ∧ t ≠ "") ∧
          (∀ s : Service, s.IsComplete (attrIn s.attrName filled)) ∧
          FilledAt filledPaths (.record .spec attrs) (.record .spec filled) ∧
          ∀ s : Service, (∃ name ∈ s.places, attrIn name (attrIn s.attrName attrs).attrs ≠ .null) →
            attrIn s.attrName filled = attrIn s.attrName attrs)
  := by
  obtain ⟨view, host, hview, hhost⟩ := exists_view_typed typed
  have hfill := (readyAttrs_of_typed typed).fillSpec hview d
  have hblocked : view.isBlocked = true ↔ view.enabled = true ∧ view.host = .text "" := by
    rw [IngressView.isBlocked, hhost]
    simp [truthy]
  refine ⟨view, hview, ?_⟩
  by_cases h : view.isBlocked = true
  · rw [if_pos h] at hfill
    exact .inl ⟨hblocked.mp h, hfill⟩
  · rw [if_neg h] at hfill
    have hservice (s : Service) :
        attrIn s.attrName (filledAttrs d attrs) = s.filled d (attrIn s.attrName attrs) := by
      cases s with
      | fileStore => exact (attrIn_filledAttrs d attrs).1
      | database => exact (attrIn_filledAttrs d attrs).2
    refine .inr ⟨mt hblocked.mpr h, _, hfill, ?_, fun s => ?_, filledAt_filledAttrs typed hd,
      fun s helsewhere => ?_⟩
    · have hown {name : String} {v : Value} (hstep : (name, fun x => x.orElse v) ∈ ownSteps d)
          (hadmits : Shape.text.Admits (attrIn name attrs)) (hv : ∃ t, v = .text t)
          (hfull : v.truthy) : ∃ t, attrIn name (filledAttrs d attrs) = .text t ∧ t ≠ "" := by
        rw [attrIn_filledAttrs_own d attrs hstep]
        exact exists_text_filled hadmits hv hfull
      simp only [List.forall_mem_cons, List.not_mem_nil, false_implies, implies_true, and_true]
      exact ⟨hown (.head _) ((typed.attr (Schema.spec.mem_fields "image" rfl)).admits rfl) hd.image
          (hgiven ("image", d.image) (.head _)),
        hown (.tail _ (.head _)) ((typed.attr (Schema.spec.mem_fields "version" rfl)).admits rfl)
          hd.version (hgiven ("version", d.version) (.tail _ (.head _))),
        hown (.tail _ (.tail _ (.head _)))
          ((typed.attr (Schema.spec.mem_fields "imagePullPolicy" rfl)).admits rfl)
          hd.pullPolicy (hgiven ("pull_policy", d.pullPolicy) (.tail _ (.tail _ (.head _))))⟩
    · obtain ⟨required, hs⟩ := typed_service typed s
      rw [hservice]
      exact s.isComplete_filled hd hgiven hs
    · rw [hservice, Service.filled, if_pos (Service.isElsewhere_iff.mpr helsewhere)]

end Spec

/-- The spec with an image that is left empty, and a database that is run elsewhere. -/
theorem fillSpec_contract_mixed :
  Defaults.builtin.AreTexts ∧ (∀ p ∈ Defaults.builtin.toPairs, p.2.truthy) ∧
  Typed (Schema.spec.toShape true) (.record .spec mixedAttrs) ∧
  ∃ filled, fillSpec .builtin (.record .spec mixedAttrs) = .done (.record .spec filled) ∧
    (∃ t, attrIn "image" filled = .text t ∧ t ≠ "") ∧
    Service.fileStore.IsComplete (attrIn "file_store" filled) ∧
    FilledAt filledPaths (.record .spec mixedAttrs) (.record .spec filled) ∧
    attrIn "database" filled = .record .database [("external", .record .externalDatabase [])]
  := by
  have hgiven : ∀ p ∈ Defaults.builtin.toPairs, p.2.truthy := by decide
  obtain ⟨view, hview, ⟨hblocked, -⟩ | ⟨-, filled, hfill, hown, hservices, hfilled, hsame⟩⟩ :=
    fillSpec_contract mixedAttrs_typed Defaults.areTexts_builtin hgiven
  · obtain rfl := Except.ok.inj hview
    exact absurd hblocked.2 (by simp [Value.orElse, truthy])
  · have helsewhere : attrIn "external" (attrIn "database" mixedAttrs).attrs =
        .record .externalDatabase [] := rfl
    exact ⟨Defaults.areTexts_builtin, hgiven, mixedAttrs_typed, filled, hfill,
      hown "image" (.head _), hservices .fileStore, hfilled,
      hsame .database ⟨"external", .head _, by simp [Service.attrName, helsewhere]⟩⟩

end Installation

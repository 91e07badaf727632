import Installation.Proofs.Gaps.Settled
import Installation.Proofs.Reconcile.Condition
import Installation.Value.Merge

/-!
# Written-back specs are settled

A spec into which the changes of a successful event were merged is read as the data whose gaps
were filled, up to nulls: `merged_readsAs`.  Every further event of it succeeds, changes
nothing and publishes the same about the installation, under the same defaults and under all
others where none of the first ones was empty: `reconcile_settled`.
-/

namespace Installation

open Shape Value

namespace Resource

/-- The named values that are different from those before. -/
def changedPairs (before after : List (String × Value)) : List (String × Value) :=
  after.filter fun p => !((before.lookup p.1).getD .null).same p.2

theorem lookup_changedPairs {name : String} (before : List (String × Value))
    {after : List (String × Value)} (distinct : (after.map Prod.fst).Nodup) :
  (changedPairs before after).lookup name =
    (after.lookup name).filter fun v => !((before.lookup name).getD .null).same v
  := Assoc.lookup_filter _ distinct

theorem changes_named (before after : List (String × Value)) :
  changes (named before) (named after) = named (changedPairs before after)
  := by
  have hdiffers (p : String × Value) : differs (named before) (.text p.1, p.2) =
      !((before.lookup p.1).getD .null).same p.2 := by
    rw [differs, ← lookup_named]
  induction after with
  | nil => rfl
  | cons p after ih =>
    rw [changes] at ih
    rw [changedPairs] at ih
    simp only [changes, changedPairs, named_cons, List.filter_cons, hdiffers, ih]
    split
    · rfl
    · rfl

/-- Nothing changes where nothing is different. -/
theorem changes_self {v : Value} (h : v.IsJson) :
  changes v.entries v.entries = []
  := by
  cases v with
  | dict es =>
    obtain ⟨pairs, rfl⟩ := h.exists_object
    obtain ⟨distinct, hpairs⟩ := (isJson_object pairs).mp h
    change changes (named pairs) (named pairs) = []
    have hnone : changedPairs pairs pairs = [] := by
      rw [changedPairs, List.filter_eq_nil_iff]
      rintro ⟨name, v⟩ hp
      simp [Assoc.lookup_of_mem distinct hp, same_refl (hpairs _ hp)]
    rw [changes_named, hnone]
    rfl
  | _ => rfl

end Resource

/-- A field of a part is read as the data that it has grown to, whether that was different and
was merged in or was left alone. -/
theorem changed_readsAs {shape : Shape} {found : Option Value} {x w w' : Value}
    (hregular : shape.regular) (hjson : ∀ v ∈ found, v.IsJson)
    (hinert : ∀ v ∈ found, shape.inert v) (hload : loadAt shape found = .ok x)
    (ht : Travels shape x w) (hgrown : Grows shape w w') :
  ReadsAs shape
    (match (if w'.isNull then none else some w'.dropNulls).filter
        fun v => !w.dropNulls.same v with
      | some v => some (mergeInto found v)
      | none => found)
    w'
  := by
  by_cases hnull : w' = .null
  · subst hnull
    obtain rfl := hgrown.eq_null
    exact ⟨hinert, x, .null, hload, ht, rfl⟩
  · rw [if_neg (mt isNull_iff.mp hnull), Option.filter]
    by_cases hsame : w.dropNulls.same w'.dropNulls = true
    · rw [hsame]
      exact ⟨hinert, x, w, hload, ht, hgrown.eq_of_same hregular hsame⟩
    · rw [Bool.eq_false_iff.mpr hsame]
      exact hgrown.readsAs hregular hjson hinert hload ht hnull

/-- The changes of the data of a spec are some entries of the filled data, which has grown field
by field. -/
theorem exists_changes {d : Defaults} (hd : d.AreTexts) {r w : Value}
    (h : Travels (Schema.spec.toShape true) r w) :
  ∃ pairs others, w = object pairs ∧ w.fillData d = object others ∧
    pairs.map Prod.fst = wires Schema.spec.fields ∧
    others.map Prod.fst = wires Schema.spec.fields ∧
    (∀ f ∈ Schema.spec.fields,
      Grows f.2 ((pairs.lookup f.1.wire).getD .null) ((others.lookup f.1.wire).getD .null)) ∧
    dict (Resource.changesData d w) =
      object (Resource.changedPairs (dropNullPairs pairs) (dropNullPairs others))
  := by
  obtain ⟨hgrows, -⟩ := grows_fillData hd h
  have hnull : w ≠ .null := mt h.eq_null_iff.mpr (given_of_required h)
  obtain ⟨pairs, others, hpairs, hothers, names, names', hfields⟩ := hgrows.exists_objects hnull
  refine ⟨pairs, others, hpairs, hothers, names, names', hfields, ?_⟩
  rw [Resource.changesData, hothers, hpairs, dropNulls_object, dropNulls_object, entries_object,
    entries_object, Resource.changes_named, object]

/-- A spec with the changes of its data merged in is read as the filled data. -/
theorem merged_readsAs {d : Defaults} (hd : d.AreTexts) {v r w : Value} (hv : v.IsJson)
    (hinert : (Schema.spec.toShape true).inert v)
    (hload : (Schema.spec.toShape true).load v = .ok r)
    (h : Travels (Schema.spec.toShape true) r w) :
  ReadsAs (Schema.spec.toShape true) (some (v.merge (.dict (Resource.changesData d w))))
    (w.fillData d)
  := by
  have hpart := regularPart_spec
  obtain ⟨-, rfl⟩ | ⟨stored, attrs, rfl, -⟩ := load_part_cases hpart hv hinert hload
  · exact absurd rfl (given_of_required h)
  obtain ⟨pairs, others, rfl, hfilled, names, names', hgrows, hchanges⟩ := exists_changes hd h
  have hnodup : (pairs.map Prod.fst).Nodup := names ▸ hpart.wires_nodup
  have hnodup' : (others.map Prod.fst).Nodup := names' ▸ hpart.wires_nodup
  rw [hchanges, hfilled]
  apply patched_readsAs (regular_spec true) hv hinert hload h
  · exact (nodup_dropNullPairs hnodup').sublist (List.filter_sublist.map _)
  · intro p hp
    rw [← names']
    exact (map_fst_dropNullPairs_sublist others).subset
      (List.mem_map_of_mem (List.mem_filter.mp hp).1)
  · exact names'
  · intro f hf x hx htravels hjson hinert
    rw [Resource.lookup_changedPairs _ (nodup_dropNullPairs hnodup'),
      getD_lookup_dropNullPairs hnodup, lookup_dropNullPairs hnodup']
    exact changed_readsAs (hpart.fields_regular f hf) hjson hinert hx htravels (hgrows f hf)

/-! ### What is published about data -/

namespace Value

theorem under_fillData_rest {other : String}
    (h : other ∉ ["image", "version", "imagePullPolicy", "fileStore", "database"])
    (d : Defaults) (w : Value) :
  (w.fillData d).under other = w.under other
  := by
  simp only [List.mem_cons, List.not_mem_nil, or_false, not_or] at h
  rw [under_fillData_ne (by simp [h]), under_fillOwnData_ne (by simp [h])]

/-- How a spec is reached does not depend on the gaps that were filled. -/
theorem isBlocked_fillData (d : Defaults) (w : Value) :
  (w.fillData d).isBlocked = w.isBlocked
  := by
  rw [isBlocked, isReached, hostOf, under_fillData_rest (by decide),
    under_fillData_rest (by decide)]
  rfl

end Value

namespace SameData

variable {v w : Value} (h : SameData v w)

include h

/-- There are no nulls in a text. -/
theorem eq_of_text (hfits : Shape.text.Fits v) :
  v = w
  := by
  obtain rfl | ⟨s, rfl⟩ := hfits
  · exact (h.null_iff.mp rfl).symm
  · have heq := h.eq
    rw [dropNulls_text] at heq
    exact (dropNulls_eq_text.mp heq.symm).symm

/-- There are no nulls in a boolean. -/
theorem eq_of_boolean (hfits : Shape.boolean.Fits v) :
  v = w
  := by
  obtain rfl | ⟨b, rfl⟩ := hfits
  · exact (h.null_iff.mp rfl).symm
  · have heq := h.eq
    cases w with
    | bool b' => simpa [dropNulls] using heq
    | _ => simp [dropNulls] at heq

/-- The ingress parts in the data of a spec say the same. -/
theorem ingress_eq {r : Value} (ht : Travels (Schema.ingress.toShape false) r v) :
  v.under "enabled" = w.under "enabled" ∧ v.under "host" = w.under "host"
  := by
  by_cases hnull : r = .null
  · obtain rfl := ht.eq_null_iff.mp hnull
    obtain rfl := h.null_iff.mp rfl
    exact ⟨rfl, rfl⟩
  · obtain ⟨-, henabled⟩ := attr_leaf regularPart_ingress ht hnull (.head _) rfl
    obtain ⟨-, hhost⟩ := attr_leaf regularPart_ingress ht hnull (.tail _ (.head _)) rfl
    exact ⟨(h.under _).eq_of_boolean henabled, (h.under _).eq_of_text hhost⟩

/-- The data of a spec is reached in the same way. -/
theorem reach_eq {r : Value} (ht : Travels (Schema.spec.toShape true) r v) :
  v.isReached = w.isReached ∧ v.hostOf = w.hostOf
  := by
  have hgiven := given_of_required ht
  obtain ⟨-, hhost⟩ :=
    attr_leaf regularPart_spec ht hgiven (Schema.spec.mem_fields "ingressName" rfl) rfl
  obtain ⟨x, -, hx⟩ := ht.attr regularPart_spec hgiven (Schema.spec.mem_fields "ingress" rfl)
  obtain ⟨henabled, hhost'⟩ := (h.under "ingress").ingress_eq hx
  have hnull : (v.under "ingress").isNull = (w.under "ingress").isNull := by
    rw [Bool.eq_iff_iff, isNull_iff, isNull_iff]
    exact (h.under _).null_iff
  constructor
  · rw [isReached, isReached, hnull, henabled]
  · rw [hostOf, hostOf, hnull, hhost', (h.under _).eq_of_text hhost]

/-- What is published about the data of a spec is the same. -/
theorem lookup_aboutPairs {r : Value} (ht : Travels (Schema.spec.toShape true) r v)
    (owner owner' : String) {name : String} (hname : name ≠ "selector") :
  (Resource.aboutPairs owner v).lookup name = (Resource.aboutPairs owner' w).lookup name
  := by
  have hgiven := given_of_required ht
  obtain ⟨-, himage⟩ :=
    attr_leaf regularPart_spec ht hgiven (Schema.spec.mem_fields "image" rfl) rfl
  obtain ⟨-, hversion⟩ :=
    attr_leaf regularPart_spec ht hgiven (Schema.spec.mem_fields "version" rfl) rfl
  obtain ⟨hreached, hhost⟩ := h.reach_eq ht
  have hne : (name == "selector") = false := by simpa using hname
  simp only [Resource.aboutPairs, List.lookup_cons, hne, hreached, hhost, h.eq,
    (h.under _).eq_of_text himage, (h.under _).eq_of_text hversion]

end SameData

/-! ### The next event -/

section Again

variable {event : Event} (hd : event.settings.defaults.AreTexts) (hjson : event.spec.IsJson)
  (hinert : (Schema.spec.toShape true).inert event.spec)

include hd hjson hinert

/-- What comes of an event that has succeeded, told from the data that its spec travels as. -/
theorem exists_of_success (hwrite : event.settings.writeBack.truthy)
    (hsuccess : (reconcile event).fault? = none) :
  ∃ r w rest, Schema.spec.load event.spec = .ok r ∧ Travels (Schema.spec.toShape true) r w ∧
    w.isBlocked = false ∧ (reconcile event).patch.spec?.getD [] =
      Resource.changesData event.settings.defaults w ∧
    (reconcile event).patch.status? =
      some (named (Resource.aboutPairs event.name (w.fillData event.settings.defaults)) ++ rest)
  := by
  cases hload : Schema.spec.load event.spec with
  | error fault => simp [reconcile, Resource.load, hload, Except.map] at hsuccess
  | ok r =>
    obtain ⟨w, htravels⟩ := Schema.load_spec_travels hjson hinert hload
    have hrun := reconcile_travels hd hload htravels
    cases hblocked : w.isBlocked with
    | true =>
      rw [if_pos hblocked] at hrun
      rw [hrun, Event.reject] at hsuccess
      split at hsuccess
      · simp at hsuccess
      · simp at hsuccess
    | false =>
      rw [if_neg (by simp [hblocked])] at hrun
      obtain ⟨resource, hpublish, hname, hdefaulted, hstatus⟩ := hrun
      simp only [hpublish, Event.publish] at hsuccess ⊢
      rw [hstatus] at hsuccess ⊢
      split at hsuccess
      · simp at hsuccess
      · rename_i es hentries
        obtain ⟨rest, rfl⟩ := exists_of_statusEntries hentries
        refine ⟨r, w, rest, rfl, htravels, hblocked, ?_, ?_⟩
        · rw [← hdefaulted]
          simp only [Event.writeBack?, hwrite, Bool.true_and, Resource.specPatch]
          cases hempty : resource.defaulted with
          | nil => rfl
          | cons e es => rfl
        · rfl

/-- The spec that was merged is read as data that is the filled data, up to nulls. -/
theorem exists_of_merged {r w : Value} (hload : Schema.spec.load event.spec = .ok r)
    (h : Travels (Schema.spec.toShape true) r w) (hblocked : w.isBlocked = false) :
  ∃ r₁ r₂ w', Travels (Schema.spec.toShape true) r₁ (w.fillData event.settings.defaults) ∧
    Schema.spec.load (event.spec.merge
      (.dict (Resource.changesData event.settings.defaults w))) = .ok r₂ ∧
    Travels (Schema.spec.toShape true) r₂ w' ∧
    SameData (w.fillData event.settings.defaults) w'
  := by
  have hfill := fillSpec_travels hd h
  rw [if_neg (by simp [hblocked])] at hfill
  obtain ⟨r₁, -, hfilled⟩ := hfill
  obtain ⟨es, hes⟩ : ∃ es, event.spec = .dict es := by
    generalize event.spec = v at hload
    cases v with
    | dict es => exact ⟨es, rfl⟩
    | _ => simp [Schema.load] at hload
  have hread := hload
  rw [hes, Schema.load_dict, ← hes] at hread
  obtain ⟨-, r₂, w', hmerged, htravels, heq⟩ := merged_readsAs hd hjson hinert hread h
  refine ⟨r₁, r₂, w', hfilled, ?_, htravels, ?_⟩
  · rw [hes, merge] at hmerged ⊢
    rw [Schema.load_dict]
    exact hmerged
  · exact ⟨hfilled.isJson (regular_spec true), htravels.isJson (regular_spec true), heq.symm⟩

end Again

/-- Filling the gaps of data that is settled up to nulls changes nothing. -/
theorem changesData_of_settled {d : Defaults} {v w : Value} (h : SameData v w)
    (hv : Settled d v) :
  Resource.changesData d w = []
  := by
  rw [Resource.changesData, fillData_of_settled h.right (h.settled hv)]
  exact Resource.changes_self h.right.dropNulls

/-- What is published about a resource comes first in its status. -/
theorem entryAt?_append_of_lookup {name : String} {pairs : List (String × Value)} {v : Value}
    (h : pairs.lookup name = some v) (rest : List (Key × Value)) :
  entryAt? name (named pairs ++ rest) = some v
  := by
  rw [entryAt?, List.lookup_append, lookup_named, h, Option.some_or]

/-- A spec that was written back is settled.  After an event that has succeeded, each event of
the spec that its changes were merged into succeeds as well, has nothing to write back and
publishes the same about the spec, under the same defaults and under all others where none of
the first ones was empty. -/
theorem reconcile_settled {event again : Event} {metadata : List (Key × Value)}
    (hd : event.settings.defaults.AreTexts) (hd' : again.settings.defaults.AreTexts)
    (hdefaults : again.settings.defaults = event.settings.defaults ∨
      ∀ p ∈ event.settings.defaults.toPairs, p.2.truthy)
    (hjson : event.spec.IsJson) (hinert : (Schema.spec.toShape true).inert event.spec)
    (hwrite : event.settings.writeBack.truthy) (hsuccess : (reconcile event).fault? = none)
    (hspec : again.spec =
      event.spec.merge (.dict ((reconcile event).patch.spec?.getD [])))
    (hmetadata : again.metadata = .dict metadata) (hstatus : WellFormedStatus again.status) :
  (reconcile again).fault? = none ∧ (reconcile again).patch.spec? = none ∧
  ∃ before after, (reconcile event).patch.status? = some before ∧
    (reconcile again).patch.status? = some after ∧
    ∀ name ∈ ["image", "version", "endpoint", "specHash"],
      ∃ v, entryAt? name before = some v ∧ entryAt? name after = some v
  := by
  obtain ⟨r, w, rest, hload, htravels, hblocked, hpatch, hbefore⟩ :=
    exists_of_success hd hjson hinert hwrite hsuccess
  obtain ⟨r₁, r₂, w', hfilled, hload', htravels', hsame⟩ :=
    exists_of_merged hd hjson hinert hload htravels hblocked
  rw [← hpatch, ← hspec] at hload'
  have hsettled : Settled again.settings.defaults (w.fillData event.settings.defaults) :=
    settled_fillData hd (persist hdefaults) htravels
  have hblocked' : w'.isBlocked = false := by
    obtain ⟨hreached, hhost⟩ := hsame.reach_eq hfilled
    rw [← hblocked, ← isBlocked_fillData event.settings.defaults w, isBlocked, isBlocked,
      hreached, hhost]
  have hrun := reconcile_travels hd' hload' htravels'
  rw [if_neg (by simp [hblocked'])] at hrun
  obtain ⟨resource, hpublish, hname, hdefaulted, hpublished⟩ := hrun
  rw [changesData_of_settled hsame hsettled] at hdefaulted
  rw [fillData_of_settled hsame.right (hsame.settled hsettled)] at hpublished
  obtain ⟨rest', hentries⟩ := statusEntries_wellFormed hstatus hmetadata true
    Event.resolvedReason s!"{resourceKind} {resource.name} spec resolved" .null
    (named (Resource.aboutPairs again.name w'))
  rw [hbefore, hpublish, Event.publish, hpublished]
  simp only [hentries]
  refine ⟨trivial, ?_, _, _, rfl, rfl, ?_⟩
  · simp [Event.writeBack?, Resource.specPatch, hdefaulted]
  · intro name hmem
    have hselector : name ≠ "selector" := by
      rintro rfl
      simp at hmem
    have hlookup := hsame.lookup_aboutPairs hfilled event.name again.name hselector
    obtain ⟨v, hv⟩ : ∃ v, (Resource.aboutPairs again.name w').lookup name = some v := by
      simp only [List.mem_cons, List.not_mem_nil, or_false] at hmem
      obtain rfl | rfl | rfl | rfl := hmem <;> exact ⟨_, rfl⟩
    exact ⟨v, entryAt?_append_of_lookup (hlookup.trans hv) rest,
      entryAt?_append_of_lookup hv rest'⟩

/-- A spec with a count given as a text, a null and an entry that is no field. -/
def sampleSpec : Value :=
  object
    [("ingressName", .text "chat.example.com"), ("replicas", .text "3"),
     ("fileStore", object [("operatorManaged", .null)]), ("backupURL", .text "s3://backups")]

/-- Defaults with another image. -/
def forkedSettings : Settings := ⟨{ Defaults.builtin with image := .text "fork" }, .bool true⟩

/-- The sample spec stays settled when the defaults change. -/
theorem reconcile_settled_forked :
  let event := Event.ofSpec sampleSpec .builtin
  let spec := sampleSpec.merge (.dict ((reconcile event).patch.spec?.getD []))
  let again := Event.ofSpec spec forkedSettings
  (reconcile again).fault? = none ∧ (reconcile again).patch.spec? = none ∧
  ∃ before after, (reconcile event).patch.status? = some before ∧
    (reconcile again).patch.status? = some after ∧
    ∀ name ∈ ["image", "version", "endpoint", "specHash"],
      ∃ v, entryAt? name before = some v ∧ entryAt? name after = some v
  := by
  apply reconcile_settled Defaults.areTexts_builtin
  · simp [Defaults.AreTexts, Event.ofSpec, forkedSettings, Defaults.builtin, Defaults.toPairs]
  · right
    decide
  · simp [Event.ofSpec, sampleSpec, isJson_object, IsJson]
  · decide
  · rfl
  · decide +kernel
  · rfl
  · rfl
  · exact .inl rfl

end Installation

import Installation.Proofs.Reconcile.Settled
import Installation.Proofs.Schema.Patch

/-!
# What is written back

The changes of an event that has succeeded fill gaps of its spec, and do no more than that.
Merged into the spec they keep all of its paths, leave all entries alone that are no fields, at
every level, and change no field that was given; they have no null entries, so that they remove
nothing from the stored resource: `reconcile_writeBack`.
-/

namespace Installation

open Shape Value

/-- There are no nulls among the changes of a spec. -/
theorem Resource.lacksNulls_changesData (d : Defaults) (w : Value) :
  (dict (Resource.changesData d w)).lacksNulls
  := by
  have hafter : ∀ e ∈ (w.fillData d).dropNulls.entries, e.2 ≠ .null ∧ e.2.lacksNulls := by
    cases h : w.fillData d with
    | dict es =>
      rw [dropNulls]
      exact entriesLackNulls_iff.mp (entriesLackNulls_dropNullEntries es)
    | _ => simp [dropNulls, entries]
  rw [lacksNulls, entriesLackNulls_iff]
  intro e he
  exact hafter e (List.mem_filter.mp he).1

section WriteBack

variable {d : Defaults} (hd : d.AreTexts) {v r w : Value}

include hd

/-- The changes of the data of a spec have no entries but those of fields. -/
theorem changesData_modelled (h : Travels (Schema.spec.toShape true) r w)
    (hblocked : w.isBlocked = false) :
  Modelled (Schema.spec.toShape true) (.dict (Resource.changesData d w))
  := by
  have hfill := fillSpec_travels hd h
  rw [if_neg (by simp [hblocked])] at hfill
  obtain ⟨r', -, hfilled⟩ := hfill
  obtain ⟨pairs, others, -, hothers, -, -, -, hchanges⟩ := exists_changes hd h
  have hmodelled := hfilled.modelled (regular_spec true) (by simp [hothers, object])
  rw [hothers, dropNulls_object] at hmodelled
  rw [hchanges]
  exact hmodelled.sublist List.filter_sublist

/-- A spec keeps its paths when the changes of its data are merged in. -/
theorem changesData_keeps (hv : v.IsJson) (hinert : (Schema.spec.toShape true).inert v)
    (hload : (Schema.spec.toShape true).load v = .ok r)
    (h : Travels (Schema.spec.toShape true) r w) :
  Keeps v (.dict (Resource.changesData d w))
  := by
  obtain ⟨-, rfl⟩ | ⟨stored, attrs, rfl, -⟩ := load_part_cases regularPart_spec hv hinert hload
  · exact absurd rfl (given_of_required h)
  obtain ⟨-, hjson⟩ := (isJson_object stored).mp hv
  obtain ⟨-, hfields⟩ := inert_object.mp hinert
  obtain ⟨pairs, others, rfl, -, -, names, hgrows, hchanges⟩ := exists_changes hd h
  rw [hchanges]
  apply part_keeps (regular_spec true) hv hinert hload h names List.filter_sublist
  intro f hf x y hx hy htravels hother
  exact (hgrows f hf).keeps (regularPart_spec.fields_regular f hf)
    (hjson _ (Assoc.mem_of_lookup hx)) (hfields f hf x hx) hy htravels hother

end WriteBack

/-- What is written back fills gaps.  Where an event has succeeded, the spec that its changes
were merged into has all paths of the spec through dictionaries; each entry that is no field, in
each part, is there as it was or is still missing; and it is read as a record that retains what
was given.  The changes have no null entries. -/
theorem reconcile_writeBack {event : Event} {merged : Value}
    (hd : event.settings.defaults.AreTexts) (hjson : event.spec.IsJson)
    (hinert : (Schema.spec.toShape true).inert event.spec)
    (hwrite : event.settings.writeBack.truthy) (hsuccess : (reconcile event).fault? = none)
    (hmerged : merged =
      event.spec.merge (.dict ((reconcile event).patch.spec?.getD []))) :
  (∀ path, (event.spec.at? path).isSome → (merged.at? path).isSome) ∧
  (∀ path kind fields name,
    (Schema.spec.toShape true).partAt? path = some (kind, fields) → name ∉ wires fields →
      merged.at? (path ++ [name]) = event.spec.at? (path ++ [name])) ∧
  (∃ r r', Schema.spec.load event.spec = .ok r ∧ Schema.spec.load merged = .ok r' ∧
    Retains (Schema.spec.toShape true) r r') ∧
  (Value.dict ((reconcile event).patch.spec?.getD [])).lacksNulls
  := by
  obtain ⟨r, w, -, hload, htravels, hblocked, hpatch, -⟩ :=
    exists_of_success hd hjson hinert hwrite hsuccess
  obtain ⟨r₁, r', w', -, hload', htravels', hsame⟩ :=
    exists_of_merged hd hjson hinert hload htravels hblocked
  have hread : (Schema.spec.toShape true).load event.spec = .ok r := by
    generalize event.spec = v at hload
    cases v with
    | dict es => rw [← Schema.load_dict, hload]
    | _ => simp [Schema.load] at hload
  rw [hpatch] at hmerged ⊢
  subst hmerged
  refine ⟨?_, ?_, ⟨r, r', hload, hload', ?_⟩, ?_⟩
  · exact changesData_keeps hd hjson hinert hread htravels
  · intro path kind fields name hpath hname
    exact at?_merge hjson (changesData_modelled hd htravels hblocked) hpath hname
  · exact (grows_fillData hd htravels).1.retains (regular_spec true) htravels hsame htravels'
  · exact Resource.lacksNulls_changesData event.settings.defaults w

/-- What is written back into the sample spec fills gaps. -/
theorem reconcile_writeBack_sample :
  let event := Event.ofSpec sampleSpec .builtin
  let merged := sampleSpec.merge (.dict ((reconcile event).patch.spec?.getD []))
  (∀ path, (sampleSpec.at? path).isSome → (merged.at? path).isSome) ∧
  (∀ path kind fields name,
    (Schema.spec.toShape true).partAt? path = some (kind, fields) → name ∉ wires fields →
      merged.at? (path ++ [name]) = sampleSpec.at? (path ++ [name])) ∧
  (∃ r r', Schema.spec.load sampleSpec = .ok r ∧ Schema.spec.load merged = .ok r' ∧
    Retains (Schema.spec.toShape true) r r') ∧
  (Value.dict ((reconcile event).patch.spec?.getD [])).lacksNulls
  := by
  intro event merged
  have hjson : sampleSpec.IsJson := by
    simp [sampleSpec, isJson_object, IsJson]
  exact @reconcile_writeBack event merged Defaults.areTexts_builtin hjson (by decide) rfl
    (by decide +kernel) rfl

end Installation

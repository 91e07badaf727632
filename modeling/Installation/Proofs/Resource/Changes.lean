import Installation.Proofs.Gaps.Dumped
import Installation.Proofs.Reconcile.Settled

/-!
# Changes of resources

The patch of a resource whose gaps were filled.  Where the data of a part has grown, an entry of
a field is among the changes if and only if the field has other data than before, nulls aside:
`mem_changes`.  So the patch tells what has happened to the dump, no more and no less:
`Describes`.  To fill the gaps of a typed spec comes to its end or is stopped for want of a host,
and to fill them once more leaves an empty patch: `fillGaps_typed`.
-/

namespace Installation

open Shape Value

namespace Resource

/-- Whether a patch describes how entries have changed.  It has all entries that were not there
before, with no key twice, and none of the keys from before has gone. -/
structure Describes (patch before after : List (Key × Value)) : Prop where
  distinct : (patch.map Prod.fst).Nodup
  mem_iff : ∀ e, e ∈ patch ↔ e ∈ after ∧ e ∉ before
  kept : ∀ k ∈ before.map Prod.fst, k ∈ after.map Prod.fst

/-- What stays as it is needs no patch. -/
theorem Describes.eq_nil {patch entries : List (Key × Value)}
    (h : Describes patch entries entries) :
  patch = []
  := by
  rw [List.eq_nil_iff_forall_not_mem]
  intro e he
  obtain ⟨hmem, hnew⟩ := (h.mem_iff e).mp he
  exact hnew hmem

section Grown

variable {required : Bool} {kind : Kind} {fields : List (Slot × Shape)} {w w' : Value}

/-- What is left of the data of a part without its nulls. -/
theorem mem_entries_dropNulls {pairs : List (String × Value)} (distinct : (wires fields).Nodup)
    (names : pairs.map Prod.fst = wires fields) {e : Key × Value} :
  e ∈ (object pairs).dropNulls.entries ↔ ∃ f ∈ fields, e.1 = .text f.1.wire ∧
    (object pairs).under f.1.wire ≠ .null ∧ e.2 = ((object pairs).under f.1.wire).dropNulls
  := by
  have distinct' : (pairs.map Prod.fst).Nodup := names ▸ distinct
  rw [dropNulls_object, entries_object, named, List.mem_map]
  simp only [under_object]
  constructor
  · rintro ⟨⟨name, v⟩, hp, rfl⟩
    obtain ⟨x, hx, hgiven, rfl⟩ := mem_dropNullPairs.mp hp
    have hname : name ∈ wires fields := names ▸ List.mem_map_of_mem hx
    obtain ⟨f, hf, rfl⟩ := List.mem_map.mp hname
    refine ⟨f, hf, rfl, ?_⟩
    rw [Assoc.lookup_of_mem distinct' hx]
    exact ⟨hgiven, rfl⟩
  · rintro ⟨f, hf, hkey, hgiven, hvalue⟩
    refine ⟨(f.1.wire, e.2), mem_dropNullPairs.mpr ⟨_, ?_, hgiven, hvalue.symm⟩, ?_⟩
    · cases hfound : pairs.lookup f.1.wire with
      | none => simp [hfound] at hgiven
      | some x => exact Assoc.mem_of_lookup hfound
    · rw [← hkey]

/-- The changes of a part are named values of some of its fields. -/
theorem exists_changed (h : Grows (.part required kind fields) w w') (hgiven : w ≠ .null) :
  ∃ pairs, changes w.dropNulls.entries w'.dropNulls.entries = named pairs ∧
    (pairs.map Prod.fst).Sublist (wires fields)
  := by
  obtain ⟨pairs, others, rfl, rfl, -, names, -⟩ := h.exists_objects hgiven
  rw [dropNulls_object, dropNulls_object, entries_object, entries_object, changes_named]
  refine ⟨_, rfl, ?_⟩
  rw [← names]
  exact (List.filter_sublist.map _).trans (map_fst_dropNullPairs_sublist others)

variable (hregular : regular (.part required kind fields))
  (h : Grows (.part required kind fields) w w') (hgiven : w ≠ .null) (hsound : w'.Sound)

include hregular h hgiven hsound

/-- A field is among the changes if and only if its data was something else before, nulls
aside. -/
theorem mem_changes {f : Slot × Shape} (hf : f ∈ fields) {v : Value} :
  (.text f.1.wire, v) ∈ changes w.dropNulls.entries w'.dropNulls.entries ↔
    v = (w'.under f.1.wire).dropNulls ∧ v ≠ (w.under f.1.wire).dropNulls
  := by
  have hpart := regularPart hregular
  obtain ⟨pairs, others, rfl, rfl, names, names', hfields⟩ := h.exists_objects hgiven
  have distinct : (pairs.map Prod.fst).Nodup := names ▸ hpart.wires_nodup
  have distinct' : (others.map Prod.fst).Nodup := names' ▸ hpart.wires_nodup
  have hgrown := hfields f hf
  have hbefore : ((dropNullPairs pairs).lookup f.1.wire).getD .null =
      ((object pairs).under f.1.wire).dropNulls := by
    rw [getD_lookup_dropNullPairs distinct, under_object]
  rw [← under_object, ← under_object] at hgrown
  rw [dropNulls_object, dropNulls_object, entries_object, entries_object, changes_named,
    changedPairs]
  have hmem : (Key.text f.1.wire, v) ∈ named ((dropNullPairs others).filter
        fun p => !(((dropNullPairs pairs).lookup p.1).getD .null).same p.2) ↔
      (f.1.wire, v) ∈ dropNullPairs others ∧
        (((object pairs).under f.1.wire).dropNulls.same v) = false := by
    simp [named, List.mem_filter, hbefore]
  rw [hmem, mem_dropNullPairs]
  constructor
  · rintro ⟨⟨x, hx, -, rfl⟩, hdiffers⟩
    have hunder : (object others).under f.1.wire = x := by
      rw [under_object, Assoc.lookup_of_mem distinct' hx, Option.getD_some]
    refine ⟨by rw [hunder], fun heq => ?_⟩
    -- what is sound is the same as itself
    have hx' : x.Sound := (sound_object.mp hsound).2 _ hx
    rw [← heq, same_self _ (sound_dropNulls x hx')] at hdiffers
    contradiction
  · rintro ⟨rfl, hne⟩
    have hnull : (object others).under f.1.wire ≠ .null := by
      intro hnull
      rw [hnull] at hgrown hne
      rw [hgrown.eq_null] at hne
      exact hne rfl
    refine ⟨⟨_, ?_, hnull, rfl⟩, Bool.eq_false_iff.mpr fun hsame => ?_⟩
    · rw [under_object] at hnull ⊢
      cases hfound : others.lookup f.1.wire with
      | none => simp [hfound] at hnull
      | some x => exact Assoc.mem_of_lookup hfound
    · exact hne (hgrown.eq_of_same (hpart.fields_regular f hf) hsame).symm

/-- The changes of a part describe how its data has grown. -/
theorem describes_changes :
  Describes (changes w.dropNulls.entries w'.dropNulls.entries) w.dropNulls.entries
    w'.dropNulls.entries
  := by
  have hwires := (regularPart hregular).wires_nodup
  have hchanges (f : Slot × Shape) (hf : f ∈ fields) (v : Value) :=
    @mem_changes _ _ _ _ _ hregular h hgiven hsound f hf v
  obtain ⟨changed, hchanged, hsub⟩ := exists_changed h hgiven
  obtain ⟨pairs, others, rfl, rfl, names, names', hfields⟩ := h.exists_objects hgiven
  have hbefore {e : Key × Value} := @mem_entries_dropNulls _ pairs hwires names e
  have hafter {e : Key × Value} := @mem_entries_dropNulls _ others hwires names' e
  constructor
  · rw [hchanged, nodup_named]
    exact hwires.sublist hsub
  · intro e
    constructor
    · intro he
      have hname : e ∈ named changed := hchanged ▸ he
      obtain ⟨p, hp, rfl⟩ := List.mem_map.mp hname
      obtain ⟨f, hf, heq⟩ := List.mem_map.mp (hsub.subset (List.mem_map_of_mem hp))
      simp only [← heq] at he ⊢
      refine ⟨(List.mem_filter.mp he).1, fun hmem => ?_⟩
      obtain ⟨g, hg, hkey, -, hvalue⟩ := hbefore.mp hmem
      obtain rfl := eq_of_wire_eq hwires hf hg (Key.text.inj hkey)
      exact ((hchanges f hf p.2).mp he).2 hvalue
    · rintro ⟨hmem, hnew⟩
      obtain ⟨f, hf, hkey, hfield, hvalue⟩ := hafter.mp hmem
      obtain ⟨k, v⟩ := e
      obtain rfl : k = .text f.1.wire := hkey
      refine (hchanges f hf v).mpr ⟨hvalue, fun heq => hnew (hbefore.mpr ⟨f, hf, rfl, ?_, heq⟩)⟩
      intro hnull
      rw [hnull, dropNulls_null] at heq
      exact hfield (dropNulls_eq_null.mp (hvalue.symm.trans heq))
  · intro k hk
    obtain ⟨e, he, rfl⟩ := List.mem_map.mp hk
    obtain ⟨f, hf, hkey, hfield, -⟩ := hbefore.mp he
    have hgrown : (object others).under f.1.wire ≠ .null := by
      have hunder := hfields f hf
      rw [← under_object, ← under_object] at hunder
      exact fun hnull => hfield (hnull ▸ hunder).eq_null
    exact List.mem_map.mpr
      ⟨(.text f.1.wire, _), hafter.mpr ⟨f, hf, rfl, hgrown, rfl⟩, hkey.symm⟩

end Grown

/-! ### Filling the gaps of a resource -/

/-- The filling of the gaps of a typed spec is stopped for want of a host, or comes to its end.
Then the patch describes how the dump has changed, and to fill the gaps once more comes to the
same end with an empty patch. -/
theorem fillGaps_typed {d : Defaults} {attrs : List (String × Value)} (hd : d.AreTexts)
    (typed : Typed (Schema.spec.toShape true) (.record .spec attrs))
    (hsound : (Value.record .spec attrs).Sound) {r : Resource}
    (hspec : r.spec = .record .spec attrs) :
  ∃ before, r.dumpSpec = .ok before ∧
    (r.fillGaps d = .failed r .hostRequired ∨
      ∃ r' after, r.fillGaps d = .done r' ∧ r'.dumpSpec = .ok after ∧
        Describes r'.specPatch before after ∧ r'.fillGaps d = .done { r' with defaulted := [] })
  := by
  have hready := readyAttrs_of_typed typed
  obtain ⟨view, hview⟩ := resolveIngress_typed typed
  obtain ⟨w, w', hdump, hdump', hgrows, hsound'⟩ := dumpsTo_filledAttrs hd typed hsound
  have hbefore : r.dumpSpec = .ok w.dropNulls.entries := by
    rw [dumpSpec, hspec]
    exact wireEntries_of_dump hdump
  have hafter := wireEntries_of_dump hdump'
  have hfill := hready.fillSpec hview d
  refine ⟨_, hbefore, ?_⟩
  cases hblocked : view.isBlocked with
  | true =>
    left
    rw [hblocked, if_pos rfl, ← hspec] at hfill
    rw [fillGaps, hbefore, hfill]
    rfl
  | false =>
    right
    rw [hblocked, if_neg Bool.false_ne_true, ← hspec] at hfill
    have hgiven : w ≠ .null := by
      obtain ⟨pairs, rfl, -⟩ := exists_of_dump_part regularPart_spec (by simp) hdump
      simp [object]
    have hagain : fillSpec d (.record .spec (filledAttrs d attrs)) =
        .done (.record .spec (filledAttrs d attrs)) := by
      have hview' := resolveIngress_filledAttrs d attrs
      rw [hview] at hview'
      rw [(hready.filledAttrs d).fillSpec hview' d, hblocked, if_neg Bool.false_ne_true,
        filledAttrs_filledAttrs, Defaults.orElse_self]
    refine ⟨_, _, fillGaps_of_done hbefore hfill hafter, hafter,
      describes_changes (regular_spec true) hgrows hgiven hsound', ?_⟩
    obtain ⟨-, others, -, hothers, -⟩ := hgrows.exists_objects hgiven
    have hempty := describes_changes (regular_spec true) hgrows.right (by simp [hothers, object])
      hsound'
    rw [fillGaps_of_done hafter hagain hafter, hempty.eq_nil]

end Resource

end Installation

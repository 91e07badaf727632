import Installation.Proofs.Gaps.Held
import Installation.Proofs.Reconcile.Settled

/-!
# Resources that are read again

A resource whose gaps were filled can be dumped and read again, whatever entries the data that
it was first read from had besides its fields.  The gaps of the resource that is read again are
filled already: filling them with the same defaults changes nothing, and gives the same dump and
the same fingerprint, `fillGaps_reload`.
-/

namespace Installation

open Shape Value

/-! ### The dump of a filled spec -/

/-- The dump of a service that is there can be read. -/
theorem Service.dump_readsAs (s : Service) {required : Bool} {v w : Value}
    (h : Held (s.schema.toShape required) v) (hgiven : v ≠ .null)
    (hdump : (s.schema.toShape required).dump v = .ok w) :
  ReadsAs (s.schema.toShape required) (some w.dropNulls) w
  := by
  have hlenient : ∀ f ∈ s.schema.fields, f.2.lenient := by
    cases s <;> decide
  apply part_rereads s.regularPart_schema hgiven hdump
  intro f hf x hx
  exact dump_rereads (s.regularPart_schema.fields_regular f hf) (hlenient f hf) (h.partOr hf) hx

/-- No fields of a spec are required but its services. -/
theorem lenient_or_service :
  ∀ f ∈ Schema.spec.fields,
    f.2.lenient ∨ f.1.attr = "file_store" ∨ f.1.attr = "database"
  := by
  decide

/-- The dump of a spec with both services can be read. -/
theorem spec_dump_readsAs {attrs : List (String × Value)} {w : Value}
    (h : HeldAttrs Schema.spec.fields attrs) (hfile : attrIn "file_store" attrs ≠ .null)
    (hdatabase : attrIn "database" attrs ≠ .null)
    (hdump : (Schema.spec.toShape true).dump (.record .spec attrs) = .ok w) :
  ReadsAs (Schema.spec.toShape true) (some w.dropNulls) w
  := by
  apply part_rereads regularPart_spec (by simp) hdump
  intro f hf x hx
  have hregular := regularPart_spec.fields_regular f hf
  rw [partOr_record] at hx
  obtain hlenient | hattr | hattr := lenient_or_service f hf
  · exact dump_rereads hregular hlenient (h f hf) hx
  · obtain rfl := spec_field_unique hf (Schema.spec.mem_fields "fileStore" rfl) hattr
    exact rereads_of_readsAs (ne_null_of_dump hregular (h _ hf) hfile hx)
      (Service.fileStore.dump_readsAs (h _ hf) hfile hx)
  · obtain rfl := spec_field_unique hf (Schema.spec.mem_fields "database" rfl) hattr
    exact rereads_of_readsAs (ne_null_of_dump hregular (h _ hf) hdatabase hx)
      (Service.database.dump_readsAs (h _ hf) hdatabase hx)

/-- A spec that holds what it may hold, and whose gaps are filled. -/
theorem fillSpec_of_held {d : Defaults} {attrs : List (String × Value)}
    (h : HeldAttrs Schema.spec.fields attrs)
    (hfilled : (fillSpec d (.record .spec attrs)).fault? = none) :
  fillSpec d (.record .spec attrs) = .done (.record .spec (filledAttrs d attrs)) ∧
  ∃ view, resolveIngress (.record .spec (filledAttrs d attrs)) = .ok view ∧
    view.isBlocked = false
  := by
  obtain ⟨⟨view, hview, hopen⟩, hfile, hdatabase⟩ := exists_of_fillSpec hfilled
  have hsuits := Service.fileStore.suits_of_held (h _ (Schema.spec.mem_fields "fileStore" rfl))
  have hsuits' := Service.database.suits_of_held (h _ (Schema.spec.mem_fields "database" rfl))
  have hfill := fillSpec_of_parts hview (Service.fileStore.fillPart_given d hsuits hfile)
    (Service.database.fillPart_given d hsuits' hdatabase)
  rw [hopen] at hfill
  refine ⟨hfill, view, ?_, hopen⟩
  rw [resolveIngress_filledAttrs, hview]

/-! ### Resources -/

namespace Resource

/-- What a resource that was read holds. -/
theorem exists_of_load {name : String} {data : Value} {r : Resource} (hdata : data.IsJson)
    (h : load name data = .ok r) :
  ∃ attrs, r = ofSpec name (.record .spec attrs) ∧ HeldAttrs Schema.spec.fields attrs
  := by
  cases data with
  | dict es =>
    rw [load, Schema.load_dict] at h
    obtain ⟨pairs, rfl⟩ := hdata.exists_object
    cases hload : (Schema.spec.toShape true).load (.dict (named pairs)) with
    | error fault => simp [hload, Except.map] at h
    | ok spec =>
      rw [hload] at h
      obtain rfl := Except.ok.inj h
      have hheld := load_held (regular_spec true) hdata hload
      obtain ⟨value, -, rfl⟩ := exists_of_load_record hload
      exact ⟨_, rfl, hheld.attrs⟩
  | _ => simp [load, Schema.load, Except.map] at h

/-- The data behind the entries of a spec as it travels. -/
theorem exists_of_wireEntries {attrs : List (String × Value)} {entries : List (Key × Value)}
    (h : wireEntries (.record .spec attrs) = .ok entries) :
  ∃ w, (Schema.spec.toShape true).dump (.record .spec attrs) = .ok w ∧
    .dict entries = w.dropNulls
  := by
  rw [wireEntries, Schema.dump] at h
  cases hfields : dumpFields Schema.spec.fields (.record .spec attrs) with
  | error fault => simp [hfields, Except.map] at h
  | ok es =>
    rw [hfields] at h
    refine ⟨.dict es, ?_, ?_⟩
    · change (dumpFields Schema.spec.fields (.record .spec attrs)).map Value.dict = _
      rw [hfields]
      rfl
    · rw [← Except.ok.inj h, dropNulls]

/-- What is left behind where the gaps of a resource are filled. -/
theorem exists_of_fillGaps {d : Defaults} {r : Resource} (h : (r.fillGaps d).fault? = none) :
  ∃ before after, (fillSpec d r.spec).fault? = none ∧
    wireEntries (fillSpec d r.spec).state = .ok after ∧
    r.fillGaps d = .done ⟨r.name, (fillSpec d r.spec).state, changes before after⟩
  := by
  rw [fillGaps] at h ⊢
  cases hbefore : r.dumpSpec with
  | error fault => simp [hbefore, Attempt.failed] at h
  | ok before =>
    simp only [hbefore] at h ⊢
    cases hfill : (fillSpec d r.spec).fault? with
    | some fault => simp [Attempt.andThen, hfill] at h
    | none =>
      rw [Attempt.eq_done hfill, Attempt.map_done, Attempt.andThen_done, dumpSpec] at h ⊢
      cases hafter : wireEntries (fillSpec d r.spec).state with
      | error fault => simp [hafter, Attempt.failed] at h
      | ok after => exact ⟨before, after, rfl, hafter, rfl⟩

/-- The fingerprint of a resource can be told from its dump. -/
theorem specHash_eq {r : Resource} {entries : List (Key × Value)}
    (h : r.dumpSpec = .ok entries) (hjson : (dict entries).IsJson) :
  r.specHash = .ok (dict entries).print
  := by
  rw [specHash, h]
  exact fingerprint_eq hjson

/-- Where a spec travels as data that is settled, up to nulls, and is not blocked, there are no
gaps to fill. -/
theorem fillGaps_of_settled {d : Defaults} (hd : d.AreTexts) {spec v w : Value}
    (h : Travels (Schema.spec.toShape true) spec w) (hsame : SameData v w)
    (hsettled : Settled d v) (hblocked : v.isBlocked = false) (name : String) :
  ∃ spec', (ofSpec name spec).fillGaps d = .done ⟨name, spec', []⟩ ∧
    Travels (Schema.spec.toShape true) spec' w
  := by
  obtain ⟨hreached, hhost⟩ := (SameData.mk hsame.right hsame.left hsame.eq.symm).reach_eq h
  have hblocked' : w.isBlocked = false := by
    rw [isBlocked, hreached, hhost, ← isBlocked, hblocked]
  have hfill := @fillGaps_travels d hd (ofSpec name spec) w h
  rw [if_neg (by simp [hblocked']), changesData_of_settled hsame hsettled,
    fillData_of_settled hsame.right (hsame.settled hsettled)] at hfill
  exact hfill

/-- A resource whose gaps are filled can be read again from its dump, under any name.  To fill
its gaps with the same defaults once more changes nothing, and its dump and its fingerprint
stay the same. -/
theorem fillGaps_reload {d : Defaults} (hd : d.AreTexts) {data : Value} (hdata : data.IsJson)
    {name : String} {r : Resource} (hload : load name data = .ok r)
    (hfilled : (r.fillGaps d).fault? = none) (other : String) :
  ∃ entries again hash, (r.fillGaps d).state.dumpSpec = .ok entries ∧
    (r.fillGaps d).state.specHash = .ok hash ∧ load other (.dict entries) = .ok again ∧
    (again.fillGaps d).fault? = none ∧ (again.fillGaps d).state.specPatch = [] ∧
    (again.fillGaps d).state.dumpSpec = .ok entries ∧
    (again.fillGaps d).state.specHash = .ok hash
  := by
  obtain ⟨attrs, rfl, hheld⟩ := exists_of_load hdata hload
  obtain ⟨before, entries, hspec, hentries, hstate⟩ := exists_of_fillGaps hfilled
  obtain ⟨hfill, view, hview, hopen⟩ := fillSpec_of_held hheld hspec
  -- the dump of the filled spec is settled data that is not blocked
  rw [show (ofSpec name (.record .spec attrs)).spec = .record .spec attrs from rfl, hfill]
    at hentries hstate
  obtain ⟨w, hdump, hw⟩ := exists_of_wireEntries hentries
  obtain ⟨hfile, hdatabase⟩ := attrIn_filledAttrs d attrs
  have hheld' := heldAttrs_filledAttrs hd hheld
  have hjson : w.IsJson := dump_isJson (regular_spec true) (.record hheld') hdump
  have hsettled : Settled d w := settled_dump hdump hd hheld
  have hblocked : w.isBlocked = false := isBlocked_dump hheld' hdump hopen hview
  -- it is read as data that is the same up to nulls
  obtain ⟨-, spec, w', hread, htravels, heq⟩ := spec_dump_readsAs hheld'
    (hfile ▸ Service.fileStore.filled_ne_null d _)
    (hdatabase ▸ Service.database.filled_ne_null d _) hdump
  have hsame : SameData w w' := ⟨hjson, htravels.isJson (regular_spec true), heq.symm⟩
  obtain ⟨spec', hdone, htravels'⟩ :=
    fillGaps_of_settled hd htravels hsame hsettled hblocked other
  have hdict : (dict entries).IsJson := hw ▸ hjson.dropNulls
  have hentries' : w'.dropNulls.entries = entries := by
    rw [heq, ← hw]
    rfl
  have hdumped : (⟨name, .record .spec (filledAttrs d attrs), changes before entries⟩ :
      Resource).dumpSpec = .ok entries := hentries
  have hdumped' : (⟨other, spec', []⟩ : Resource).dumpSpec = .ok entries := by
    rw [← hentries']
    exact dumpSpec_travels htravels'
  rw [hstate]
  refine ⟨entries, ofSpec other spec, _, hdumped, specHash_eq hdumped hdict, ?_, ?_⟩
  · rw [load, Schema.load_dict, hw]
    rw [show (Schema.spec.toShape true).load w.dropNulls = .ok spec from hread]
    rfl
  · rw [hdone]
    exact ⟨rfl, rfl, hdumped', specHash_eq hdumped' hdict⟩

/-- Data with entries that take the place of fields: a pull policy that is no text, and a
volume that is no part. -/
def overriddenData : Value :=
  object
    [("ingressName", .text "chat.example.com"), ("image_pull_policy", .list [.null]),
     ("fileStore", object [("external_volume", .int 5)])]

theorem fillGaps_reload_overridden :
  ∃ r entries again hash, load "chat" overriddenData = .ok r ∧
    (r.fillGaps .builtin).state.dumpSpec = .ok entries ∧
    (r.fillGaps .builtin).state.specHash = .ok hash ∧
    load "chat" (.dict entries) = .ok again ∧ (again.fillGaps .builtin).fault? = none ∧
    (again.fillGaps .builtin).state.specPatch = [] ∧
    (again.fillGaps .builtin).state.dumpSpec = .ok entries ∧
    (again.fillGaps .builtin).state.specHash = .ok hash
  := by
  have hdata : overriddenData.IsJson := by
    simp [overriddenData, isJson_object, IsJson, AreJson]
  have hload : ∃ r, load "chat" overriddenData = .ok r ∧ (r.fillGaps .builtin).fault? = none :=
    ⟨_, rfl, rfl⟩
  obtain ⟨r, hload, hfilled⟩ := hload
  obtain ⟨entries, again, hash, h⟩ :=
    fillGaps_reload Defaults.areTexts_builtin hdata hload hfilled "chat"
  exact ⟨r, entries, again, hash, hload, h⟩

end Resource

end Installation

import Installation.Proofs.Gaps.Match
import Installation.Proofs.Reconcile.Settled

/-!
# Specs in another order

The order in which the names of a spec come in makes no difference to what comes of an event,
whatever the settings are.  Two specs that differ in nothing else are rejected with the same
complaints or have the same outcome, up to the order of names: `reconcile_reordered`.
-/

namespace Installation

open Shape Value

/-! ### Reordered entries -/

namespace Value

section Reordered

variable {v w : Value} (hv : v.IsJson) (hw : w.IsJson) (h : v.Reordered w)

include hv hw h

theorem Reordered.under (name : String) :
  (v.under name).Reordered (w.under name)
  := by
  rw [Reordered, ← under_ordered hv, h, under_ordered hw]

theorem Reordered.truthy_eq :
  v.truthy = w.truthy
  := by
  rw [← truthy_ordered hv, h, truthy_ordered hw]

/-- Reordered data has the same fingerprint. -/
theorem Reordered.print_eq :
  v.print = w.print
  := by
  rw [print, print, ← shown_ordered hv, h, shown_ordered hw]

end Reordered

theorem map_fst_eq_of_orderedPairs {pairs others : List (String × Value)}
    (h : orderedPairs pairs = orderedPairs others) :
  pairs.map Prod.fst = others.map Prod.fst
  := by
  rw [← map_fst_orderedPairs, h, map_fst_orderedPairs]

/-- Which entries are different does not depend on the order of names. -/
theorem orderedPairs_changedPairs {before after : List (String × Value)}
    (hbefore : (object before).IsJson) (hafter : (object after).IsJson) :
  orderedPairs (Resource.changedPairs before after) =
    Resource.changedPairs (orderedPairs before) (orderedPairs after)
  := by
  obtain ⟨-, hbefore⟩ := (isJson_object before).mp hbefore
  obtain ⟨-, hafter⟩ := (isJson_object after).mp hafter
  have hsame (p : String × Value) (hp : p ∈ after) :
      (((orderedPairs before).lookup p.1).getD .null).same p.2.ordered =
        ((before.lookup p.1).getD .null).same p.2 := by
    rw [lookup_orderedPairs]
    cases hfound : before.lookup p.1 with
    | none => exact same_ordered (v := .null) trivial (hafter p hp)
    | some x => exact same_ordered (hbefore _ (Assoc.mem_of_lookup hfound)) (hafter p hp)
  have hfilter (q : String × Value → Bool) :
      (orderedPairs after).filter q =
        orderedPairs (after.filter fun p => q (p.1, p.2.ordered)) := by
    rw [orderedPairs, List.filter_map]
    rfl
  rw [Resource.changedPairs, Resource.changedPairs, hfilter]
  congr 1
  apply List.filter_congr
  intro p hp
  exact congrArg (!·) (hsame p hp).symm

end Value

/-- Outcomes that differ at most in the order of names: in that of the complaints about a spec,
and in that of the names in what is written back. -/
structure Outcome.Reordered (o o' : Outcome) : Prop where
  fault : Option.Rel Fault.Reordered o.fault? o'.fault?
  spec : Option.Rel (fun es fs => (dict es).Reordered (dict fs)) o.patch.spec? o'.patch.spec?
  status : o.patch.status? = o'.patch.status?
  log : o.log = o'.log

theorem Outcome.Reordered.refl (o : Outcome) :
  o.Reordered o
  := by
  refine ⟨?_, ?_, rfl, rfl⟩
  · cases o.fault? with
    | none => exact .none
    | some fault => exact .some (.same fault)
  · cases o.patch.spec? with
    | none => exact .none
    | some es => exact .some (.refl _)

/-! ### Resources whose specs match -/

namespace Resource

variable {attrs others : List (String × Value)} (h : MatchAttrs Schema.spec.fields attrs others)

include h

/-- The entries of specs that match. -/
theorem exists_wireEntries :
  ∃ pairs pairs', wireEntries (.record .spec attrs) = .ok (named pairs) ∧
    wireEntries (.record .spec others) = .ok (named pairs') ∧
    (object pairs).IsJson ∧ (object pairs').IsJson ∧ orderedPairs pairs = orderedPairs pairs'
  := by
  obtain ⟨pairs, pairs', hdump, hdump', hjson, hjson', heq⟩ :=
    @exists_dump_record true _ _ _ _ regularPart_spec fun f hf =>
      (h f hf).dump (regularPart_spec.fields_regular f hf)
  have hwire {attrs pairs : List (String × Value)}
      (hdump : (Schema.spec.toShape true).dump (.record .spec attrs) = .ok (object pairs)) :
      wireEntries (.record .spec attrs) = .ok (named (dropNullPairs pairs)) := by
    rw [wireEntries_of_dump hdump, dropNulls_object, entries_object]
  have hdrop {pairs : List (String × Value)} (hjson : (object pairs).IsJson) :
      (object (dropNullPairs pairs)).IsJson ∧
      orderedPairs (dropNullPairs pairs) = dropNullPairs (orderedPairs pairs) := by
    rw [← dropNulls_object]
    exact ⟨hjson.dropNulls, orderedPairs_dropNullPairs fun p hp =>
      dropNulls_ordered (((isJson_object pairs).mp hjson).2 p hp)⟩
  refine ⟨_, _, hwire hdump, hwire hdump', (hdrop hjson).1, (hdrop hjson').1, ?_⟩
  rw [(hdrop hjson).2, heq, (hdrop hjson').2]

/-- What is published about resources whose specs match and are reached in the same way. -/
theorem status_eq_of_matches {view view' : IngressView}
    (hview : resolveIngress (.record .spec attrs) = .ok view)
    (hview' : resolveIngress (.record .spec others) = .ok view')
    (hendpoint : endpoint view = endpoint view') (name : String)
    (changes changes' : List (Key × Value)) :
  status ⟨name, .record .spec attrs, changes⟩ = status ⟨name, .record .spec others, changes'⟩
  := by
  obtain ⟨pairs, pairs', hwire, hwire', hjson, hjson', heq⟩ := exists_wireEntries h
  have hprint : (object pairs).print = (object pairs').print :=
    (reordered_of_orderedPairs heq).print_eq hjson hjson'
  have hhash {attrs pairs : List (String × Value)} (changes : List (Key × Value))
      (hwire : wireEntries (.record .spec attrs) = .ok (named pairs))
      (hjson : (object pairs).IsJson) :
      specHash ⟨name, .record .spec attrs, changes⟩ = .ok (object pairs).print := by
    rw [specHash, dumpSpec, hwire]
    exact fingerprint_eq hjson
  have himage : attrIn "image" attrs = attrIn "image" others :=
    (h _ (Schema.spec.mem_fields "image" rfl)).eq_of_text
  have hversion : attrIn "version" attrs = attrIn "version" others :=
    (h _ (Schema.spec.mem_fields "version" rfl)).eq_of_text
  unfold status
  rw [hhash _ hwire hjson, hhash _ hwire' hjson', attr_declared (by decide),
    attr_declared (by decide), attr_declared (by decide), attr_declared (by decide), himage,
    hversion, hprint, ingress, ingress, hview, hview']
  simp only [bind, Except.bind, hendpoint]
  rfl

/-- The gaps of a resource whose spec matches another are filled, whatever the defaults are,
along with those of the other, and the fields that are different afterwards are the same. -/
theorem fillGaps_matches {view view' : IngressView}
    (hview : resolveIngress (.record .spec attrs) = .ok view)
    (hview' : resolveIngress (.record .spec others) = .ok view')
    (hblocked : view.isBlocked = view'.isBlocked) (d : Defaults) (name : String) :
  if view.isBlocked then
    (ofSpec name (.record .spec attrs)).fillGaps d =
      .failed (ofSpec name (.record .spec attrs)) .hostRequired ∧
    (ofSpec name (.record .spec others)).fillGaps d =
      .failed (ofSpec name (.record .spec others)) .hostRequired
  else ∃ changed changed', orderedPairs changed = orderedPairs changed' ∧
    (ofSpec name (.record .spec attrs)).fillGaps d =
      .done ⟨name, .record .spec (filledAttrs d attrs), named changed⟩ ∧
    (ofSpec name (.record .spec others)).fillGaps d =
      .done ⟨name, .record .spec (filledAttrs d others), named changed'⟩
  := by
  obtain ⟨before, before', hbefore, hbefore', hjson, hjson', heq⟩ := exists_wireEntries h
  obtain ⟨after, after', hafter, hafter', hjsonAfter, hjsonAfter', heqAfter⟩ :=
    exists_wireEntries (matches_congruence.filledAttrs h d)
  obtain ⟨hready, hready'⟩ := matches_congruence.readyAttrs h
  have hfill := hready.fillSpec hview d
  have hfill' := hready'.fillSpec hview' d
  rw [← hblocked] at hfill'
  rw [fillGaps, fillGaps, dumpSpec, dumpSpec, ofSpec, ofSpec, hbefore, hbefore']
  simp only
  rw [hfill, hfill']
  cases view.isBlocked with
  | true => exact ⟨rfl, rfl⟩
  | false =>
    refine ⟨changedPairs before after, changedPairs before' after', ?_, ?_, ?_⟩
    · rw [orderedPairs_changedPairs hjson hjsonAfter, heq, heqAfter,
        orderedPairs_changedPairs hjson' hjsonAfter']
    · simp only [Bool.false_eq_true, if_false, Attempt.map_done, Attempt.andThen_done, dumpSpec,
        hafter, changes_named]
    · simp only [Bool.false_eq_true, if_false, Attempt.map_done, Attempt.andThen_done, dumpSpec,
        hafter', changes_named]

end Resource

/-! ### What comes of reordered specs -/

section Reach

variable {r r' w w' : Value} (h : Travels (Schema.spec.toShape true) r w)

include h

/-- The hosts in the data of a spec are texts. -/
theorem hosts_fit :
  Shape.text.Fits (w.under "ingressName") ∧ Shape.text.Fits ((w.under "ingress").under "host")
  := by
  have hgiven := given_of_required h
  obtain ⟨-, hname⟩ :=
    attr_leaf regularPart_spec h hgiven (Schema.spec.mem_fields "ingressName" rfl) rfl
  obtain ⟨x, -, hx⟩ := h.attr regularPart_spec hgiven (Schema.spec.mem_fields "ingress" rfl)
  refine ⟨hname, ?_⟩
  by_cases hnull : x = .null
  · rw [show w.under "ingress" = .null from hx.eq_null_iff.mp hnull]
    exact .inl rfl
  · exact (attr_leaf regularPart_ingress hx hnull (.tail _ (.head _)) rfl).2

/-- Reordered data of specs is reached in the same way. -/
theorem reach_eq_of_reordered (h' : Travels (Schema.spec.toShape true) r' w')
    (hw : w.Reordered w') :
  w.isReached = w'.isReached ∧ w.hostOf = w'.hostOf
  := by
  have hjson := h.isJson (regular_spec true)
  have hjson' := h'.isJson (regular_spec true)
  have hingress := hw.under hjson hjson' "ingress"
  have hnull : (w.under "ingress").isNull = (w'.under "ingress").isNull := by
    rw [Bool.eq_iff_iff, isNull_iff, isNull_iff]
    exact hingress.null_iff
  have henabled := hingress.under (hjson.under _) (hjson'.under _) "enabled"
  have hhost := hingress.under (hjson.under _) (hjson'.under _) "host"
  obtain ⟨hfits, hfits'⟩ := hosts_fit h
  constructor
  · rw [isReached, isReached, hnull,
      henabled.truthy_eq ((hjson.under _).under _) ((hjson'.under _).under _)]
  · rw [hostOf, hostOf, hnull, (hw.under hjson hjson' _).eq_of_text hfits,
      hhost.eq_of_text hfits']

end Reach

namespace Event

/-- What is said about fields that were filled depends on their names alone. -/
theorem keyNames_named {pairs others : List (String × Value)}
    (h : pairs.map Prod.fst = others.map Prod.fst) :
  Resource.keyNames (named pairs) = Resource.keyNames (named others)
  := by
  have hnames (pairs : List (String × Value)) :
      ((named pairs).map fun e => String.ofList e.1.plain) = pairs.map Prod.fst := by
    rw [named, List.map_map]
    apply List.map_congr_left
    intro p hp
    simp [Key.plain]
  rw [Resource.keyNames, Resource.keyNames, hnames, hnames, h]

/-- What comes of resources with the same status, and with reordered changes. -/
theorem publish_reordered (event : Event) {name : String} {spec spec' : Value}
    {changed changed' : List (String × Value)} (h : orderedPairs changed = orderedPairs changed')
    (hstatus : Resource.status ⟨name, spec, named changed⟩ =
      Resource.status ⟨name, spec', named changed'⟩) :
  (event.publish ⟨name, spec, named changed⟩).Reordered
    (event.publish ⟨name, spec', named changed'⟩)
  := by
  have hnames := map_fst_eq_of_orderedPairs h
  have hempty : (named changed).isEmpty = (named changed').isEmpty := by
    have hlength := congrArg List.length hnames
    rw [List.length_map, List.length_map] at hlength
    rw [Bool.eq_iff_iff, List.isEmpty_iff_length_eq_zero, List.isEmpty_iff_length_eq_zero,
      named, named, List.length_map, List.length_map, hlength]
  have hlines : Resource.defaultedLines ⟨name, spec, named changed⟩ =
      Resource.defaultedLines ⟨name, spec', named changed'⟩ := by
    simp only [Resource.defaultedLines, hempty, keyNames_named hnames]
  have hwritten : Option.Rel (fun es fs => (dict es).Reordered (dict fs))
        (event.writeBack? ⟨name, spec, named changed⟩)
        (event.writeBack? ⟨name, spec', named changed'⟩) ∧
      event.writeBackLines (event.writeBack? ⟨name, spec, named changed⟩) =
        event.writeBackLines (event.writeBack? ⟨name, spec', named changed'⟩) := by
    simp only [writeBack?, Resource.specPatch, hempty]
    by_cases hwrite : event.settings.writeBack.truthy && !(named changed').isEmpty
    · simp only [hwrite, if_true, writeBackLines, keyNames_named hnames, and_true]
      exact .some (reordered_of_orderedPairs h)
    · simp only [hwrite, Bool.false_eq_true, if_false, and_true]
      exact .none
  rw [publish, publish, hlines, hwritten.2, hstatus]
  simp only
  split
  · exact ⟨.some (.same _), hwritten.1, rfl, rfl⟩
  · exact ⟨.none, hwritten.1, rfl, rfl⟩

end Event

/-- Specs that are read as records which travel as reordered data have the same outcome, up to
the order of names. -/
theorem reconcile_reordered_of_travels {event : Event} {spec r r' w w' : Value}
    (hload : Schema.spec.load event.spec = .ok r) (hload' : Schema.spec.load spec = .ok r')
    (h : Travels (Schema.spec.toShape true) r w) (h' : Travels (Schema.spec.toShape true) r' w')
    (hw : w.Reordered w') :
  (reconcile event).Reordered (reconcile { event with spec := spec })
  := by
  obtain ⟨attrs, rfl⟩ : ∃ attrs, r = .record .spec attrs := exists_record h (given_of_required h)
  obtain ⟨others, rfl⟩ : ∃ others, r' = .record .spec others :=
    exists_record h' (given_of_required h')
  have hmatch : MatchAttrs Schema.spec.fields attrs others :=
    (h.matches (regular_spec true) h' hw).attrs
  obtain ⟨hreached, hhost⟩ := reach_eq_of_reordered h h' hw
  obtain ⟨view, hview, henabled, hviewHost⟩ := resolveIngress_travels h
  obtain ⟨view', hview', henabled', hviewHost'⟩ := resolveIngress_travels h'
  have henabledEq : view.enabled = view'.enabled := by rw [henabled, henabled', hreached]
  have hhostEq : view.host = view'.host := by rw [hviewHost, hviewHost', hhost]
  have hblocked : view.isBlocked = view'.isBlocked := by
    rw [IngressView.isBlocked, IngressView.isBlocked, henabledEq, hhostEq]
  have hfill := Resource.fillGaps_matches hmatch hview hview' hblocked event.settings.defaults
    event.name
  simp only [reconcile, Resource.load, hload, hload', Except.map]
  cases hisBlocked : view.isBlocked with
  | true =>
    simp only [hisBlocked, if_true] at hfill
    rw [hfill.1, hfill.2]
    exact .refl event.reject
  | false =>
    simp only [hisBlocked, Bool.false_eq_true, if_false] at hfill
    obtain ⟨changed, changed', hchanged, hdone, hdone'⟩ := hfill
    rw [hdone, hdone']
    have hendpoint : Resource.endpoint view = Resource.endpoint view' := by
      rw [Resource.endpoint, Resource.endpoint, henabledEq, hhostEq]
    apply event.publish_reordered hchanged
    apply Resource.status_eq_of_matches
      (matches_congruence.filledAttrs hmatch event.settings.defaults) _ _ hendpoint
    · rw [resolveIngress_filledAttrs, hview]
    · rw [resolveIngress_filledAttrs, hview']

/-- Inert specs that differ in the order of names alone have the same outcome, up to the order
of names, under all settings. -/
theorem reconcile_reordered {event : Event} {spec : Value} (hjson : event.spec.IsJson)
    (hjson' : spec.IsJson) (hinert : (Schema.spec.toShape true).inert event.spec)
    (hinert' : (Schema.spec.toShape true).inert spec) (h : event.spec.Reordered spec) :
  (reconcile event).Reordered (reconcile { event with spec := spec })
  := by
  have hmirrors := load_mirrors (regular_spec true) hjson hjson' hinert hinert' h
  by_cases hdict : ∃ es, event.spec = .dict es
  · obtain ⟨fs, hfs⟩ := h.dict_iff.mp hdict
    obtain ⟨es, hes⟩ := hdict
    rw [hes, hfs, ← Schema.load_dict, ← Schema.load_dict, ← hes, ← hfs] at hmirrors
    generalize hload : Schema.spec.load event.spec = x at hmirrors
    generalize hload' : Schema.spec.load spec = y at hmirrors
    cases hmirrors with
    | rejected hc =>
      simp only [reconcile, Resource.load, hload, hload', Except.map]
      exact ⟨.some (.rejected hc), .none, rfl, rfl⟩
    | ok hr hr' hw => exact reconcile_reordered_of_travels hload hload' hr hr' hw
  · have hother {v : Value} (hv : ¬∃ es, v = .dict es) :
        Schema.spec.load v = .error (.rejected notDictionary) := by
      cases v with
      | dict es => exact absurd ⟨es, rfl⟩ hv
      | _ => rfl
    simp only [reconcile, Resource.load, hother hdict, hother (mt h.dict_iff.mpr hdict)]
    exact .refl _

/-- A spec with labels and a managed database. -/
def teamSpec : Value :=
  object
    [("ingressName", .text "chat.example.com"),
     ("resourceLabels", object [("team", .text "core"), ("area", .text "chat")]),
     ("database", object [("operatorManaged",
       object [("type", .text "mysql"), ("backupURL", .text "s3://backups")])])]

/-- The same spec with its names in another order. -/
def shuffledSpec : Value :=
  object
    [("database", object [("operatorManaged",
       object [("backupURL", .text "s3://backups"), ("type", .text "mysql")])]),
     ("resourceLabels", object [("area", .text "chat"), ("team", .text "core")]),
     ("ingressName", .text "chat.example.com")]

theorem reconcile_reordered_shuffled :
  (reconcile (.ofSpec teamSpec .builtin)).Reordered
    (reconcile (.ofSpec shuffledSpec .builtin))
  := by
  apply @reconcile_reordered (.ofSpec teamSpec .builtin) shuffledSpec
  · simp [Event.ofSpec, teamSpec, isJson_object, IsJson]
  · simp [shuffledSpec, isJson_object, IsJson]
  · decide +kernel
  · decide +kernel
  · rfl

end Installation

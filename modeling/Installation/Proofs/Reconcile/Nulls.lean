import Installation.Proofs.Reconcile.Data
import Installation.Proofs.Schema.Shed
import Mathlib.Logic.Relation

/-!
# Nulls in a spec

A null that stands for a field of a spec makes no difference to what comes of an event, and
neither does one inside of the resources of a managed service.  They may be left out, one after
the other, and the outcome stays the same, whatever the settings are; only the services may not
be null, since they are required: `reconcile_nulls`.
-/

namespace Installation

open Shape Value

section Akin

variable {attrs others : List (String × Value)} (h : AkinAttrs Schema.spec.fields attrs others)

include h

/-- Akin specs are reached in the same way. -/
theorem resolveIngress_akin :
  resolveIngress (.record .spec attrs) = resolveIngress (.record .spec others)
  := by
  have hspec : viewOfSpec (.record .spec attrs) = viewOfSpec (.record .spec others) := by
    rw [viewOfSpec, viewOfSpec,
      h.attr_eq regularPart_spec (Schema.spec.mem_fields "ingressName" rfl) rfl (by simp),
      h.attr_eq regularPart_spec (Schema.spec.mem_fields "ingressAnnotations" rfl) rfl (by simp),
      h.attr_eq regularPart_spec (Schema.spec.mem_fields "useIngressTLS" rfl) rfl (by simp)]
  have hingress : Akin (Schema.ingress.toShape false) (attrIn "ingress" attrs)
    (attrIn "ingress" others) := h _ (Schema.spec.mem_fields "ingress" rfl)
  rw [resolveIngress, resolveIngress, attr_declared (by decide), attr_declared (by decide)]
  generalize attrIn "ingress" attrs = x at hingress
  generalize attrIn "ingress" others = y at hingress
  cases hingress with
  | leaf fits => contradiction
  | null => exact hspec
  | @part _ _ _ as bs offered offered' hfields =>
    have hattr {wire attr : String} {shape : Shape}
        (hf : (⟨wire, attr⟩, shape) ∈ Schema.ingress.fields) (hleaf : shape.isPart = false)
        (hraw : shape ≠ .rawMap) :=
      AkinAttrs.attr_eq hfields regularPart_ingress hf hleaf hraw
    change viewOfIngress (.record .ingress as) = viewOfIngress (.record .ingress bs)
    rw [viewOfIngress, viewOfIngress, hattr (.head _) rfl (by simp),
      hattr (.tail _ (.head _)) rfl (by simp), hattr (.tail _ (.tail _ (.head _))) rfl (by simp),
      hattr (.tail _ (.tail _ (.tail _ (.head _)))) rfl (by simp)]

namespace Resource

/-- Akin specs have the same entries as they travel. -/
theorem exists_wireEntries_akin :
  ∃ entries, wireEntries (.record .spec attrs) = .ok entries ∧
    wireEntries (.record .spec others) = .ok entries
  := by
  obtain ⟨x, y, hdump, hdump', -, -, hsame⟩ := @exists_dump_akin true _ _ _ _ regularPart_spec
    fun f hf => (h f hf).dump (regularPart_spec.fields_regular f hf)
  use x.dropNulls.entries
  constructor
  · exact wireEntries_of_dump hdump
  · rw [hsame]
    exact wireEntries_of_dump hdump'

/-- What is published about resources with akin specs. -/
theorem status_akin (name : String) (changed : List (Key × Value)) :
  status ⟨name, .record .spec attrs, changed⟩ = status ⟨name, .record .spec others, changed⟩
  := by
  obtain ⟨entries, hwire, hwire'⟩ := exists_wireEntries_akin h
  unfold status
  rw [h.attr_eq regularPart_spec (Schema.spec.mem_fields "image" rfl) rfl (by simp),
    h.attr_eq regularPart_spec (Schema.spec.mem_fields "version" rfl) rfl (by simp), ingress,
    ingress, resolveIngress_akin h, specHash, specHash, dumpSpec, dumpSpec, hwire, hwire']
  rfl

/-- The gaps of resources with akin specs are filled alike. -/
theorem fillGaps_akin {view : IngressView} (hview : resolveIngress (.record .spec attrs) = .ok view)
    (d : Defaults) (name : String) :
  if view.isBlocked then
    (ofSpec name (.record .spec attrs)).fillGaps d =
      .failed (ofSpec name (.record .spec attrs)) .hostRequired ∧
    (ofSpec name (.record .spec others)).fillGaps d =
      .failed (ofSpec name (.record .spec others)) .hostRequired
  else ∃ changed,
    (ofSpec name (.record .spec attrs)).fillGaps d =
      .done ⟨name, .record .spec (filledAttrs d attrs), changed⟩ ∧
    (ofSpec name (.record .spec others)).fillGaps d =
      .done ⟨name, .record .spec (filledAttrs d others), changed⟩
  := by
  obtain ⟨before, hbefore, hbefore'⟩ := exists_wireEntries_akin h
  obtain ⟨after, hafter, hafter'⟩ :=
    exists_wireEntries_akin (akin_congruence.filledAttrs h d)
  obtain ⟨hready, hready'⟩ := akin_congruence.readyAttrs h
  have hview' := (resolveIngress_akin h).symm.trans hview
  have hfill := hready.fillSpec hview d
  have hfill' := hready'.fillSpec hview' d
  cases hblocked : view.isBlocked with
  | true =>
    rw [if_pos hblocked] at hfill hfill'
    rw [if_pos rfl, fillGaps, fillGaps, dumpSpec, dumpSpec, ofSpec, ofSpec, hbefore, hbefore']
    simp only
    rw [hfill, hfill']
    exact ⟨rfl, rfl⟩
  | false =>
    rw [if_neg (by simp [hblocked])] at hfill hfill'
    rw [if_neg (by simp)]
    use changes before after
    constructor
    · exact fillGaps_of_done hbefore hfill hafter
    · exact fillGaps_of_done hbefore' hfill' hafter'

end Resource

/-- What comes of events whose specs are read as akin records. -/
theorem reconcile_akin {event : Event} {spec : Value} {view : IngressView}
    (hload : Schema.spec.load event.spec = .ok (.record .spec attrs))
    (hload' : Schema.spec.load spec = .ok (.record .spec others))
    (hview : resolveIngress (.record .spec attrs) = .ok view) :
  reconcile { event with spec := spec } = reconcile event
  := by
  have hfill := Resource.fillGaps_akin h hview event.settings.defaults event.name
  simp only [reconcile, Resource.load, hload, hload', Except.map]
  cases hblocked : view.isBlocked with
  | true =>
    rw [if_pos hblocked] at hfill
    rw [hfill.1, hfill.2]
    rfl
  | false =>
    rw [if_neg (by simp [hblocked])] at hfill
    obtain ⟨changed, hdone, hdone'⟩ := hfill
    rw [hdone, hdone']
    have hstatus := Resource.status_akin
      (akin_congruence.filledAttrs h event.settings.defaults) event.name changed
    symm
    exact Event.publish_congr (by rfl) (by rfl) (by rfl) hstatus

end Akin

/-- What comes of an event with an inert spec stays the same when the spec sheds a null. -/
theorem reconcile_sheds {event : Event} {spec : Value} (hjson : event.spec.IsJson)
    (hinert : (Schema.spec.toShape true).inert event.spec)
    (h : Sheds (Schema.spec.toShape true) event.spec spec) :
  reconcile { event with spec := spec } = reconcile event
  := by
  have hkin := h.load (regular_spec true) hjson hinert
  obtain ⟨es, fs, hes, hfs⟩ : ∃ es fs, event.spec = .dict es ∧ spec = .dict fs := by
    generalize event.spec = s at h
    cases h with
    | here | entry => exact ⟨_, _, rfl, rfl⟩
  have hleft : Schema.spec.load event.spec = (Schema.spec.toShape true).load event.spec := by
    rw [hes, Schema.load_dict]
  have hright : Schema.spec.load spec = (Schema.spec.toShape true).load spec := by
    rw [hfs, Schema.load_dict]
  rw [← hleft, ← hright] at hkin
  cases hload : Schema.spec.load event.spec with
  | error fault =>
    rw [hload] at hkin
    have hload' := (hkin.error_iff fault).mp rfl
    simp only [reconcile, Resource.load, hload, hload']
    rfl
  | ok r =>
    obtain ⟨w, htravels⟩ := Schema.load_spec_travels hjson hinert hload
    obtain ⟨view, hview, -⟩ := resolveIngress_travels htravels
    rw [hload] at hkin
    generalize hload' : Schema.spec.load spec = x at hkin
    cases hkin with
    | ok hakin =>
      cases hakin with
      | leaf fits => contradiction
      | null => exact absurd rfl (given_of_required htravels)
      | part offered offered' hfields => exact reconcile_akin hfields hload hload' hview

/-- The parts that are required are the services of a spec. -/
theorem isRequired_iff {schema : Schema} (hschema : schema ∈ Schema.all) {f : Slot × Shape}
    (hf : f ∈ schema.fields) :
  f.2.isRequired ↔ f.1.wire ∈ ["fileStore", "database"]
  := by
  have hall : ∀ schema ∈ Schema.all, ∀ f ∈ schema.fields,
      f.2.isRequired = decide (f.1.wire ∈ ["fileStore", "database"]) := by
    decide
  rw [hall schema hschema f hf, decide_eq_true_iff]

/-- A spec is rejected with a complaint about each required part that is null. -/
theorem load_spec_null {pairs : List (String × Value)} (hjson : (object pairs).IsJson)
    (hinert : (Schema.spec.toShape true).inert (object pairs)) {f : Slot × Shape}
    (hf : f ∈ Schema.spec.fields) (hrequired : f.2.isRequired)
    (hnull : pairs.lookup f.1.wire = some .null) :
  ∃ complaints, Schema.spec.load (object pairs) = .error (.rejected (.entries complaints)) ∧
    (.text f.1.wire, .texts [nullText]) ∈ complaints
  := by
  obtain ⟨-, hvalues⟩ := (isJson_object pairs).mp hjson
  obtain ⟨-, hselfless⟩ := selfless_object.mp (selfless_of_inert hjson hinert)
  rw [object, Schema.load_dict, ← object]
  apply exists_load_object_rejected _ hf
  · rw [hnull, loadAt]
    obtain ⟨slot, shape⟩ := f
    cases shape with
    | part required kind fields =>
      obtain rfl : required = true := hrequired
      rfl
    | _ => contradiction
  · intro g hg fault hfault
    cases hfound : pairs.lookup g.1.wire with
    | none => simp [hfound, loadAt] at hfault
    | some v =>
      rw [hfound] at hfault
      have hself := hselfless g hg v hfound
      exact load_rejected (hvalues _ (Assoc.mem_of_lookup hfound)) hself hfault

/-- Nulls of an inert spec make no difference to what comes of an event, but where they stand for
one of the services, which are required.  They may be left out, any number of them, and the
outcome stays the same; a service that is null is complained about, and nothing is patched. -/
theorem reconcile_nulls {event : Event} (hjson : event.spec.IsJson)
    (hinert : (Schema.spec.toShape true).inert event.spec) :
  (∀ spec, Relation.ReflTransGen (Sheds (Schema.spec.toShape true)) event.spec spec →
    reconcile { event with spec := spec } = reconcile event) ∧
  ∀ f ∈ Schema.spec.fields, f.1.wire ∈ ["fileStore", "database"] →
    (.text f.1.wire, .null) ∈ event.spec.entries →
    ∃ complaints, Schema.spec.load event.spec = .error (.rejected (.entries complaints)) ∧
      (.text f.1.wire, .texts [nullText]) ∈ complaints ∧
      reconcile event = ⟨some (.rejected (.entries complaints)), .empty, []⟩
  := by
  constructor
  · intro spec hspec
    have hinvariant : spec.IsJson ∧ (Schema.spec.toShape true).inert spec ∧
        reconcile { event with spec := spec } = reconcile event := by
      induction hspec with
      | refl => exact ⟨hjson, hinert, rfl⟩
      | @tail before after _ hsheds ih =>
        obtain ⟨hjson, hinert, hsame⟩ := ih
        refine ⟨hsheds.isJson hjson, hsheds.inert (regular_spec true) hjson hinert, ?_⟩
        rw [← hsame]
        exact @reconcile_sheds { event with spec := before } after hjson hinert hsheds
    exact hinvariant.2.2
  · intro f hf hname hnull
    have hrequired := (isRequired_iff (by simp [Schema.all]) hf).mpr hname
    obtain ⟨es, hes⟩ : ∃ es, event.spec = .dict es := by
      cases hspec : event.spec with
      | dict es => exact ⟨es, rfl⟩
      | _ => simp [hspec, entries] at hnull
    rw [hes] at hjson hinert hnull
    obtain ⟨pairs, rfl⟩ := hjson.exists_object
    obtain ⟨distinct, -⟩ := (isJson_object pairs).mp hjson
    have hmem : (f.1.wire, .null) ∈ pairs := by simpa [entries, named] using hnull
    obtain ⟨complaints, hload, hcomplaint⟩ :=
      load_spec_null hjson hinert hf hrequired (Assoc.lookup_of_mem distinct hmem)
    have hevent : Schema.spec.load event.spec = .error (.rejected (.entries complaints)) := by
      rw [hes]
      exact hload
    refine ⟨complaints, hevent, hcomplaint, ?_⟩
    simp only [reconcile, Resource.load, hevent, Except.map]

/-- A spec with some entries of its own, of its database and of the limits of that. -/
def limitedSpec (own database limits : List (String × Value)) : Value :=
  object ([("ingressName", .text "chat.example.com")] ++ own ++
    [("database", object (database ++
      [("operatorManaged", object [("resources", object
        [("limits", object (limits ++ [("memory", .text "1Gi")]))])])]))])

/-- The nulls of a spec are left out at three of its levels. -/
theorem reconcile_nulls_limited :
  reconcile (.ofSpec (limitedSpec [] [] []) .builtin) =
    reconcile (.ofSpec
      (limitedSpec [("version", .null)] [("external", .null)] [("cpu", .null)]) .builtin)
  := by
  have hversion : Sheds (Schema.spec.toShape true)
      (limitedSpec [("version", .null)] [("external", .null)] [("cpu", .null)])
      (limitedSpec [] [("external", .null)] [("cpu", .null)]) :=
    .here (Schema.spec.mem_fields "version" rfl) rfl [_] [_]
  have hexternal : Sheds (Schema.spec.toShape true)
      (limitedSpec [] [("external", .null)] [("cpu", .null)])
      (limitedSpec [] [] [("cpu", .null)]) :=
    .entry (Schema.spec.mem_fields "database" rfl) (.here (.head _) rfl [] _) [_] []
  have hcpu : Sheds (Schema.spec.toShape true) (limitedSpec [] [] [("cpu", .null)])
      (limitedSpec [] [] []) := by
    have hlimits := Sheds.inside "limits" (.here [] "cpu" [("memory", .text "1Gi")]) [] []
    have hresources : (⟨"resources", "resources"⟩, Shape.rawMap) ∈
        Schema.managedDatabase.fields := by
      simp [Schema.managedDatabase, Schema.field]
    exact .entry (Schema.spec.mem_fields "database" rfl)
      (.entry (Schema.database.mem_fields "operatorManaged" rfl)
        (.entry hresources hlimits [] []) [] []) [_] []
  have hnulls := @reconcile_nulls
    (.ofSpec (limitedSpec [("version", .null)] [("external", .null)] [("cpu", .null)]) .builtin)
    (by simp [Event.ofSpec, limitedSpec, isJson_object, IsJson]) (by decide +kernel)
  apply hnulls.1
  exact .head hversion (.head hexternal (.single hcpu))

end Installation

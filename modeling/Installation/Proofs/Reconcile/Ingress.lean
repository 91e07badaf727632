import Installation.Proofs.Reconcile.Reordered
import Installation.Proofs.Resource.Reload
import Installation.Proofs.Schema.Absence

/-!
# How a spec is reached

How an installation is reached is said by the `ingress` part of its spec, and where there is
none by three older fields.  Specs that say the same there, `SameReach`, are reached in the same
way, whatever else they hold.  The way in which a spec is reached does not change when its gaps
are filled, decides whether they can be, and is where the endpoint comes from: `reconcile_reach`.
-/

namespace Installation

open Shape Value

/-- An event with an inert spec that was read, and with texts as defaults. -/
structure Event.Accepts (event : Event) (r : Resource) : Prop where
  texts : event.settings.defaults.AreTexts
  json : event.spec.IsJson
  inert : (Schema.spec.toShape true).inert event.spec
  loaded : Resource.load event.name event.spec = .ok r

/-- Whether two specs say the same about how they are reached. -/
structure SameReach (s t : Value) : Prop where
  ingress : s.under "ingress" = t.under "ingress"
  older : s.under "ingress" = .null →
    ∀ name ∈ ["ingressName", "ingressAnnotations", "useIngressTLS"], s.under name = t.under name

/-- The endpoint that is published, if there is one. -/
def Outcome.endpoint? (o : Outcome) : Option Value := o.patch.status?.bind (entryAt? "endpoint")

/-- Whether the resource of an event is reached as told by a view: before and after its gaps are
filled, which fails where the host is missing, and by the endpoint that is published, which is
not empty exactly where the view is enabled, and is its host there. -/
structure Event.Reaches (event : Event) (r : Resource) (view : IngressView) : Prop where
  before : r.ingress = .ok view
  after : (r.fillGaps event.settings.defaults).state.ingress = .ok view
  fault : (r.fillGaps event.settings.defaults).fault? =
    if view.isBlocked then some .hostRequired else none
  endpoint : (reconcile event).fault? = none →
    ∃ s, (reconcile event).endpoint? = some (.text s) ∧ (s ≠ "" ↔ view.enabled) ∧
      (view.enabled → .text s = view.host)

namespace Event.Accepts

variable {event event' : Event} {r r' : Resource} (h : event.Accepts r) (h' : event'.Accepts r')

include h

/-- The spec is a dictionary, and is read as a record. -/
theorem exists_record :
  ∃ pairs attrs, event.spec = object pairs ∧ r = .ofSpec event.name (.record .spec attrs) ∧
    (Schema.spec.toShape true).load event.spec = .ok (.record .spec attrs)
  := by
  obtain ⟨attrs, rfl, -⟩ := Resource.exists_of_load h.json h.loaded
  have hload : Schema.spec.load event.spec = .ok (.record .spec attrs) := by
    have hloaded := h.loaded
    rw [Resource.load] at hloaded
    cases hspec : Schema.spec.load event.spec with
    | error fault => simp [hspec, Except.map] at hloaded
    | ok spec =>
      rw [hspec] at hloaded
      exact congrArg Except.ok (congrArg Resource.spec (Except.ok.inj hloaded))
  have hjson := h.json
  generalize event.spec = data at hload hjson ⊢
  cases data with
  | dict es =>
    obtain ⟨pairs, rfl⟩ := hjson.exists_object
    rw [Schema.load_dict] at hload
    exact ⟨pairs, attrs, rfl, rfl, hload⟩
  | _ => simp [Schema.load] at hload

/-- An attribute of the spec is what its field was read as. -/
theorem exists_attr {f : Slot × Shape} (hf : f ∈ Schema.spec.fields)
    (hoptional : f.2.isRequired = false) :
  ∃ x, f.2.load (event.spec.under f.1.wire) = .ok x ∧ r.spec.attr f.1.attr = .ok x
  := by
  obtain ⟨pairs, attrs, hpairs, rfl, hload⟩ := h.exists_record
  have hinert := h.inert
  rw [hpairs] at hload hinert ⊢
  rw [← loadAt_under hoptional]
  exact exists_attr_of_load regularPart_spec hinert hload hf

include h'

/-- Specs with the same entry for a field have the same attribute. -/
theorem attr_eq {f : Slot × Shape} (hf : f ∈ Schema.spec.fields)
    (hoptional : f.2.isRequired = false)
    (hsame : event.spec.under f.1.wire = event'.spec.under f.1.wire) :
  r.spec.attr f.1.attr = r'.spec.attr f.1.attr
  := by
  obtain ⟨x, hload, hattr⟩ := h.exists_attr hf hoptional
  obtain ⟨y, hload', hattr'⟩ := h'.exists_attr hf hoptional
  rw [← hsame, hload] at hload'
  obtain rfl := Except.ok.inj hload'
  rw [hattr, hattr']

/-- Specs that say the same about it are reached in the same way. -/
theorem ingress_eq (hreach : SameReach event.spec event'.spec) :
  r.ingress = r'.ingress
  := by
  obtain ⟨x, hload, hattr⟩ := h.exists_attr (Schema.spec.mem_fields "ingress" rfl) rfl
  have hattr' := h.attr_eq h' (Schema.spec.mem_fields "ingress" rfl) rfl hreach.ingress
  rw [hattr] at hattr'
  simp only at hload hattr hattr'
  rw [Resource.ingress, Resource.ingress, resolveIngress, resolveIngress, hattr, ← hattr']
  by_cases hnull : x = .null
  · obtain rfl := hnull
    have holder := hreach.older (eq_null_of_load (h.json.under _) hload)
    have hname := h.attr_eq h' (Schema.spec.mem_fields "ingressName" rfl) rfl (holder _ (by simp))
    have hannotations :=
      h.attr_eq h' (Schema.spec.mem_fields "ingressAnnotations" rfl) rfl (holder _ (by simp))
    have htls := h.attr_eq h' (Schema.spec.mem_fields "useIngressTLS" rfl) rfl (holder _ (by simp))
    simp only at hname hannotations htls
    simp only [viewOfSpec, hname, hannotations, htls]
  · cases x with
    | null => contradiction
    | _ => rfl

end Event.Accepts

/-- The host by which a spec is reached is a text. -/
theorem exists_hostOf {r w : Value} (h : Travels (Schema.spec.toShape true) r w) :
  ∃ host, w.hostOf = .text host
  := by
  obtain ⟨hname, hhost⟩ := hosts_fit h
  rw [hostOf]
  split
  · exact exists_text_orElse hname
  · exact exists_text_orElse hhost

/-- The endpoint of a view that is not blocked is its host where the view is enabled, and is
empty elsewhere. -/
theorem exists_endpoint {view : IngressView} {host : String} (hhost : view.host = .text host)
    (hblocked : view.isBlocked = false) :
  ∃ s, Resource.endpoint view = .text s ∧ (s ≠ "" ↔ view.enabled) ∧
    (view.enabled → .text s = view.host)
  := by
  rw [IngressView.isBlocked, hhost] at hblocked
  rw [Resource.endpoint, hhost]
  cases henabled : view.enabled with
  | true =>
    have hgiven : host ≠ "" := by simpa [henabled, truthy] using hblocked
    exact ⟨host, rfl, by simpa using hgiven, fun _ => rfl⟩
  | false => exact ⟨"", rfl, by simp, by simp⟩

/-- How a spec is reached does not change when its gaps are filled. -/
theorem resolveIngress_fillSpec {attrs : List (String × Value)} {w : Value}
    (h : Travels (Schema.spec.toShape true) (.record .spec attrs) w) (d : Defaults) :
  resolveIngress (fillSpec d (.record .spec attrs)).state = resolveIngress (.record .spec attrs)
  := by
  obtain ⟨view, hview, -⟩ := resolveIngress_travels h
  have hmatches := h.matches (regular_spec true) h (.refl w)
  have hready : ReadyAttrs attrs := (matches_congruence.readyAttrs hmatches.attrs).1
  rw [hready.fillSpec hview d]
  split
  · rfl
  · exact resolveIngress_filledAttrs d attrs

/-- An event with an invalid configuration does not succeed. -/
theorem fault?_reject (event : Event) :
  event.reject.fault? ≠ none
  := by
  rw [Event.reject]
  split
  · exact Option.some_ne_none _
  · exact Option.some_ne_none _

/-- The endpoint of an event that succeeds is part of what is published about the resource. -/
theorem endpoint?_publish {event : Event} {resource : Resource} {pairs : List (String × Value)}
    {v : Value} (hstatus : resource.status = .ok (named pairs))
    (hendpoint : pairs.lookup "endpoint" = some v)
    (hsuccess : (event.publish resource).fault? = none) :
  (event.publish resource).endpoint? = some v
  := by
  rw [Outcome.endpoint?]
  rw [Event.publish, hstatus] at hsuccess ⊢
  split at hsuccess
  · contradiction
  · rename_i es hentries
    obtain ⟨rest, rfl⟩ := exists_of_statusEntries hentries
    exact entryAt?_append_of_lookup hendpoint rest

/-- A resource whose spec was read is reached as told by a view. -/
theorem Event.Accepts.exists_reaches {event : Event} {r : Resource} (h : event.Accepts r) :
  ∃ view, event.Reaches r view
  := by
  obtain ⟨pairs, attrs, hpairs, rfl, hload⟩ := h.exists_record
  obtain ⟨w, htravels⟩ := load_travels (regular_spec true) h.json h.inert hload
  obtain ⟨view, hview, henabled, hhost⟩ := resolveIngress_travels htravels
  obtain ⟨host, hhostOf⟩ := exists_hostOf htravels
  have hblocked : w.isBlocked = view.isBlocked := by
    rw [IngressView.isBlocked, henabled, hhost, Value.isBlocked]
  have hspec : Schema.spec.load event.spec = .ok (.record .spec attrs) := by
    rw [hpairs] at hload ⊢
    exact hload
  have hfill := Resource.fillGaps_travels (r := .ofSpec event.name (.record .spec attrs)) h.texts
    htravels
  have hrun := reconcile_travels h.texts hspec htravels
  rw [hblocked] at hfill hrun
  use view
  cases hisBlocked : view.isBlocked with
  | true =>
    simp only [hisBlocked, if_true] at hfill hrun
    constructor
    · exact hview
    · rw [hfill]
      exact hview
    · rw [hfill, hisBlocked]
      rfl
    · intro hsuccess
      rw [hrun] at hsuccess
      exact absurd hsuccess (fault?_reject event)
  | false =>
    simp only [hisBlocked, Bool.false_eq_true, if_false] at hfill hrun
    obtain ⟨spec, hdone, -⟩ := hfill
    obtain ⟨resource, hpublish, -, -, hstatus⟩ := hrun
    constructor
    · exact hview
    · have hfault : ((Resource.ofSpec event.name (.record .spec attrs)).fillGaps
          event.settings.defaults).fault? = none := by
        rw [hdone]
        rfl
      obtain ⟨before, after, -, -, heq⟩ := Resource.exists_of_fillGaps hfault
      rw [heq, ← hview]
      exact resolveIngress_fillSpec htravels event.settings.defaults
    · rw [hdone, hisBlocked]
      rfl
    · intro hsuccess
      obtain ⟨s, hs, hreached⟩ := exists_endpoint (hhost.trans hhostOf) hisBlocked
      have hendpoint : (Resource.aboutPairs event.name
          (w.fillData event.settings.defaults)).lookup "endpoint" = some (.text s) := by
        rw [← hs, Resource.endpoint, henabled, hhost, isReached, hostOf,
          ← @under_fillData_rest "ingress" (by decide) event.settings.defaults,
          ← @under_fillData_rest "ingressName" (by decide) event.settings.defaults]
        rfl
      rw [hpublish] at hsuccess ⊢
      exact ⟨s, endpoint?_publish hstatus hendpoint hsuccess, hreached⟩

/-- What events publish whose resources are reached in the same way. -/
theorem Event.Reaches.endpoint?_eq {event event' : Event} {r r' : Resource} {view : IngressView}
    (h : event.Reaches r view) (h' : event'.Reaches r' view)
    (hsuccess : (reconcile event).fault? = none) (hsuccess' : (reconcile event').fault? = none) :
  (reconcile event).endpoint? = (reconcile event').endpoint?
  := by
  obtain ⟨s, hendpoint, hgiven, hhost⟩ := h.endpoint hsuccess
  obtain ⟨t, hendpoint', hgiven', hhost'⟩ := h'.endpoint hsuccess'
  rw [hendpoint, hendpoint']
  cases henabled : view.enabled with
  | true => rw [hhost henabled, hhost' henabled]
  | false =>
    -- Neither of the two is anything but empty.
    obtain rfl : s = "" := by simpa [henabled] using hgiven
    obtain rfl : t = "" := by simpa [henabled] using hgiven'
    rfl

/-- How a spec that was read is reached depends on nothing but what it says about that, and is
the same before and after its gaps are filled.  It decides whether they can be filled, and the
endpoint that is published comes from there. -/
theorem reconcile_reach {event : Event} {r : Resource} (h : event.Accepts r) :
  ∃ view, event.Reaches r view ∧
    ∀ (event' : Event) (r' : Resource), event'.Accepts r' →
      SameReach event.spec event'.spec →
      event'.Reaches r' view ∧
      (r.fillGaps event.settings.defaults).fault? =
        (r'.fillGaps event'.settings.defaults).fault? ∧
      ((reconcile event).fault? = none → (reconcile event').fault? = none →
        (reconcile event).endpoint? = (reconcile event').endpoint?)
  := by
  obtain ⟨view, hreaches⟩ := h.exists_reaches
  use view
  constructor
  · exact hreaches
  · intro event' r' h' hsame
    obtain ⟨view', hreaches'⟩ := h'.exists_reaches
    have heq := h.ingress_eq h' hsame
    rw [hreaches.before, hreaches'.before] at heq
    obtain rfl := Except.ok.inj heq
    constructor
    · exact hreaches'
    constructor
    · rw [hreaches.fault, hreaches'.fault]
    · exact hreaches.endpoint?_eq hreaches'

/-- An event with an ingress that is enabled by a word, and with an older name of the host that
does not count. -/
def reachedEvent : Event :=
  .ofSpec (object
    [("ingressName", .text "old.example.com"),
     ("ingress", object [("enabled", .text "on"), ("host", .text "chat.example.com")])]) .builtin

/-- An event with the same ingress and no older name, but with a version of its own. -/
def versionedEvent : Event :=
  .ofSpec (object
    [("version", .text "9.0"),
     ("ingress", object [("enabled", .text "on"), ("host", .text "chat.example.com")])]) .builtin

theorem reconcile_reach_versioned :
  ∃ r r' view, reachedEvent.Accepts r ∧ versionedEvent.Accepts r' ∧
    reachedEvent.Reaches r view ∧ versionedEvent.Reaches r' view ∧ view.enabled = true
  := by
  have haccepts {spec : Value} {r : Resource} (hjson : spec.IsJson)
      (hinert : (Schema.spec.toShape true).inert spec)
      (hload : Resource.load "chat" spec = .ok r) : (Event.ofSpec spec .builtin).Accepts r :=
    ⟨Defaults.areTexts_builtin, hjson, hinert, hload⟩
  obtain ⟨r, hr⟩ : ∃ r, reachedEvent.Accepts r := by
    use ?_
    apply haccepts
    · simp [isJson_object, IsJson]
    · decide +kernel
    · rfl
  obtain ⟨r', hr'⟩ : ∃ r', versionedEvent.Accepts r' := by
    use ?_
    apply haccepts
    · simp [isJson_object, IsJson]
    · decide +kernel
    · rfl
  obtain ⟨view, hreaches, hothers⟩ := reconcile_reach hr
  have hsame : SameReach reachedEvent.spec versionedEvent.spec := by
    constructor
    · rfl
    · intro hnull
      contradiction
  obtain ⟨hreaches', -, -⟩ := hothers versionedEvent r' hr' hsame
  have henabled : ((Resource.load "chat" reachedEvent.spec).bind Resource.ingress).map
      IngressView.enabled = .ok true := by rfl
  rw [show Resource.load "chat" reachedEvent.spec = .ok r from hr.loaded, Except.bind,
    hreaches.before] at henabled
  exact ⟨r, r', view, hr, hr', hreaches, hreaches', Except.ok.inj henabled⟩

end Installation

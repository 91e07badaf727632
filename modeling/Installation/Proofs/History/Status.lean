import Installation.History
import Installation.Proofs.Reconcile.Condition
import Mathlib.Data.List.Induction

/-!
# The status over a history

What the status says after any history of a resource that starts from nothing.  Each
`Occurrence` brings its own spec, which is rejected, invalid or resolved; `Reports` is what the
status says after the occurrences whose spec was not rejected, and `run_reports` that it says
so after every history.  The condition speaks of the last of them, the time of its last
transition goes back to the start of the last streak of equal verdicts, and what is published
about the resource stems from the last spec that was resolved.
-/

namespace Installation

open Value

namespace Occurrence

/-- The filling of gaps that an occurrence sets off, unless its spec is rejected. -/
def filling? (o : Occurrence) : Option (Attempt Resource) :=
  match Resource.load o.name (o.spec?.getD .null) with
  | .error _ => none
  | .ok r => some (r.fillGaps o.settings.defaults)

/-- Whether an occurrence comes to a resolved spec, unless its spec is rejected. -/
def verdict? (o : Occurrence) : Option Bool := o.filling?.map fun a => a.fault?.isNone

/-- Whether the spec of an occurrence is not rejected. -/
def isLoaded (o : Occurrence) : Bool := o.verdict?.isSome

/-- What is published about the resource of an occurrence. -/
def about (o : Occurrence) : List (Key × Value) :=
  match o.filling? with
  | none => []
  | some a => a.state.status.toOption.getD []

/-- The reason of the condition after an occurrence with a verdict. -/
def reason (ready : Bool) : String :=
  if ready then Event.resolvedReason else Event.invalidReason

/-- What the condition tells after an occurrence with a verdict. -/
def message (o : Occurrence) (ready : Bool) : String :=
  if ready then s!"{resourceKind} {o.name} spec resolved" else Fault.hostRequired.text

/-- The error after an occurrence with a verdict. -/
def error (o : Occurrence) (ready : Bool) : Value :=
  if ready then .null else .text (o.message ready)

/-- An occurrence as the operator meets it: with an inert spec of JSON, metadata, defaults that
are texts and a time, and a status that nobody else has written to. -/
structure Genuine (o : Occurrence) : Prop where
  spec : ∃ v, o.spec? = some v ∧ v.IsJson ∧ (Schema.spec.toShape true).inert v
  status : o.status? = none
  metadata : ∃ es, o.metadata = .dict es
  texts : o.settings.defaults.AreTexts
  now : o.now ≠ ""

end Occurrence

/-- The names under which a status tells about the resource. -/
def aboutNames : List String := ["image", "version", "endpoint", "selector", "specHash"]

/-- The last occurrence whose spec was resolved. -/
def lastResolved? (loaded : List Occurrence) : Option Occurrence :=
  (loaded.filter fun o => o.verdict? == some true).getLast?

/-- What a status says after occurrences that end in a streak with one verdict. -/
structure Streak (earlier : List Occurrence) (first : Occurrence) (later : List Occurrence)
    (ready : Bool) (pairs : List (String × Value)) : Prop where
  same : ∀ o ∈ first :: later, o.verdict? = some ready
  maximal : ∀ o ∈ earlier.getLast?, o.verdict? ≠ some ready
  conditions : pairs.lookup "conditions" = some (.list [readyData ready (Occurrence.reason ready)
    (((first :: later).getLast (by simp)).message ready)
    (generationOf ((first :: later).getLast (by simp)).metadata) first.now])
  error : pairs.lookup "error" =
    some (((first :: later).getLast (by simp)).error ready)
  observedGeneration : pairs.lookup "observedGeneration" =
    some (generationOf ((first :: later).getLast (by simp)).metadata)

/-- What a status says after occurrences whose spec was not rejected. -/
structure Reports (loaded : List Occurrence) (pairs : List (String × Value)) : Prop where
  empty : loaded = [] → pairs = []
  streak : loaded ≠ [] → ∃ earlier first later ready, loaded = earlier ++ first :: later ∧
    Streak earlier first later ready pairs
  about : ∀ name ∈ aboutNames, pairs.lookup name =
    (lastResolved? loaded).bind fun o => entryAt? name o.about

/-- The verdict on an occurrence, and what it publishes, can be told from the data that its
spec travels as. -/
theorem Occurrence.verdict_travels {o : Occurrence} (hd : o.settings.defaults.AreTexts)
    {v r w : Value} (hspec : o.spec? = some v) (hload : Schema.spec.load v = .ok r)
    (h : Shape.Travels (Schema.spec.toShape true) r w) :
  if w.isBlocked then o.verdict? = some false
  else o.verdict? = some true ∧
    o.about = named (Resource.aboutPairs o.name (w.fillData o.settings.defaults))
  := by
  have hfilling : o.filling? =
      some ((Resource.ofSpec o.name r).fillGaps o.settings.defaults) := by
    simp [filling?, hspec, Resource.load, hload, Except.map]
  have hfill := Resource.fillGaps_travels hd (r := .ofSpec o.name r) h
  rw [verdict?, about, hfilling]
  cases hblocked : w.isBlocked with
  | true =>
    simp only [hblocked, if_true] at hfill ⊢
    rw [hfill]
    rfl
  | false =>
    simp only [hblocked, Bool.false_eq_true, if_false] at hfill ⊢
    obtain ⟨spec, hdone, htravels⟩ := hfill
    rw [hdone]
    refine ⟨rfl, ?_⟩
    rw [Resource.status_travels htravels]
    rfl

/-! ### One occurrence -/

namespace Stored

/-- A patch of the status is laid over what was there. -/
theorem apply_status (stored : Stored) {pairs : List (String × Value)}
    (hstored : stored.status = object pairs) (patch : Patch) :
  ∃ next, stored.apply patch = .ok next ∧
    next.status = .dict (Assoc.overlay (named pairs) (patch.status?.getD []))
  := by
  have hentries : statusEntries stored.status = .ok (named pairs) := by
    rw [statusEntries, hstored]
    cases pairs <;> rfl
  rw [apply, hentries]
  exact ⟨_, rfl, rfl⟩

/-- The status after an occurrence: as it was where the spec is rejected, and otherwise with
what the verdict adds.  Nothing goes wrong exactly when the spec is resolved. -/
theorem step_status {o : Occurrence} (ho : o.Genuine) {stored : Stored}
    {pairs : List (String × Value)} (hstored : stored.status = object pairs)
    {held : Option (Bool × String)} (hheld : Holds pairs held) :
  ∃ outcome next, stored.step o = .ok (outcome, next) ∧
    outcome.fault?.isNone = (o.verdict? == some true) ∧
    match o.verdict? with
    | none => next.status = object pairs
    | some ready => ∃ about : List (String × Value),
        (if ready then o.about = named about ∧ about.map Prod.fst = aboutNames else about = []) ∧
        next.status = object (Assoc.overlay pairs (about ++ outcomePairs ready
          (Occurrence.reason ready) (o.message ready) (o.error ready) (generationOf o.metadata)
          (transition held ready o.now)))
  := by
  obtain ⟨v, hspec, hjson, hinert⟩ := ho.spec
  obtain ⟨metadata, hmetadata⟩ := ho.metadata
  have hfound : (stored.amend o).status = object pairs := by
    rw [amend, ho.status]
    exact hstored
  let event := (stored.amend o).event o
  have hevent : event.spec = v := by
    change o.spec?.getD stored.spec = v
    rw [hspec]
    rfl
  obtain ⟨next, happly, hnext⟩ := apply_status
    { stored.amend o with spec := event.specAfter } hfound (reconcile event).patch
  refine ⟨reconcile event, next, ?_, ?_⟩
  · rw [step]
    change (apply (reconcile event).patch _).map _ = _
    rw [happly]
    rfl
  · rw [hnext]
    cases hload : Schema.spec.load v with
    | error fault =>
      have hverdict : o.verdict? = none := by
        simp [Occurrence.verdict?, Occurrence.filling?, hspec, Resource.load, hload, Except.map]
      have hrun : reconcile event = ⟨some fault, .empty, []⟩ := by
        simp [reconcile, hevent, Resource.load, hload, Except.map]
      rw [hverdict, hrun]
      exact ⟨rfl, rfl⟩
    | ok r =>
      obtain ⟨w, hw⟩ := Schema.load_spec_travels hjson hinert hload
      have hverdict := o.verdict_travels ho.texts hspec hload hw
      have hrun := @reconcile_travels event ho.texts r w (by rw [hevent, hload]) hw
      cases hblocked : w.isBlocked with
      | true =>
        simp only [hblocked, if_true] at hverdict hrun
        obtain ⟨hfault, hpatch⟩ :=
          @reject_holds event pairs metadata held hfound hmetadata hheld
        rw [hverdict, hrun, hfault, hpatch]
        refine ⟨rfl, [], rfl, ?_⟩
        rw [Option.getD_some, overlay_named]
        rfl
      | false =>
        simp only [hblocked, Bool.false_eq_true, if_false] at hverdict hrun
        obtain ⟨hverdict, habout⟩ := hverdict
        obtain ⟨resource, hpublish, hname, -, hstatus⟩ := hrun
        obtain ⟨hfault, hpatch⟩ :=
          @publish_holds event pairs metadata held hfound hmetadata hheld _ _ hstatus
        rw [hverdict, hpublish, hfault, hpatch, habout]
        refine ⟨rfl, Resource.aboutPairs o.name (w.fillData o.settings.defaults), ⟨rfl, rfl⟩, ?_⟩
        have hmessage : s!"{resourceKind} {resource.name} spec resolved" = o.message true := by
          rw [hname]
          rfl
        rw [Option.getD_some, hmessage]
        change Value.dict (Assoc.overlay (named pairs) (named _ ++ named _)) = _
        rw [← named_append, overlay_named]
        rfl

end Stored

/-! ### Histories -/

section Reports

variable {loaded : List Occurrence} {o : Occurrence} {pairs about : List (String × Value)}
  {ready : Bool}

/-- What a status holds after occurrences: nothing before the first of them, and then the last
verdict with the time of the first occurrence that came to it without interruption. -/
def Remembers (loaded : List Occurrence) (pairs : List (String × Value)) :
    Option (Bool × String) → Prop
  | none => loaded = []
  | some (ready, time) => ∃ earlier first later, loaded = earlier ++ first :: later ∧
      Streak earlier first later ready pairs ∧ time = first.now

theorem Reports.exists_held (h : Reports loaded pairs) (hnow : ∀ o ∈ loaded, o.now ≠ "") :
  ∃ held, Holds pairs held ∧ Remembers loaded pairs held
  := by
  by_cases hloaded : loaded = []
  · refine ⟨none, ?_, hloaded⟩
    rw [Holds, h.empty hloaded]
    rfl
  · obtain ⟨earlier, first, later, ready, heq, hstreak⟩ := h.streak hloaded
    refine ⟨some (ready, first.now), ⟨?_, _, _, _, hstreak.conditions⟩, earlier, first, later,
      heq, hstreak, rfl⟩
    apply hnow first
    simp [heq]

theorem map_fst_outcomePairs (ready : Bool) (reason message : String)
    (error generation : Value) (time : String) :
  (outcomePairs ready reason message error generation time).map Prod.fst =
    ["conditions", "error", "observedGeneration"]
  := rfl

section Added

variable (habout : about.map Prod.fst = aboutNames ∨ about = []) (ready : Bool)
  (reason message : String) (error generation : Value) (time : String)

include habout

/-- The names that an occurrence adds to the status are distinct. -/
theorem nodup_added :
  ((about ++ outcomePairs ready reason message error generation time).map Prod.fst).Nodup
  := by
  rw [List.map_append, map_fst_outcomePairs]
  obtain h | rfl := habout
  · rw [h]
    decide
  · decide

end Added

/-- A streak that starts. -/
theorem Streak.start {earlier : List Occurrence} (hverdict : o.verdict? = some ready)
    (hmaximal : ∀ o ∈ earlier.getLast?, o.verdict? ≠ some ready)
    (hadded : ∀ p ∈ outcomePairs ready (Occurrence.reason ready) (o.message ready)
      (o.error ready) (generationOf o.metadata) o.now, pairs.lookup p.1 = some p.2) :
  Streak earlier o [] ready pairs
  where
    same := by simpa using hverdict
    maximal := hmaximal
    conditions := hadded _ (.head _)
    error := hadded _ (.tail _ (.head _))
    observedGeneration := hadded _ (.tail _ (.tail _ (.head _)))

/-- A streak that goes on. -/
theorem Streak.extend {earlier later : List Occurrence} {first : Occurrence}
    {others : List (String × Value)} (h : Streak earlier first later ready pairs)
    (hverdict : o.verdict? = some ready)
    (hadded : ∀ p ∈ outcomePairs ready (Occurrence.reason ready) (o.message ready)
      (o.error ready) (generationOf o.metadata) first.now, others.lookup p.1 = some p.2) :
  Streak earlier first (later ++ [o]) ready others
  := by
  have hlast : (first :: (later ++ [o])).getLast (by simp) = o := by simp
  refine ⟨?_, h.maximal, ?_, ?_, ?_⟩
  · intro other hother
    rw [← List.cons_append, List.mem_append] at hother
    obtain hold | hnew := hother
    · exact h.same other hold
    · obtain rfl : other = o := by simpa using hnew
      exact hverdict
  · rw [hlast]
    exact hadded _ (.head _)
  · rw [hlast]
    exact hadded _ (.tail _ (.head _))
  · rw [hlast]
    exact hadded _ (.tail _ (.tail _ (.head _)))

/-- One more occurrence continues a streak or starts a new one. -/
theorem Remembers.append {held : Option (Bool × String)} (hheld : Remembers loaded pairs held)
    (hverdict : o.verdict? = some ready) {others : List (String × Value)}
    (hadded : ∀ p ∈ outcomePairs ready (Occurrence.reason ready) (o.message ready)
      (o.error ready) (generationOf o.metadata) (transition held ready o.now),
      others.lookup p.1 = some p.2) :
  ∃ earlier first later, loaded ++ [o] = earlier ++ first :: later ∧
    Streak earlier first later ready others
  := by
  cases held with
  | none =>
    obtain rfl := hheld
    exact ⟨[], o, [], rfl, .start hverdict (by simp) hadded⟩
  | some before =>
    obtain ⟨before, time⟩ := before
    obtain ⟨earlier, first, later, rfl, hstreak, rfl⟩ := hheld
    by_cases hsame : before = ready
    · subst hsame
      rw [transition, if_pos rfl] at hadded
      exact ⟨earlier, first, later ++ [o], by simp, hstreak.extend hverdict hadded⟩
    · rw [transition, if_neg hsame] at hadded
      refine ⟨earlier ++ first :: later, o, [], rfl, .start hverdict ?_ hadded⟩
      intro other hother heq
      have hmem : other ∈ first :: later := by
        rw [List.getLast?_append_of_ne_nil _ (by simp)] at hother
        exact List.mem_of_getLast? hother
      rw [hstreak.same other hmem] at heq
      exact hsame (Option.some.inj heq)

/-- The status after one more occurrence whose spec was not rejected. -/
theorem Reports.append (h : Reports loaded pairs) {held : Option (Bool × String)}
    (hheld : Remembers loaded pairs held) (hverdict : o.verdict? = some ready)
    (habout : if ready then o.about = named about ∧ about.map Prod.fst = aboutNames
      else about = []) :
  Reports (loaded ++ [o]) (Assoc.overlay pairs (about ++ outcomePairs ready
    (Occurrence.reason ready) (o.message ready) (o.error ready) (generationOf o.metadata)
    (transition held ready o.now)))
  := by
  have hnames : about.map Prod.fst = aboutNames ∨ about = [] := by
    cases ready with
    | true => exact .inl habout.2
    | false => exact .inr habout
  have hlookup (name : String) := Assoc.lookup_overlay pairs (k := name)
    (nodup_added hnames ready (Occurrence.reason ready) (o.message ready) (o.error ready)
      (generationOf o.metadata) (transition held ready o.now))
  refine ⟨by simp, fun _ => ?_, ?_⟩
  · obtain ⟨earlier, first, later, heq, hstreak⟩ := hheld.append hverdict fun p hp => by
      rw [hlookup, Assoc.lookup_of_mem (nodup_added hnames _ _ _ _ _ _)
        (List.mem_append_right about hp), Option.some_or]
    exact ⟨earlier, first, later, ready, heq, hstreak⟩
  · intro name hname
    rw [hlookup, List.lookup_append]
    have houtcome : (outcomePairs ready (Occurrence.reason ready) (o.message ready)
        (o.error ready) (generationOf o.metadata) (transition held ready o.now)).lookup name =
        none := by
      rw [Assoc.lookup_eq_none, map_fst_outcomePairs]
      revert name
      decide
    rw [houtcome, Option.or_none]
    cases ready with
    | true =>
      have hlast : lastResolved? (loaded ++ [o]) = some o := by
        simp [lastResolved?, hverdict]
      obtain ⟨habout, hnames⟩ := habout
      obtain ⟨v, hv⟩ : ∃ v, about.lookup name = some v := by
        cases hfound : about.lookup name with
        | some v => exact ⟨v, rfl⟩
        | none => exact absurd (hnames ▸ hname) (Assoc.lookup_eq_none.mp hfound)
      rw [hlast, Option.bind_some, habout, entryAt?_named, hv, Option.some_or]
    | false =>
      have hlast : lastResolved? (loaded ++ [o]) = lastResolved? loaded := by
        simp [lastResolved?, hverdict]
      obtain rfl : about = [] := habout
      rw [hlast, List.lookup_nil, Option.none_or]
      exact h.about name hname

end Reports

/-- After every history that starts from nothing the status reports on the occurrences whose
spec was not rejected. -/
theorem run_reports {occurrences : List Occurrence} (h : ∀ o ∈ occurrences, o.Genuine) :
  ∃ outcomes last pairs, Stored.blank.run occurrences = .ok (outcomes, last) ∧
    (outcomes.map fun outcome => outcome.fault?.isNone) =
      (occurrences.map fun o => o.verdict? == some true) ∧
    last.status = object pairs ∧ Reports (occurrences.filter Occurrence.isLoaded) pairs
  := by
  induction occurrences using List.reverseRecOn with
  | nil =>
    refine ⟨[], Stored.blank, [], rfl, rfl, rfl, fun _ => rfl, fun h => absurd rfl h, ?_⟩
    simp [lastResolved?]
  | append_singleton occurrences o ih =>
    obtain ⟨outcomes, stored, pairs, hrun, hfaults, hstored, hreports⟩ :=
      ih fun other hother => h other (by simp [hother])
    have ho := h o (by simp)
    obtain ⟨held, hheld, hremembers⟩ := hreports.exists_held fun other hother =>
      (h other (by simp [(List.mem_filter.mp hother).1])).now
    obtain ⟨outcome, next, hstep, hfault, hstatus⟩ := stored.step_status ho hstored hheld
    have hrun' : Stored.blank.run (occurrences ++ [o]) = .ok (outcomes ++ [outcome], next) := by
      rw [Stored.run_append, hrun]
      simp only [Except.bind]
      rw [Stored.run_cons, hstep]
      rfl
    have hfaults' : ((outcomes ++ [outcome]).map fun outcome => outcome.fault?.isNone) =
        (occurrences ++ [o]).map fun o => o.verdict? == some true := by
      simp [hfaults, hfault]
    cases hverdict : o.verdict? with
    | none =>
      rw [hverdict] at hstatus
      refine ⟨_, next, pairs, hrun', hfaults', hstatus, ?_⟩
      have hfilter : (occurrences ++ [o]).filter Occurrence.isLoaded =
          occurrences.filter Occurrence.isLoaded := by
        simp [Occurrence.isLoaded, hverdict]
      rw [hfilter]
      exact hreports
    | some ready =>
      rw [hverdict] at hstatus
      obtain ⟨about, habout, hnext⟩ := hstatus
      refine ⟨_, next, _, hrun', hfaults', hnext, ?_⟩
      have hfilter : (occurrences ++ [o]).filter Occurrence.isLoaded =
          occurrences.filter Occurrence.isLoaded ++ [o] := by
        simp [Occurrence.isLoaded, hverdict]
      rw [hfilter]
      exact hreports.append hremembers hverdict habout

/-- An occurrence with a spec and a time alone. -/
def Occurrence.ofSpec (spec : Value) (now : String) : Occurrence :=
  ⟨"chat", object [("generation", .int 1)], now, .builtin, some spec, none⟩

theorem Occurrence.genuine_ofSpec {spec : Value} {now : String} (hjson : spec.IsJson)
    (hinert : (Schema.spec.toShape true).inert spec) (hnow : now ≠ "") :
  (ofSpec spec now).Genuine
  where
    spec := ⟨spec, rfl, hjson, hinert⟩
    status := rfl
    metadata := ⟨_, rfl⟩
    texts := Defaults.areTexts_builtin
    now := hnow

/-- A history of a spec without a host, of one that is rejected and of one with a host. -/
theorem run_reports_repaired :
  ∃ outcomes last pairs,
    Stored.blank.run
      [.ofSpec (object []) "morning", .ofSpec (object [("image", .int 5)]) "noon",
       .ofSpec (object [("ingressName", .text "chat.example.com")]) "evening"] =
        .ok (outcomes, last) ∧
    (outcomes.map fun outcome => outcome.fault?.isNone) = [false, false, true] ∧
    last.status = object pairs ∧
    Reports
      [.ofSpec (object []) "morning",
       .ofSpec (object [("ingressName", .text "chat.example.com")]) "evening"] pairs
  := by
  apply run_reports
  simp only [List.forall_mem_cons, List.not_mem_nil, false_implies, implies_true, and_true]
  refine ⟨?_, ?_, ?_⟩
  · exact Occurrence.genuine_ofSpec (by simp [isJson_object]) (by decide) (by decide)
  · exact Occurrence.genuine_ofSpec (by simp [isJson_object, IsJson]) (by decide) (by decide)
  · exact Occurrence.genuine_ofSpec (by simp [isJson_object, IsJson]) (by decide) (by decide)

end Installation

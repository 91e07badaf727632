import Installation.Proofs.Resource.Changes
import Installation.Session

/-!
# Patches along a session

A session goes on step by step: the gaps of its resource are filled, parts of the spec are
edited, other settings come into force, and the resource is looked at, `Session.run`.  Filling
the gaps of a typed spec leaves a patch that describes what has changed, or is stopped for want
of a host; then the patch stays as the last filling that came to its end has left it:
`run_specPatch`.  So a patch may be about a change of long ago, `stale_patch`.
-/

namespace Installation

open Shape Value

namespace Session

/-! ### Steps -/

/-- What is done in a session.  To look at the resource is to dump its spec, or to ask for its
status. -/
inductive Step where
  | fill
  | edit (route : Route) (v : Value)
  | configure (settings : Settings)
  | look

/-- A session after a step; an edit that is not possible leaves it as it is. -/
def after (s : Session) : Step → Session
  | .fill => s.fillGaps.state
  | .edit route v =>
    match s.edit route v with
    | .ok s' => s'
    | .error _ => s
  | .configure settings => s.configure settings
  | .look => s

/-- A session after some steps. -/
def run (s : Session) (steps : List Step) : Session := steps.foldl after s

/-- Whether no filling among some steps comes to its end. -/
def Quiet (s : Session) : List Step → Prop
  | [] => True
  | step :: steps => (step = .fill → s.fillGaps.fault? ≠ none) ∧ Quiet (s.after step) steps

theorem run_append (s : Session) (steps others : List Step) :
  s.run (steps ++ others) = (s.run steps).run others
  := List.foldl_append

end Session

/-! ### Patches that share nothing -/

/-- Whether no part of the changed fields stands anywhere else. -/
def Sharing.IsApart (s : Sharing) : Prop :=
  ∀ group ∈ s.groups, ∀ p ∈ group, p.holder ≠ .defaulted

/-- Nothing else stands in the places of fields that were replaced as a whole. -/
theorem Sharing.isApart_release (s : Sharing) :
  (s.release .defaulted).IsApart
  := by
  intro group hgroup p hp
  obtain ⟨hgroup, -⟩ := List.mem_filter.mp hgroup
  obtain ⟨before, -, rfl⟩ := List.mem_map.mp hgroup
  simpa using (List.mem_filter.mp hp).2

namespace Sharing.IsApart

variable {s : Sharing} (h : s.IsApart)

include h

theorem forget (gone : Place → Bool) :
  (s.forget gone).IsApart
  := by
  intro group hgroup p hp
  obtain ⟨hgroup, -⟩ := List.mem_filter.mp hgroup
  obtain ⟨before, hbefore, rfl⟩ := List.mem_map.mp hgroup
  exact h before hbefore p (List.mem_filter.mp hp).1

theorem join {p new : Place} (hp : p.holder ≠ .defaulted) (hnew : new.holder ≠ .defaulted) :
  (s.join p new).IsApart
  := by
  rw [Sharing.join]
  split
  · intro group hgroup q hq
    obtain ⟨before, hbefore, rfl⟩ := List.mem_map.mp hgroup
    split at hq
    · obtain hq | hq := List.mem_append.mp hq
      · exact h before hbefore q hq
      · obtain rfl := List.mem_singleton.mp hq
        exact hnew
    · exact h before hbefore q hq
  · intro group hgroup q hq
    obtain hgroup | hgroup := List.mem_append.mp hgroup
    · exact h group hgroup q hq
    · obtain rfl := List.mem_singleton.mp hgroup
      simp only [List.mem_cons, List.not_mem_nil, or_false] at hq
      obtain rfl | rfl := hq
      · exact hp
      · exact hnew

/-- A default that fills a gap is none of the changed fields. -/
theorem fill (gaps : List Gap) :
  (gaps.foldl Sharing.fill s).IsApart
  := by
  induction gaps generalizing s with
  | nil => exact h
  | cons gap gaps ih =>
    apply ih
    exact (h.forget _).join (by simp) (by simp)

theorem others {place q : Place} (hq : q ∈ s.others place) :
  q.holder ≠ .defaulted
  := by
  rw [Sharing.others, List.mem_flatMap] at hq
  obtain ⟨group, hgroup, hq⟩ := hq
  obtain ⟨p, -, hq⟩ := List.mem_flatMap.mp hq
  split at hq
  · obtain ⟨other, hother, rfl⟩ := List.mem_map.mp hq
    exact h group hgroup other (List.mem_filter.mp hother).1
  · simp at hq

end Sharing.IsApart

namespace Session

/-! ### What a step leaves of the patch -/

/-- What is put into the spec or the defaults leaves the patch alone. -/
theorem put_specPatch {p : Place} (h : p.holder ≠ .defaulted) (v : Value) (s : Session) :
  (s.put v p).resource.specPatch = s.resource.specPatch
  := by
  obtain ⟨holder, path⟩ := p
  cases holder with
  | defaulted => contradiction
  | spec | defaults => rfl

theorem foldl_put_specPatch {places : List Place} (h : ∀ p ∈ places, p.holder ≠ .defaulted)
    (v : Value) (s : Session) :
  (places.foldl (put v) s).resource.specPatch = s.resource.specPatch
  := by
  induction places generalizing s with
  | nil => rfl
  | cons p places ih =>
    rw [List.forall_mem_cons] at h
    rw [List.foldl_cons, ih h.2, put_specPatch h.1]

/-- An edit leaves a patch alone that shares nothing. -/
theorem edit_specPatch {s s' : Session} (h : s.sharing.IsApart) {route : Route} {v : Value}
    (hedit : s.edit route v = .ok s') :
  s'.resource.specPatch = s.resource.specPatch ∧ s'.sharing.IsApart
  := by
  rw [edit] at hedit
  cases hpath : s.resource.spec.locate v route with
  | error fault => simp [hpath, Except.map] at hedit
  | ok path? =>
    rw [hpath] at hedit
    obtain rfl := Except.ok.inj hedit
    cases path? with
    | none => exact ⟨rfl, h⟩
    | some path =>
      refine ⟨foldl_put_specPatch ?_ v s, h.forget _⟩
      rw [List.forall_mem_cons]
      exact ⟨by simp, fun q hq => h.others hq⟩

end Session

/-- A filling that does not come to its end leaves the patch alone. -/
theorem Resource.fillGaps_specPatch {d : Defaults} {r : Resource}
    (h : (r.fillGaps d).fault? ≠ none) :
  (r.fillGaps d).state.specPatch = r.specPatch
  := by
  rw [fillGaps] at h ⊢
  cases hbefore : r.dumpSpec with
  | error fault => rfl
  | ok before =>
    simp only [hbefore] at h ⊢
    cases hfault : (fillSpec d r.spec).fault? with
    | some fault =>
      rw [Attempt.andThen, Attempt.fault?_map, hfault]
      rfl
    | none =>
      rw [Attempt.eq_done hfault, Attempt.map_done, Attempt.andThen_done] at h ⊢
      split
      · rfl
      · rename_i hafter
        simp only [hafter] at h
        exact absurd rfl h

namespace Session

theorem fillGaps_specPatch {s : Session} (h : s.sharing.IsApart)
    (hfault : s.fillGaps.fault? ≠ none) :
  s.fillGaps.state.resource.specPatch = s.resource.specPatch ∧ s.fillGaps.state.sharing.IsApart
  := by
  rw [fillGaps] at hfault ⊢
  cases hdump : s.resource.dumpSpec with
  | error fault => exact ⟨rfl, h⟩
  | ok before =>
    rw [hdump] at hfault
    simp only [Attempt.fault?_map] at hfault ⊢
    refine ⟨Resource.fillGaps_specPatch hfault, ?_⟩
    change (s.sharingAfter _).IsApart
    rw [sharingAfter]
    split
    · exact h.fill _
    · contradiction

/-- A step without a filling that comes to its end leaves a patch alone that shares nothing, and
shares nothing of it. -/
theorem after_specPatch {s : Session} (h : s.sharing.IsApart) {step : Step}
    (hquiet : step = .fill → s.fillGaps.fault? ≠ none) :
  (s.after step).resource.specPatch = s.resource.specPatch ∧ (s.after step).sharing.IsApart
  := by
  cases step with
  | fill => exact fillGaps_specPatch h (hquiet rfl)
  | edit route v =>
    rw [after]
    split
    · exact edit_specPatch h ‹_›
    · exact ⟨rfl, h⟩
  | configure settings => exact ⟨rfl, h.forget _⟩
  | look => exact ⟨rfl, h⟩

/-- Steps without such a filling leave the patch alone. -/
theorem run_specPatch_of_quiet {s : Session} (h : s.sharing.IsApart) {steps : List Step}
    (hquiet : s.Quiet steps) :
  (s.run steps).resource.specPatch = s.resource.specPatch
  := by
  induction steps generalizing s with
  | nil => rfl
  | cons step steps ih =>
    obtain ⟨hstep, hrest⟩ := hquiet
    obtain ⟨hpatch, hapart⟩ := after_specPatch h hstep
    exact (ih hapart hrest).trans hpatch

/-- The patch of a filling shares nothing if there are no records in the maps of the spec. -/
theorem isApart_of_fillGaps {s : Session} (h : s.fillGaps.fault? = none)
    (hpassed : Schema.spec.passages s.fillGaps.state.resource.spec = []) :
  s.fillGaps.state.sharing.IsApart
  := by
  rw [fillGaps] at h hpassed ⊢
  cases hdump : s.resource.dumpSpec with
  | error fault =>
    rw [hdump] at h
    contradiction
  | ok before =>
    simp only [hdump, Attempt.fault?_map] at h hpassed ⊢
    change Schema.spec.passages (s.resource.fillGaps s.settings.defaults).state.spec = []
      at hpassed
    change (s.sharingAfter (s.resource.fillGaps s.settings.defaults)).IsApart
    rw [sharingAfter, h]
    simp only [hpassed]
    exact Sharing.isApart_release _

/-! ### Patches after a filling -/

/-- The patch after a filling.  At any point of a session where the spec is typed and the
defaults are texts, the filling of the gaps comes to its end or is stopped for want of a host.  In
the first case the patch describes how the dump has changed with it, and it is empty after one
more filling.  In the second case the resource stays as it is.  Its patch is the one that there
was at any earlier point with no filling since that has come to its end, if this patch shared
nothing with the spec. -/
theorem run_specPatch {start : Session} {steps : List Step} {attrs : List (String × Value)}
    (hspec : (start.run steps).resource.spec = .record .spec attrs)
    (typed : Typed (Schema.spec.toShape true) (.record .spec attrs))
    (hsound : (Value.record .spec attrs).Sound)
    (hd : (start.run steps).settings.defaults.AreTexts) :
  (∃ s before after again, (start.run steps).fillGaps = .done s ∧
    (start.run steps).resource.dumpSpec = .ok before ∧ s.resource.dumpSpec = .ok after ∧
    Resource.Describes s.resource.specPatch before after ∧
    s.fillGaps = .done again ∧ again.resource.specPatch = []) ∨
  ∃ s, (start.run steps).fillGaps = .failed s .hostRequired ∧
    s.resource = (start.run steps).resource ∧
    ∀ earlier later, steps = earlier ++ later → (start.run earlier).sharing.IsApart →
      (start.run earlier).Quiet later →
      s.resource.specPatch = (start.run earlier).resource.specPatch
  := by
  obtain ⟨before, hbefore, hfail | ⟨r, after, hdone, hafter, hdescribes, hagain⟩⟩ :=
    Resource.fillGaps_typed hd typed hsound hspec
  · right
    have hstop : ∃ s, (start.run steps).fillGaps = .failed s .hostRequired ∧
        s.resource = (start.run steps).resource := by
      rw [fillGaps, hbefore, hfail]
      exact ⟨_, rfl, rfl⟩
    obtain ⟨s, hs, hresource⟩ := hstop
    refine ⟨s, hs, hresource, fun earlier later hsteps hapart hquiet => ?_⟩
    rw [hresource, hsteps, run_append, run_specPatch_of_quiet hapart hquiet]
  · left
    have hfilled : ∃ s, (start.run steps).fillGaps = .done s ∧ s.resource = r ∧
        s.settings = (start.run steps).settings := by
      rw [fillGaps, hbefore, hdone]
      exact ⟨_, rfl, rfl, rfl⟩
    obtain ⟨s, hs, hresource, hsettings⟩ := hfilled
    have hempty : ∃ again, s.fillGaps = .done again ∧ again.resource.specPatch = [] := by
      rw [fillGaps, hresource, hsettings, hafter, hagain]
      exact ⟨_, rfl, rfl⟩
    obtain ⟨again, hs', hpatch⟩ := hempty
    rw [← hresource] at hafter hdescribes
    exact ⟨s, before, after, again, hs, hbefore, hafter, hdescribes, hs', hpatch⟩

/-- A spec that gives its host in the older form. -/
def hostOnly : Value := object [("ingressName", .text "chat.example.com")]

/-- Taking the host away. -/
def takeHost : Step := .edit [.text "ingress_name"] .null

/-- The attributes of the spec when its gaps were filled and its host was taken away. -/
def hostlessAttrs : List (String × Value) :=
  [("image", .text "mattermost/mattermost-enterprise-edition"), ("version", .text "5.37.1"),
   ("replicas", .null), ("image_pull_policy", .text "IfNotPresent"), ("ingress", .null),
   ("ingress_name", .null), ("ingress_annotations", .null), ("use_ingress_tls", .null),
   ("resource_labels", .null),
   ("file_store", .record .fileStore
     [("external", .null), ("external_volume", .null),
      ("operator_managed", .record .managedFileStore [("storage_size", .text "50Gi")])]),
   ("database", .record .database
     [("external", .null),
      ("operator_managed", .record .managedDatabase
        [("type", .text "mysql"), ("storage_size", .text "50Gi")])])]

theorem hostlessAttrs_typed :
  Typed (Schema.spec.toShape true) (.record .spec hostlessAttrs)
  := by
  have hfile : Typed (Schema.fileStore.toShape true)
      (attrIn "file_store" hostlessAttrs) := by
    refine .part (by decide) ?_
    simp only [Schema.fileStore, Schema.field, Schema.renamed, List.forall_mem_cons,
      List.not_mem_nil, false_implies, implies_true, and_true]
    refine ⟨typed_null _, typed_null _, .part (by decide) ?_⟩
    simp only [Schema.managedFileStore, Schema.field, Schema.renamed, List.forall_mem_cons,
      List.not_mem_nil, false_implies, implies_true, and_true]
    exact ⟨typed_null _, .leaf (.inr ⟨"50Gi", rfl⟩), typed_null _⟩
  have hdatabase : Typed (Schema.database.toShape true)
      (attrIn "database" hostlessAttrs) := by
    refine .part (by decide) ?_
    simp only [Schema.database, Schema.field, Schema.renamed, List.forall_mem_cons,
      List.not_mem_nil, false_implies, implies_true, and_true]
    refine ⟨typed_null _, .part (by decide) ?_⟩
    simp only [Schema.managedDatabase, Schema.field, Schema.renamed, List.forall_mem_cons,
      List.not_mem_nil, false_implies, implies_true, and_true]
    exact ⟨.leaf (.inr ⟨"mysql", rfl⟩), typed_null _, .leaf (.inr ⟨"50Gi", rfl⟩), typed_null _,
      typed_null _⟩
  refine .part (by decide) ?_
  simp only [Schema.spec, Schema.field, Schema.renamed, List.forall_mem_cons, List.not_mem_nil,
    false_implies, implies_true, and_true]
  exact ⟨.leaf (.inr ⟨_, rfl⟩), .leaf (.inr ⟨_, rfl⟩), typed_null _, .leaf (.inr ⟨_, rfl⟩),
    typed_null _, typed_null _, typed_null _, typed_null _, typed_null _, hfile, hdatabase⟩

theorem hostlessAttrs_sound :
  (Value.record .spec hostlessAttrs).Sound
  := by
  simp [hostlessAttrs, Sound, AttrsSound]

/-- What becomes of the spec when its gaps were filled and its host was taken away. -/
theorem run_hostless :
  ∃ r, Resource.load "chat" hostOnly = .ok r ∧
    ((start .builtin r).run [.fill]).sharing.IsApart ∧
    ((start .builtin r).run [.fill, takeHost]).resource.spec = .record .spec hostlessAttrs ∧
    ((start .builtin r).run [.fill, takeHost]).settings.defaults.AreTexts ∧
    ((start .builtin r).run [.fill, takeHost]).resource.specPatch ≠ [] ∧
    ∃ s before,
      ((start .builtin r).run [.fill, takeHost]).fillGaps = .failed s .hostRequired ∧
      s.resource = ((start .builtin r).run [.fill, takeHost]).resource ∧
      s.resource.dumpSpec = .ok before
  := by
  refine ⟨_, rfl, @isApart_of_fillGaps (start .builtin _) rfl rfl, rfl,
    Defaults.areTexts_builtin, ?_, _, _, rfl, rfl, rfl⟩
  decide +kernel

/-- To take away the host stops the next filling, and leaves the patch of the first one. -/
theorem run_specPatch_hostless :
  ∃ r s, Resource.load "chat" hostOnly = .ok r ∧
    ((start .builtin r).run [.fill, takeHost]).fillGaps = .failed s .hostRequired ∧
    s.resource.specPatch = ((start .builtin r).run [.fill]).resource.specPatch
  := by
  obtain ⟨r, hload, hapart, hspec, hd, -, t, -, hfail, -⟩ := run_hostless
  obtain ⟨s, before, after, again, hs, -⟩ | ⟨s, hs, -, hpatch⟩ :=
    run_specPatch hspec hostlessAttrs_typed hostlessAttrs_sound hd
  · rw [hfail] at hs
    exact absurd hs (by simp)
  · have hquiet : ((start .builtin r).run [.fill]).Quiet [takeHost] :=
      ⟨by simp [takeHost], trivial⟩
    exact ⟨r, s, hload, hs, hpatch [.fill] [takeHost] rfl hapart hquiet⟩

/-- The patch of the first filling is still there after the second one was stopped, which has
changed nothing in the dump. -/
theorem stale_patch :
  ∃ r s t before, Resource.load "chat" hostOnly = .ok r ∧
    s = (start .builtin r).run [.fill, takeHost] ∧
    (∃ attrs, s.resource.spec = .record .spec attrs ∧
      Typed (Schema.spec.toShape true) (.record .spec attrs)) ∧
    s.settings.defaults.AreTexts ∧ s.fillGaps = .failed t .hostRequired ∧
    s.resource.dumpSpec = .ok before ∧ t.resource.dumpSpec = .ok before ∧
    t.resource.specPatch ≠ [] ∧ ¬Resource.Describes t.resource.specPatch before before
  := by
  obtain ⟨r, hload, -, hspec, hd, hpatch, t, before, hfail, hresource, hdump⟩ := run_hostless
  have hpatch' : t.resource.specPatch ≠ [] := hresource ▸ hpatch
  exact ⟨r, _, t, before, hload, rfl, ⟨hostlessAttrs, hspec, hostlessAttrs_typed⟩,
    hd, hfail, hresource ▸ hdump, hdump, hpatch', fun h => hpatch' h.eq_nil⟩

end Session

end Installation

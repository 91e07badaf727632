import Installation.Labels.Memory
import Installation.Labels.Shared
import Installation.Proofs.Association

/-!
# Labels and the dictionaries of others

Labels are worked on while others change dictionaries of their own; a `Labels.Step` is either.
Labels and a dictionary are `Labels.Isolated` when the dictionary holds what its holder has put
there, whatever is done with the labels, and the labels are what was put on top of them, whatever
becomes of the dictionary afterwards.  This is so for every dictionary except that of the labels
themselves, `isolated_iff`.  Labels that are made from a dictionary with entries are that
dictionary, and in all other cases labels are isolated from whatever they were given:
`labels_isolated`.
-/

namespace Installation

namespace Labels

/-! ### Steps -/

/-- What is done with labels, or by others with dictionaries.  Labels that are handed out are
copied. -/
inductive Step where
  | update (given : Address)
  | put (label : Key) (v : Value)
  | copy
  | contains (others : Address)
  | create (entries : List (Key × Value))
  | change (a : Address) (entries : List (Key × Value))

/-- What is in memory after a step, for labels at an address. -/
def afterAt (own : Address) (m : Memory (Key × Value)) : Step → Memory (Key × Value)
  | .update given => updateAt own given m
  | .put label v => putAt own label v m
  | .copy => (copyAt own m).2
  | .contains others => (containsAt own others m).2
  | .create entries => m.create entries
  | .change a entries => m.write a entries

/-- What is in memory after some steps. -/
def runAt (own : Address) (m : Memory (Key × Value)) (steps : List Step) :
    Memory (Key × Value) :=
  steps.foldl (afterAt own) m

/-- What a dictionary holds after a step of those who change dictionaries. -/
def Step.written (a : Address) (entries : List (Key × Value)) : Step → List (Key × Value)
  | .change b others => if b = a then others else entries
  | _ => entries

/-- What a step puts on top of labels, as it is in memory by then. -/
def Step.added (m : Memory (Key × Value)) : Step → List (Key × Value)
  | .update given => m.read given
  | .put label v => [(label, v)]
  | _ => []

/-- What some steps put on top of labels, one after the other. -/
def addedAt (own : Address) (m : Memory (Key × Value)) : List Step → List (Key × Value)
  | [] => []
  | step :: steps => step.added m ++ addedAt own (afterAt own m step) steps

/-- Whether labels and the dictionary at an address have nothing to do with each other.  Somebody
else can change what is at the address of the labels only by holding their dictionary. -/
structure Isolated (own a : Address) (m : Memory (Key × Value)) : Prop where
  dictionary : ∀ steps, (runAt own m steps).read a = steps.foldl (Step.written a) (m.read a)
  labels : ∀ steps, (∀ entries, .change own entries ∈ steps → own = a) →
    (runAt own m steps).read own = Assoc.overlay (m.read own) (addedAt own m steps)

section Frames

/-- No step takes a dictionary out of memory. -/
theorem next_le_afterAt (own : Address) (m : Memory (Key × Value)) (step : Step) :
  m.next ≤ (afterAt own m step).next
  := by
  cases step with
  | update given =>
    rw [afterAt, updateAt, Memory.next_write]
    exact Memory.next_le_create _ m
  | put label v =>
    rw [afterAt, putAt, updateAt, Memory.next_write]
    exact Nat.le_trans (Memory.next_le_create _ m) (Memory.next_le_create _ _)
  | copy | contains others | create entries => exact Memory.next_le_create _ m
  | change a entries => exact Nat.le_of_eq (Memory.next_write a entries m).symm

theorem next_le_runAt (own : Address) (m : Memory (Key × Value)) (steps : List Step) :
  m.next ≤ (runAt own m steps).next
  := by
  induction steps generalizing m with
  | nil => exact Nat.le_refl _
  | cons step steps ih =>
    have hstep := next_le_afterAt own m step
    exact Nat.le_trans hstep (ih (afterAt own m step))

variable {own : Address} {m : Memory (Key × Value)}

/-- A dictionary that is not that of the labels changes with those alone who change it. -/
theorem read_afterAt {a : Address} (ha : a < m.next) (hne : a ≠ own) (step : Step) :
  (afterAt own m step).read a = step.written a (m.read a)
  := by
  cases step with
  | update given => exact read_updateAt ha hne given
  | put label v => exact read_putAt ha hne label v
  | copy | contains others | create entries => exact Memory.read_create ha _
  | change b entries =>
    rw [afterAt, Step.written]
    split
    · rename_i heq
      subst heq
      exact Memory.read_write ha entries
    · rename_i hb
      exact Memory.read_write_ne (Ne.symm hb) entries m

/-- Labels change with what is put on top of them, where nobody else holds their dictionary. -/
theorem own_afterAt (hown : own < m.next) {step : Step}
    (h : ∀ entries, step ≠ .change own entries) :
  (afterAt own m step).read own = Assoc.overlay (m.read own) (step.added m)
  := by
  cases step with
  | update given => exact (updateAt_writes hown given).result
  | put label v => exact (updateAt_created_writes hown [(label, v)]).result
  | copy | contains others | create entries => exact Memory.read_create hown _
  | change b entries =>
    have hne : own ≠ b := by
      rintro rfl
      exact h entries rfl
    exact Memory.read_write_ne hne entries m

theorem read_runAt {a : Address} (ha : a < m.next) (hne : a ≠ own) (steps : List Step) :
  (runAt own m steps).read a = steps.foldl (Step.written a) (m.read a)
  := by
  induction steps generalizing m with
  | nil => rfl
  | cons step steps ih =>
    have hlater := ih (Nat.lt_of_lt_of_le ha (next_le_afterAt own m step))
    rw [read_afterAt ha hne step] at hlater
    exact hlater

theorem own_runAt (hown : own < m.next) {steps : List Step}
    (h : ∀ entries, .change own entries ∉ steps) :
  (runAt own m steps).read own = Assoc.overlay (m.read own) (addedAt own m steps)
  := by
  induction steps generalizing m with
  | nil => rfl
  | cons step steps ih =>
    have hstep : ∀ entries, step ≠ .change own entries := by
      rintro entries rfl
      exact h entries List.mem_cons_self
    have hlater := ih (Nat.lt_of_lt_of_le hown (next_le_afterAt own m step))
      fun entries hmem => h entries (List.mem_cons_of_mem step hmem)
    rw [own_afterAt hown hstep, ← Assoc.overlay_append] at hlater
    exact hlater

/-- Labels are isolated from every dictionary but their own, into which two different values
of a label cannot both be put without a change. -/
theorem isolated_iff (hown : own < m.next) {a : Address} (ha : a < m.next) :
  Isolated own a m ↔ a ≠ own
  := by
  constructor
  · rintro h rfl
    have hput (v : Value) : Assoc.insert (.text appLabel) v (m.read a) = m.read a := by
      have hread := h.dictionary [.put (.text appLabel) v]
      rw [runAt, List.foldl_cons, List.foldl_nil, own_afterAt hown (by simp)] at hread
      exact hread
    have heq := Assoc.insert_right_injective ((hput (.bool false)).trans (hput (.bool true)).symm)
    simp at heq
  · intro hne
    constructor
    · exact read_runAt ha hne
    · intro steps h
      apply own_runAt hown
      intro entries hmem
      exact hne (h entries hmem).symm

/-- Labels are made without a change of any dictionary, and those that there were before are not
the labels' own, except for the one with entries that the labels are made from. -/
theorem makeAt_leaves {source? : Option Address} (hsource : ∀ a ∈ source?, a < m.next)
    {made : Memory (Key × Value)} (h : makeAt source? m = (own, made)) :
  own < made.next ∧ m.next ≤ made.next ∧
    ∀ a < m.next, made.read a = m.read a ∧ (a = own ↔ a ∈ source? ∧ m.read a ≠ [])
  := by
  have hfresh (hempty : ∀ a ∈ source?, m.read a = []) (heq : (m.next, m.create []) = (own, made)) :
      own < made.next ∧ m.next ≤ made.next ∧
        ∀ a < m.next, made.read a = m.read a ∧ (a = own ↔ a ∈ source? ∧ m.read a ≠ []) := by
    obtain ⟨rfl, rfl⟩ := Prod.mk.inj heq
    refine ⟨by simp [Memory.create, Memory.next], Memory.next_le_create [] m, fun a ha => ?_⟩
    refine ⟨Memory.read_create ha [], fun heq => absurd heq (Nat.ne_of_lt ha), ?_⟩
    rintro ⟨hmem, hentries⟩
    exact absurd (hempty a hmem) hentries
  cases source? with
  | none => exact hfresh (by simp) h
  | some source =>
    rw [makeAt] at h
    split at h
    · rename_i hempty
      exact hfresh (by simpa using hempty) h
    · rename_i hentries
      obtain ⟨rfl, rfl⟩ := Prod.mk.inj h
      refine ⟨hsource _ rfl, Nat.le_refl _, fun a ha => ⟨rfl, ?_⟩⟩
      constructor
      · rintro rfl
        exact ⟨rfl, by simpa using hentries⟩
      · rintro ⟨hmem, -⟩
        exact (Option.some.inj hmem).symm

/-- The labels of an installation's objects get a dictionary of their own. -/
theorem next_lt_allAt (custom : Option Address) (name : Value) (m : Memory (Key × Value)) :
  m.next < (allAt custom name m).next
  := by
  have hcreated : m.next < (m.create []).next := by simp [Memory.create, Memory.next]
  have hselected := Nat.lt_of_lt_of_le hcreated (selectorAt_writes name m).grows
  have hupdate (given : Address) (m' : Memory (Key × Value)) (h : m.next < m'.next) :
      m.next < (updateAt m.next given m').next :=
    Nat.lt_of_lt_of_le h (next_le_afterAt m.next m' (.update given))
  have hblank := hupdate (selectorAt name m).next _
    (Nat.lt_of_lt_of_le hselected (Memory.next_le_create [] _))
  cases custom with
  | none => exact hblank
  | some held =>
    rw [allAt]
    split
    · exact hblank
    · exact hupdate held _ hselected

end Frames

end Labels

/-! ### The account of labels and their dictionary -/

namespace SharedLabels

open Labels

/-- The account that memory gives of labels and the dictionary that they were made from. -/
def ofMemory (source? : Option Address) (own : Address) (m : Memory (Key × Value)) :
    SharedLabels :=
  if source? = some own then .shared ⟨m.read own⟩
  else .apart (source?.map fun a => ⟨m.read a⟩) ⟨m.read own⟩

/-- The account after a step. -/
def follow (source? : Option Address) (m : Memory (Key × Value)) (s : SharedLabels) :
    Step → SharedLabels
  | .update given => s.modify (s.labels.overlay ⟨m.read given⟩)
  | .put label v => s.put label v
  | .change a entries => if source? = some a then s.setSource ⟨entries⟩ else s
  | .copy | .contains _ | .create _ => s

/-- The account after some steps. -/
def followAll (source? : Option Address) (own : Address) (m : Memory (Key × Value))
    (s : SharedLabels) : List Step → SharedLabels
  | [] => s
  | step :: steps => followAll source? own (afterAt own m step) (s.follow source? m step) steps

variable {source? : Option Address} {own : Address} {m : Memory (Key × Value)}

/-- Entries on top of labels, and an entry in the dictionary that they were made from, are steps
that the account follows. -/
theorem follow_eq {s : SharedLabels} {source : Labels} (h : s.source? = some source)
    (a given : Address) (label v : Value) :
  s.update (.dict (m.read given)) = .ok (s.follow (some a) m (.update given)) ∧
    s.putSource label v =
      label.toKey.map fun key => s.follow (some a) m (.change a (source.put key v).entries)
  := by
  constructor
  · rw [update_dict, follow]
  · simp only [putSource_eq h, follow, if_pos]

/-- The account of labels that are made from a dictionary. -/
theorem ofMemory_makeAt (hsource : ∀ a ∈ source?, a < m.next) {made : Memory (Key × Value)}
    (h : makeAt source? m = (own, made)) :
  ofMemory source? own made = make (source?.map fun a => ⟨m.read a⟩)
  := by
  obtain ⟨-, -, hleaves⟩ := makeAt_leaves hsource h
  cases source? with
  | none =>
    obtain ⟨rfl, rfl⟩ := Prod.mk.inj h
    rw [ofMemory, if_neg (by simp), Memory.read_next]
    rfl
  | some source =>
    obtain ⟨hread, hown⟩ := hleaves source (hsource source rfl)
    rw [Option.map_some, ofMemory]
    cases hentries : m.read source with
    | nil =>
      have hne : source ≠ own := fun heq => (hown.mp heq).2 hentries
      have hmade : made.read own = [] := by
        rw [makeAt, hentries] at h
        obtain ⟨rfl, rfl⟩ := Prod.mk.inj h
        exact Memory.read_next [] m
      rw [if_neg (by simpa using hne), Option.map_some, hread, hentries, hmade]
      rfl
    | cons e entries =>
      obtain rfl : source = own := hown.mpr ⟨rfl, by simp [hentries]⟩
      rw [if_pos rfl, hread, hentries]
      rfl

/-- The account follows what happens in memory. -/
theorem ofMemory_afterAt (hsource : ∀ a ∈ source?, a < m.next) (hown : own < m.next) {step : Step}
    (h : ∀ entries, step = .change own entries → source? = some own) :
  ofMemory source? own (afterAt own m step) = (ofMemory source? own m).follow source? m step
  := by
  by_cases hshared : source? = some own
  · rw [ofMemory, ofMemory, if_pos hshared, if_pos hshared]
    cases step with
    | change a entries =>
      rw [follow, afterAt, hshared]
      by_cases ha : own = a
      · subst ha
        rw [Memory.read_write hown, if_pos rfl]
        rfl
      · rw [Memory.read_write_ne ha, if_neg (by simpa using ha)]
    | _ =>
      rw [own_afterAt hown (by simp)]
      rfl
  · have hlabels := own_afterAt hown fun entries heq => hshared (h entries heq)
    have hdictionary : (source?.map fun a => Labels.mk ((afterAt own m step).read a)) =
        source?.map fun a => ⟨step.written a (m.read a)⟩ := by
      cases source? with
      | none => rfl
      | some a =>
        have hne : a ≠ own := fun heq => hshared (congrArg some heq)
        rw [Option.map_some, Option.map_some, read_afterAt (hsource a rfl) hne]
    rw [ofMemory, ofMemory, if_neg hshared, if_neg hshared, hlabels, hdictionary]
    cases step with
    | change b entries =>
      cases source? with
      | none => rfl
      | some a =>
        by_cases hb : b = a
        · subst hb
          simp [follow, setSource, Step.written, Step.added]
        · simp [follow, Step.written, Step.added, hb, Ne.symm hb]
    | _ => rfl

/-- The account follows what happens in memory, step by step. -/
theorem ofMemory_runAt (hsource : ∀ a ∈ source?, a < m.next) (hown : own < m.next)
    {steps : List Step} (h : ∀ entries, .change own entries ∈ steps → source? = some own) :
  ofMemory source? own (runAt own m steps) =
    followAll source? own m (ofMemory source? own m) steps
  := by
  induction steps generalizing m with
  | nil => rfl
  | cons step steps ih =>
    have hgrows := next_le_afterAt own m step
    have hstep : ∀ entries, step = .change own entries → source? = some own := by
      rintro entries rfl
      exact h entries List.mem_cons_self
    rw [followAll, ← ofMemory_afterAt hsource hown hstep]
    apply ih
    · exact fun a ha => Nat.lt_of_lt_of_le (hsource a ha) hgrows
    · exact Nat.lt_of_lt_of_le hown hgrows
    · exact fun entries hmem => h entries (List.mem_cons_of_mem step hmem)

end SharedLabels

/-! ### Isolation -/

namespace Labels

/-- Of the dictionaries that there are when labels are made, and of those that come in while they
are worked on, none but the labels' own dictionary has anything to do with them, and this is one
that there was before exactly if it has entries and the labels are made from it.  The account of
labels and source tells what is in memory all along.  The labels of an installation's objects are
isolated from everything that there was, the custom labels included. -/
theorem labels_isolated {m : Memory (Key × Value)} {source? : Option Address}
    (hsource : ∀ a ∈ source?, a < m.next) {own : Address} {made : Memory (Key × Value)}
    (h : makeAt source? m = (own, made)) :
  (own < made.next ∧
    ∀ a < m.next, made.read a = m.read a ∧ (a = own ↔ a ∈ source? ∧ m.read a ≠ [])) ∧
  (∀ steps a, a < (runAt own made steps).next →
    (Isolated own a (runAt own made steps) ↔ a ≠ own)) ∧
  (∀ steps, (∀ entries, .change own entries ∈ steps → source? = some own) →
    SharedLabels.ofMemory source? own (runAt own made steps) =
      SharedLabels.followAll source? own made (.make (source?.map fun a => ⟨m.read a⟩)) steps) ∧
  ∀ (custom : Option Address) (name : Value), (∀ held ∈ custom, held < m.next) →
    ∀ a < m.next, (allAt custom name m).read a = m.read a ∧
      ∀ steps, Isolated m.next a (runAt m.next (allAt custom name m) steps)
  := by
  obtain ⟨hown, hgrows, hleaves⟩ := makeAt_leaves hsource h
  constructor
  · exact ⟨hown, hleaves⟩
  constructor
  · intro steps a ha
    exact isolated_iff (Nat.lt_of_lt_of_le hown (next_le_runAt own made steps)) ha
  constructor
  · intro steps hchange
    have hmade : ∀ a ∈ source?, a < made.next :=
      fun a ha => Nat.lt_of_lt_of_le (hsource a ha) hgrows
    rw [SharedLabels.ofMemory_runAt hmade hown hchange, SharedLabels.ofMemory_makeAt hsource h]
  · intro custom name hcustom a ha
    obtain ⟨full, -, hwrites⟩ := allAt_writes hcustom name
    have hne : a ≠ m.next := Nat.ne_of_lt ha
    constructor
    · exact hwrites.frame a ha hne
    · intro steps
      have hlater := next_le_runAt m.next (allAt custom name m) steps
      apply (isolated_iff (Nat.lt_of_lt_of_le (next_lt_allAt custom name m) hlater) _).mpr hne
      exact Nat.lt_of_lt_of_le (Nat.lt_of_lt_of_le ha hwrites.grows) hlater

/-- The label of a team. -/
def teamEntries : List (Key × Value) := [(.text "team", .text "a")]

/-- Two dictionaries, the first one with the label of a team and the second one empty. -/
def teamMemory : Memory (Key × Value) := ⟨[teamEntries, []]⟩

/-- Labels that are made from the empty dictionary are isolated from both dictionaries. -/
theorem labels_isolated_blank :
  makeAt (some 1) teamMemory = (2, teamMemory.create []) ∧
    Isolated 2 1 (teamMemory.create []) ∧ Isolated 2 0 (teamMemory.create [])
  := by
  have h : makeAt (some 1) teamMemory = (2, teamMemory.create []) := rfl
  obtain ⟨-, hisolated, -⟩ := labels_isolated (by simp [teamMemory, Memory.next]) h
  constructor
  · exact h
  constructor
  · exact (hisolated [] 1 (by decide)).mpr (by decide)
  · exact (hisolated [] 0 (by decide)).mpr (by decide)

/-- A label that is put on top of labels goes into the dictionary with entries that they were made
from, and a change of this dictionary is one of the labels. -/
theorem source_touched :
  ∃ own made, makeAt (some 0) teamMemory = (own, made) ∧
    (runAt own made [.put (.text "extra") (.text "value")]).read 0 ≠ teamMemory.read 0 ∧
    (runAt own made [.change 0 [(.text "team", .text "b")]]).read own ≠ made.read own ∧
    ((SharedLabels.make (some ⟨teamEntries⟩)).put (.text "extra") (.text "value")).source? ≠
      some ⟨teamEntries⟩
  := by
  use 0, teamMemory
  constructor
  · rfl
  constructor
  · change Assoc.insert (.text "extra") (.text "value") teamEntries ≠ teamEntries
    simp [teamEntries, Assoc.insert]
  constructor
  · change [(Key.text "team", Value.text "b")] ≠ teamEntries
    simp [teamEntries]
  · change some (Labels.mk (Assoc.insert (.text "extra") (.text "value") teamEntries)) ≠ _
    simp [teamEntries, Assoc.insert]

end Labels

end Installation

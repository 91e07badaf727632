import Installation.Labels.Memory
import Installation.Proofs.Association
import Installation.Proofs.Value.Same

/-!
# Labels as maps

Labels with texts as keys and as values are a map, `LabelMap`, and for these `Labels.contains`
is the inclusion of maps.  The labels of an installation's objects are the map of its selector
with that of the custom labels laid over it, so that they contain the selector as long as the
custom labels leave its keys alone: `labels_exact`.
-/

namespace Installation

open Value

/-- Of each of the other labels, the value it has among these is compared with its own. -/
theorem Labels.contains_eq (labels others : Labels) :
  labels.contains others =
    others.entries.all fun e => (labels.entries.lookup e.1).any fun v => v == e.2
  := by
  rw [contains]
  congr
  funext e
  cases labels.entries.lookup e.1 with
  | none => rfl
  | some v => rfl

/-- Labels with texts as keys, each of them once, and as values. -/
structure LabelMap where
  pairs : List (String × String)
  distinct : (pairs.map Prod.fst).Nodup

namespace LabelMap

/-- The keys that have a value. -/
def keys (a : LabelMap) : List String := a.pairs.map Prod.fst

/-- The value of a key. -/
def value? (a : LabelMap) (key : String) : Option String := a.pairs.lookup key

/-- The entries of the dictionary that a map is. -/
def entries (a : LabelMap) : List (Key × Value) :=
  named (a.pairs.map fun p => (p.1, .text p.2))

/-- The labels that a map is. -/
def labels (a : LabelMap) : Labels := ⟨a.entries⟩

/-- The dictionary that a map is. -/
def value (a : LabelMap) : Value := .dict a.entries

/-- The map without keys. -/
def empty : LabelMap := ⟨[], .nil⟩

/-- The map of the labels that pick the pods that run an installation. -/
def selector (name : String) : LabelMap where
  pairs :=
    [(Labels.resourceLabel, name), (Labels.installationLabel, name),
     (Labels.appLabel, Labels.appName)]
  distinct := by simp [Labels.resourceLabel, Labels.installationLabel, Labels.appLabel]

/-- A map with another one on top. -/
def overlay (a b : LabelMap) : LabelMap where
  pairs := Assoc.overlay a.pairs b.pairs
  distinct := Assoc.nodup_overlay a.distinct b.pairs

/-- Whether a map has all that another one has. -/
def Includes (a b : LabelMap) : Prop := ∀ key v, b.value? key = some v → a.value? key = some v

theorem labels_selector (name : String) :
  Labels.selector (.text name) = (selector name).labels
  := rfl

theorem labels_overlay (a b : LabelMap) :
  a.labels.overlay b.labels = (a.overlay b).labels
  := by
  rw [labels, labels, Labels.overlay, entries, entries, overlay_named, Assoc.overlay_mapSnd]
  rfl

/-- The map on top wins. -/
theorem value?_overlay (a b : LabelMap) (key : String) :
  (a.overlay b).value? key = (b.value? key).or (a.value? key)
  := Assoc.lookup_overlay a.pairs b.distinct

theorem mem_keys_overlay (a b : LabelMap) (key : String) :
  key ∈ (a.overlay b).keys ↔ key ∈ a.keys ∨ key ∈ b.keys
  := Assoc.mem_map_fst_overlay a.pairs b.pairs

/-- Among labels, the inclusion of maps is what is looked for. -/
theorem contains_iff {a b : LabelMap} :
  a.labels.contains b.labels ↔ a.Includes b
  := by
  have hlookup (key : String) :
      a.entries.lookup (.text key) = (a.value? key).map Value.text := by
    rw [entries, lookup_named, Assoc.lookup_mapSnd, value?]
  have hfound (key v : String) :
      ((a.entries.lookup (.text key)).any fun w => w == Value.text v) = true ↔
        a.value? key = some v := by
    rw [hlookup]
    cases a.value? key with
    | none => simp
    | some w => simp
  rw [Labels.contains_eq, labels, labels, List.all_eq_true, entries, named, List.map_map,
    List.forall_mem_map]
  constructor
  · intro h key v hkey
    apply (hfound key v).mp
    exact h (key, v) (Assoc.mem_of_lookup hkey)
  · intro h p hp
    apply (hfound p.1 p.2).mpr
    exact h p.1 p.2 (Assoc.lookup_of_mem b.distinct hp)

theorem Includes.refl (a : LabelMap) :
  a.Includes a
  := fun _ _ h => h

theorem Includes.trans {a b c : LabelMap} (hab : a.Includes b) (hbc : b.Includes c) :
  a.Includes c
  := by
  intro key v h
  apply hab
  exact hbc key v h

theorem overlay_includes (a b : LabelMap) :
  (a.overlay b).Includes b
  := by
  intro key v h
  rw [value?_overlay, h, Option.some_or]

/-- A map is included in what lies over it exactly where both of them agree. -/
theorem overlay_includes_iff {a b : LabelMap} :
  (a.overlay b).Includes a ↔
    ∀ key v w, a.value? key = some v → b.value? key = some w → w = v
  := by
  constructor
  · intro h key v w ha hb
    have hkey := h key v ha
    rw [value?_overlay, hb, Option.some_or] at hkey
    exact Option.some.inj hkey
  · intro h key v ha
    rw [value?_overlay]
    cases hb : b.value? key with
    | none => exact ha
    | some w => rw [h key v w ha hb, Option.some_or]

end LabelMap

/-- What the labels of an installation's objects are, where custom labels may be asked for: the
keys are those of the selector and of the custom labels, which win, the selector is among them
where no custom label differs from it, and where dictionaries are held in memory that of the
custom labels stays as it is, whatever is done to the new labels afterwards. -/
structure Labelling (name : String) (custom : Option LabelMap) (full : LabelMap) : Prop where
  result : Labels.all ((custom.map LabelMap.value).getD .null) (.text name) = .ok full.labels
  keys : ∀ key, key ∈ full.keys ↔
    key ∈ [Labels.resourceLabel, Labels.installationLabel, Labels.appLabel] ∨
      key ∈ (custom.getD .empty).keys
  value : ∀ key, full.value? key =
    ((custom.getD .empty).value? key).or ((LabelMap.selector name).value? key)
  selected : full.labels.contains (Labels.selector (.text name)) ↔
    ∀ key own given, (LabelMap.selector name).value? key = some own →
      (custom.getD .empty).value? key = some given → given = own
  memory : ∀ (m : Memory (Key × Value)) (held : Option Address), (∀ a ∈ held, a < m.next) →
    held.map m.read = custom.map LabelMap.entries →
    (Labels.allAt held (.text name) m).read m.next = full.entries ∧
    ∀ a < m.next, (Labels.allAt held (.text name) m).read a = m.read a ∧
      ∀ label v, (Labels.putAt m.next label v (Labels.allAt held (.text name) m)).read a =
        m.read a

/-- The custom labels lie over the selector. -/
theorem exists_labelling (name : String) (custom : Option LabelMap) :
  ∃ full, Labelling name custom full
  := by
  have hresult : Labels.all ((custom.map LabelMap.value).getD .null) (.text name) =
      .ok ((LabelMap.selector name).overlay (custom.getD .empty)).labels := by
    rw [← LabelMap.labels_overlay]
    obtain _ | ⟨_ | _, _⟩ := custom <;> rfl
  use (LabelMap.selector name).overlay (custom.getD .empty)
  constructor
  · exact hresult
  · exact LabelMap.mem_keys_overlay _ _
  · exact LabelMap.value?_overlay _ _
  · rw [LabelMap.labels_selector, LabelMap.contains_iff]
    exact LabelMap.overlay_includes_iff
  · intro m held hheld hcustom
    have hvalue : (held.map fun a => Value.dict (m.read a)) = custom.map LabelMap.value := by
      have hdict := congrArg (Option.map Value.dict) hcustom
      rwa [Option.map_map, Option.map_map] at hdict
    obtain ⟨full, hfull, hwrites⟩ := Labels.allAt_writes hheld (.text name)
    rw [hvalue, hresult] at hfull
    obtain rfl := Except.ok.inj hfull
    constructor
    · exact hwrites.result
    · intro a ha
      have hne : a ≠ m.next := Nat.ne_of_lt ha
      have hframe := hwrites.frame a ha hne
      constructor
      · exact hframe
      · intro label v
        rw [Labels.read_putAt (Nat.lt_of_lt_of_le ha hwrites.grows) hne, hframe]

/-- The labels of an installation's objects are those of its selector with the custom ones on
top, and containment among labels is the inclusion of maps. -/
theorem labels_exact :
  (∀ (name : String) (custom : Option LabelMap), ∃ full, Labelling name custom full) ∧
  (∀ a b : LabelMap, a.labels.contains b.labels ↔ a.Includes b) ∧
  (∀ a : LabelMap, a.labels.contains a.labels) ∧
  (∀ a b c : LabelMap, a.labels.contains b.labels → b.labels.contains c.labels →
    a.labels.contains c.labels) ∧
  ∀ a b : LabelMap, ∃ updated, a.labels.update b.value = .ok updated ∧ updated.contains b.labels
  := by
  constructor
  · exact exists_labelling
  constructor
  · exact fun a b => LabelMap.contains_iff
  simp only [LabelMap.contains_iff]
  constructor
  · exact LabelMap.Includes.refl
  constructor
  · exact fun a b c => LabelMap.Includes.trans
  · intro a b
    use (a.overlay b).labels
    constructor
    · rw [← LabelMap.labels_overlay]
      rfl
    · rw [LabelMap.contains_iff]
      exact LabelMap.overlay_includes a b

/-- Custom labels of which one is a key of the selector. -/
def LabelMap.rebranded : LabelMap where
  pairs := [("team", "a"), (Labels.appLabel, "chat")]
  distinct := by simp [Labels.appLabel]

theorem labels_exact_rebranded :
  ∃ full, Labelling "team-a" (some .rebranded) full ∧
    full.value? Labels.appLabel = some "chat" ∧
    ¬ full.labels.contains (Labels.selector (.text "team-a"))
  := by
  obtain ⟨full, hfull⟩ := labels_exact.1 "team-a" (some .rebranded)
  have hown : (LabelMap.selector "team-a").value? Labels.appLabel = some Labels.appName := by
    decide
  have hgiven : LabelMap.rebranded.value? Labels.appLabel = some "chat" := by decide
  use full
  constructor
  · exact hfull
  constructor
  · exact hfull.value Labels.appLabel
  · rw [hfull.selected]
    intro h
    have heq : "chat" = Labels.appName := h _ _ _ hown hgiven
    contradiction

end Installation

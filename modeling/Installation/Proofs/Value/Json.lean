import Installation.Value.Equality
import Mathlib.Data.List.Nodup

/-!
# JSON values

The values that travel.  `Value.IsJson` singles them out: there are no tuples and no records
in them, and their dictionaries have texts as keys, none of them twice.  Such a dictionary is
`Value.object` of pairs whose names are distinct, and what it has under a name is found by a
look-up among the pairs.  `Value.jsonInduction` is the induction over JSON values.
-/

namespace Installation

namespace Key

/-- Only a text is the same as a text. -/
theorem text_beq_iff (s : String) (k : Key) :
  (Key.text s == k) = true ↔ k = .text s
  := by
  change same (.text s) k = true ↔ k = .text s
  cases k with
  | text t => simpa [same] using eq_comm
  | _ => simp [same, number?]

end Key

/-! ### Entries whose keys are texts -/

section Named

variable {α β : Type}

/-- Pairs as entries, the names being the keys. -/
def named (pairs : List (String × α)) : List (Key × α) :=
  pairs.map fun p => (.text p.1, p.2)

@[simp]
theorem named_nil :
  named ([] : List (String × α)) = []
  := rfl

@[simp]
theorem named_cons (p : String × α) (pairs : List (String × α)) :
  named (p :: pairs) = (.text p.1, p.2) :: named pairs
  := rfl

@[simp]
theorem named_append (pairs others : List (String × α)) :
  named (pairs ++ others) = named pairs ++ named others
  := List.map_append

@[simp]
theorem length_named (pairs : List (String × α)) :
  (named pairs).length = pairs.length
  := List.length_map _

@[simp]
theorem lookup_named (name : String) (pairs : List (String × α)) :
  (named pairs).lookup (.text name) = pairs.lookup name
  := by
  induction pairs with
  | nil => rfl
  | cons p rest ih =>
    obtain ⟨other, v⟩ := p
    simp [List.lookup_cons, ih]

@[simp]
theorem insert_named (name : String) (v : α) (pairs : List (String × α)) :
  Assoc.insert (.text name) v (named pairs) = named (Assoc.insert name v pairs)
  := by
  induction pairs with
  | nil => rfl
  | cons p rest ih =>
    simp only [named_cons, Assoc.insert, Key.beq_text, ih]
    split <;> rfl

@[simp]
theorem overlay_named (pairs others : List (String × α)) :
  Assoc.overlay (named pairs) (named others) = named (Assoc.overlay pairs others)
  := by
  induction others generalizing pairs with
  | nil => rfl
  | cons p rest ih => rw [named_cons, Assoc.overlay_cons, Assoc.overlay_cons, insert_named, ih]

/-- Entries with distinct names are the map that they give. -/
theorem ofPairs_named (pairs : List (String × α)) (distinct : (pairs.map Prod.fst).Nodup) :
  Assoc.ofPairs (named pairs) = named pairs
  := by
  change Assoc.overlay (named []) (named pairs) = named pairs
  rw [overlay_named]
  congr 1
  exact Assoc.ofPairs_of_nodup pairs distinct

theorem named_injective {pairs others : List (String × α)} (h : named pairs = named others) :
  pairs = others
  := by
  have hinj : Function.Injective fun p : String × α => (Key.text p.1, p.2) := by
    rintro ⟨name, v⟩ ⟨other, w⟩ heq
    simpa using heq
  exact List.map_injective_iff.mpr hinj h

/-- Entries whose keys are texts are named values. -/
theorem exists_named {entries : List (Key × α)} (h : ∀ e ∈ entries, ∃ name, e.1 = .text name) :
  ∃ pairs, entries = named pairs
  := by
  choose! name hname using h
  refine ⟨entries.map fun e => (name e, e.2), ?_⟩
  rw [named, List.map_map]
  conv_lhs => rw [← List.map_id entries]
  apply List.map_congr_left
  intro e he
  exact Prod.ext (hname e he) rfl

end Named

namespace Value

/-- The dictionary of named values. -/
def object (pairs : List (String × Value)) : Value := .dict (named pairs)

@[simp]
theorem entryAt?_named (name : String) (pairs : List (String × Value)) :
  entryAt? name (named pairs) = pairs.lookup name
  := lookup_named name pairs

theorem object_injective {pairs others : List (String × Value)}
    (h : object pairs = object others) :
  pairs = others
  := by
  apply named_injective
  simpa [object] using h

/-! ### The values that travel -/

mutual

/-- Whether a value is one that JSON has. -/
def IsJson : Value → Prop
  | .list vs => AreJson vs
  | .dict entries => (entries.map Prod.fst).Nodup ∧ HoldJson entries
  | .tuple _ => False
  | .record _ _ => False
  | _ => True

/-- Whether all values of a list are values that JSON has. -/
def AreJson : List Value → Prop
  | [] => True
  | v :: vs => IsJson v ∧ AreJson vs

/-- Whether entries have texts as keys, and values that JSON has. -/
def HoldJson : List (Key × Value) → Prop
  | [] => True
  | (k, v) :: entries => (∃ name, k = .text name) ∧ IsJson v ∧ HoldJson entries

end

theorem areJson_iff (vs : List Value) :
  AreJson vs ↔ ∀ v ∈ vs, IsJson v
  := by
  induction vs with
  | nil => simp [AreJson]
  | cons v vs ih => simp [AreJson, ih]

/-- Entries with texts as keys and values of JSON are those of named values of JSON. -/
theorem holdJson_iff (entries : List (Key × Value)) :
  HoldJson entries ↔ ∃ pairs, entries = named pairs ∧ ∀ p ∈ pairs, IsJson p.2
  := by
  induction entries with
  | nil =>
    simp only [HoldJson, true_iff]
    exact ⟨[], rfl, by simp⟩
  | cons e entries ih =>
    obtain ⟨k, v⟩ := e
    rw [HoldJson, ih]
    constructor
    · rintro ⟨⟨name, rfl⟩, hv, pairs, rfl, hpairs⟩
      refine ⟨(name, v) :: pairs, rfl, ?_⟩
      rintro p (_ | ⟨_, hp⟩)
      · exact hv
      · exact hpairs p hp
    · rintro ⟨pairs, heq, hpairs⟩
      cases pairs with
      | nil => simp at heq
      | cons p pairs =>
        obtain ⟨⟨rfl, rfl⟩, rfl⟩ := by simpa using heq
        exact ⟨⟨p.1, rfl⟩, hpairs p (by simp), pairs, rfl, fun q hq => hpairs q (by simp [hq])⟩

theorem isJson_list (vs : List Value) :
  IsJson (.list vs) ↔ ∀ v ∈ vs, IsJson v
  := by
  rw [IsJson, areJson_iff]

theorem nodup_named {α : Type} (pairs : List (String × α)) :
  ((named pairs).map Prod.fst).Nodup ↔ (pairs.map Prod.fst).Nodup
  := by
  have h : (named pairs).map Prod.fst = (pairs.map Prod.fst).map Key.text := by
    simp [named]
  rw [h]
  apply List.nodup_map_iff
  rintro s t ⟨⟩
  rfl

theorem isJson_object (pairs : List (String × Value)) :
  IsJson (object pairs) ↔ (pairs.map Prod.fst).Nodup ∧ ∀ p ∈ pairs, IsJson p.2
  := by
  rw [object, IsJson, nodup_named, holdJson_iff]
  constructor
  · rintro ⟨distinct, others, heq, hothers⟩
    rw [named_injective heq]
    exact ⟨named_injective heq ▸ distinct, hothers⟩
  · rintro ⟨distinct, hpairs⟩
    exact ⟨distinct, pairs, rfl, hpairs⟩

/-- A dictionary of JSON is that of named values. -/
theorem IsJson.exists_object {entries : List (Key × Value)} (h : IsJson (.dict entries)) :
  ∃ pairs, entries = named pairs
  := by
  obtain ⟨pairs, heq, -⟩ := (holdJson_iff entries).mp h.2
  exact ⟨pairs, heq⟩

section Induction

variable {motive : (v : Value) → IsJson v → Prop}
  (onNull : motive .null trivial) (onBool : ∀ b, motive (.bool b) trivial)
  (onInt : ∀ i, motive (.int i) trivial) (onFloat : ∀ x, motive (.float x) trivial)
  (onText : ∀ s, motive (.text s) trivial)
  (onList : ∀ vs (h : ∀ v ∈ vs, IsJson v), (∀ v (hv : v ∈ vs), motive v (h v hv)) →
    motive (.list vs) ((isJson_list vs).mpr h))
  (onObject : ∀ pairs (distinct : (pairs.map Prod.fst).Nodup) (h : ∀ p ∈ pairs, IsJson p.2),
    (∀ p (hp : p ∈ pairs), motive p.2 (h p hp)) →
    motive (object pairs) ((isJson_object pairs).mpr ⟨distinct, h⟩))

include onNull onBool onInt onFloat onText onList onObject

/-- Induction over JSON values: the scalars, the lists and the dictionaries of named
values. -/
@[elab_as_elim]
theorem jsonInduction (v : Value) (h : IsJson v) :
  motive v h
  :=
  match v with
  | .null => onNull
  | .bool b => onBool b
  | .int i => onInt i
  | .float x => onFloat x
  | .text s => onText s
  | .list vs => onList vs ((isJson_list vs).mp h) fun v hv => jsonInduction v _
  | .dict entries => by
    have hentries : ∀ e ∈ entries, ∀ he : IsJson e.2, motive e.2 he :=
      fun e hmem => jsonInduction e.2
    obtain ⟨pairs, rfl⟩ := h.exists_object
    obtain ⟨distinct, hpairs⟩ := (isJson_object pairs).mp h
    apply onObject pairs distinct hpairs
    intro p hp
    exact hentries (.text p.1, p.2) (List.mem_map_of_mem hp) (hpairs p hp)
termination_by sizeOf v
decreasing_by
  · have := List.sizeOf_lt_of_mem hv
    simp only [list.sizeOf_spec]
    omega
  · have := List.sizeOf_lt_of_mem hmem
    obtain ⟨k, v⟩ := e
    simp only [dict.sizeOf_spec, Prod.mk.sizeOf_spec] at this ⊢
    omega

end Induction

end Value

end Installation

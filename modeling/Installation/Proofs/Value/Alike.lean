import Installation.Proofs.Value.Json
import Installation.Value.Literal
import Mathlib.Data.List.Perm.Basic

/-!
# Values up to the order of their keys

`Value.Alike` relates values that differ at most in the order of the entries of their
dictionaries, at every level.  Numbers that are written the same count as the same number, so
that all numbers that denote no point are alike.
-/

namespace Installation

namespace Value

mutual

/-- Values that differ at most in the order of the entries of dictionaries. -/
inductive Alike : Value → Value → Prop
  | null : Alike .null .null
  | bool (b : Bool) : Alike (.bool b) (.bool b)
  | int (i : Int) : Alike (.int i) (.int i)
  | float {x y : Binary64} (h : x.write literalNumbers = y.write literalNumbers) :
    Alike (.float x) (.float y)
  | text (s : String) : Alike (.text s) (.text s)
  | list {vs ws : List Value} (h : AllAlike vs ws) : Alike (.list vs) (.list ws)
  | dict {es fs gs : List (Key × Value)} (h : EntriesAlike es fs) (p : fs.Perm gs) :
    Alike (.dict es) (.dict gs)

/-- Lists of values that are alike one by one. -/
inductive AllAlike : List Value → List Value → Prop
  | nil : AllAlike [] []
  | cons {v w : Value} {vs ws : List Value} (h : Alike v w) (hs : AllAlike vs ws) :
    AllAlike (v :: vs) (w :: ws)

/-- Entries under the same keys, one by one, with values that are alike. -/
inductive EntriesAlike : List (Key × Value) → List (Key × Value) → Prop
  | nil : EntriesAlike [] []
  | cons (k : Key) {v w : Value} {es fs : List (Key × Value)} (h : Alike v w)
    (hs : EntriesAlike es fs) : EntriesAlike ((k, v) :: es) ((k, w) :: fs)

end

/-- Named values under the same names, one by one, with values that are alike. -/
def PairsAlike : List (String × Value) → List (String × Value) → Prop :=
  List.Forall₂ fun p q => p.1 = q.1 ∧ Alike p.2 q.2

theorem allAlike_iff {vs ws : List Value} :
  AllAlike vs ws ↔ List.Forall₂ Alike vs ws
  := by
  constructor
  · intro h
    induction vs generalizing ws with
    | nil =>
      cases h
      exact .nil
    | cons v vs ih =>
      cases h with
      | cons h hs => exact .cons h (ih hs)
  · intro h
    induction h with
    | nil => exact .nil
    | cons h _ ih => exact .cons h ih

theorem entriesAlike_named {pairs : List (String × Value)} {es : List (Key × Value)} :
  EntriesAlike (named pairs) es ↔ ∃ others, es = named others ∧ PairsAlike pairs others
  := by
  induction pairs generalizing es with
  | nil =>
    constructor
    · rintro ⟨⟩
      exact ⟨[], rfl, .nil⟩
    · rintro ⟨others, rfl, ⟨⟩⟩
      exact .nil
  | cons p pairs ih =>
    constructor
    · intro h
      cases h with
      | @cons _ _ w _ _ h hs =>
        obtain ⟨others, rfl, hpairs⟩ := ih.mp hs
        exact ⟨(p.1, w) :: others, rfl, .cons ⟨rfl, h⟩ hpairs⟩
    · rintro ⟨others, rfl, h⟩
      cases h with
      | cons h hpairs =>
        rw [named_cons, named_cons, ← h.1]
        exact .cons _ h.2 (ih.mpr ⟨_, rfl, hpairs⟩)

theorem perm_named {pairs : List (String × Value)} {es : List (Key × Value)}
    (h : (named pairs).Perm es) :
  ∃ others, es = named others ∧ pairs.Perm others
  := by
  have hinj : Function.Injective fun p : String × Value => (Key.text p.1, p.2) := by
    rintro ⟨name, v⟩ ⟨other, w⟩ heq
    simpa using heq
  have hall : ∀ e ∈ es, ∃ p : String × Value, (Key.text p.1, p.2) = e := by
    intro e he
    obtain ⟨p, -, hp⟩ := List.mem_map.mp (h.mem_iff.mpr he)
    exact ⟨p, hp⟩
  obtain ⟨others, rfl⟩ : ∃ others, es = named others := by
    clear h
    induction es with
    | nil => exact ⟨[], rfl⟩
    | cons e es ih =>
      obtain ⟨p, hp⟩ := hall e (by simp)
      obtain ⟨others, rfl⟩ := ih fun f hf => hall f (by simp [hf])
      exact ⟨p :: others, by rw [named_cons, hp]⟩
  exact ⟨others, rfl, (List.map_perm_map_iff hinj).mp h⟩

/-- What is alike to the dictionary of named values. -/
theorem alike_object {pairs : List (String × Value)} {w : Value} :
  Alike (object pairs) w ↔
    ∃ others swapped, w = object swapped ∧ PairsAlike pairs others ∧ others.Perm swapped
  := by
  constructor
  · intro h
    cases h with
    | dict h p =>
      obtain ⟨others, rfl, hpairs⟩ := entriesAlike_named.mp h
      obtain ⟨swapped, rfl, hperm⟩ := perm_named p
      exact ⟨others, swapped, rfl, hpairs, hperm⟩
  · rintro ⟨others, swapped, rfl, hpairs, hperm⟩
    exact .dict (entriesAlike_named.mpr ⟨others, rfl, hpairs⟩) (hperm.map _)

/-- Named values that are alike one by one have the same names. -/
theorem PairsAlike.names_eq {pairs others : List (String × Value)}
    (h : PairsAlike pairs others) :
  pairs.map Prod.fst = others.map Prod.fst
  := by
  induction h with
  | nil => rfl
  | cons h _ ih => rw [List.map_cons, List.map_cons, h.1, ih]

end Value

end Installation

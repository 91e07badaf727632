import Installation.Proofs.Value.Same

/-!
# Values without repeated keys

In a `Value.Sound` value no dictionary has a key twice and no record an attribute, at any depth.
JSON values are sound.  A sound value is the same as itself, whatever its numbers, tuples and
records: `Value.same_self`.  It stays sound without its nulls.
-/

namespace Installation

namespace Key

mutual

/-- Every key is the same as itself. -/
theorem same_self : (k : Key) → k.same k = true
  | .null => by simp [same]
  | .text s => by simp [same]
  | .tuple ks => by
    rw [same]
    exact sameAll_self ks
  | .bool b => by simp [same, number?, Extended.same_refl]
  | .int i => by simp [same, number?, Extended.same_refl]
  | .float (.nan payload) => by simp [same]
  | .float (.infinite negative) => by
    cases negative <;> simp [same, number?, Binary64.extended?, Extended.same_refl]
  | .float (.finite negative m q reduced) => by
    simp [same, number?, Binary64.extended?, Extended.same_refl]

theorem sameAll_self : (ks : List Key) → sameAll ks ks = true
  | [] => by rw [sameAll]
  | k :: ks => by rw [sameAll, same_self k, sameAll_self ks, Bool.and_self]

end

end Key

namespace Value

mutual

/-- Whether no dictionary in a value has a key twice, and no record an attribute. -/
def Sound : Value → Prop
  | .list vs => AllSound vs
  | .tuple vs => AllSound vs
  | .dict entries =>
    (entries.Pairwise fun e f => f.1.same e.1 = false) ∧ EntriesSound entries
  | .record _ attrs => (attrs.map Prod.fst).Nodup ∧ AttrsSound attrs
  | _ => True

/-- Whether all values of a list are sound. -/
def AllSound : List Value → Prop
  | [] => True
  | v :: vs => Sound v ∧ AllSound vs

/-- Whether the values of all entries are sound. -/
def EntriesSound : List (Key × Value) → Prop
  | [] => True
  | (_, v) :: entries => Sound v ∧ EntriesSound entries

/-- Whether the values of all attributes are sound. -/
def AttrsSound : List (String × Value) → Prop
  | [] => True
  | (_, v) :: attrs => Sound v ∧ AttrsSound attrs

end

theorem allSound_iff {vs : List Value} :
  AllSound vs ↔ ∀ v ∈ vs, v.Sound
  := by
  induction vs with
  | nil => simp [AllSound]
  | cons v vs ih => rw [AllSound, ih, List.forall_mem_cons]

theorem entriesSound_iff {entries : List (Key × Value)} :
  EntriesSound entries ↔ ∀ e ∈ entries, e.2.Sound
  := by
  induction entries with
  | nil => simp [EntriesSound]
  | cons e entries ih => rw [EntriesSound, ih, List.forall_mem_cons]

theorem attrsSound_iff {attrs : List (String × Value)} :
  AttrsSound attrs ↔ ∀ p ∈ attrs, p.2.Sound
  := by
  induction attrs with
  | nil => simp [AttrsSound]
  | cons p attrs ih => rw [AttrsSound, ih, List.forall_mem_cons]

theorem sound_object {pairs : List (String × Value)} :
  (object pairs).Sound ↔ (pairs.map Prod.fst).Nodup ∧ ∀ p ∈ pairs, p.2.Sound
  := by
  rw [object, Sound, entriesSound_iff, named, List.forall_mem_map, List.pairwise_map,
    List.Nodup, List.pairwise_map]
  refine and_congr_left fun _ => ?_
  constructor
  · refine List.Pairwise.imp fun {p q} h heq => ?_
    rw [heq, Key.same_self] at h
    contradiction
  · refine List.Pairwise.imp fun {p q} h => ?_
    have hkey : (Key.text q.1).same (.text p.1) = (q.1 == p.1) := Key.beq_text q.1 p.1
    rw [hkey]
    simpa using Ne.symm h

/-- JSON values are sound. -/
theorem IsJson.sound {v : Value} (h : IsJson v) :
  v.Sound
  := by
  induction v, h using jsonInduction with
  | onNull | onBool | onInt | onFloat | onText => trivial
  | onList vs h ih =>
    rw [Sound, allSound_iff]
    exact ih
  | onObject pairs distinct h ih => exact sound_object.mpr ⟨distinct, ih⟩

/-- An entry is found under its key where no other entry has the key. -/
theorem find?_key {entries : List (Key × Value)}
    (distinct : entries.Pairwise fun e f => f.1.same e.1 = false) {e : Key × Value}
    (he : e ∈ entries) :
  entries.find? (fun f => e.1.same f.1) = some e
  := by
  induction distinct with
  | nil => simp at he
  | @cons first rest hnew hrest ih =>
    obtain rfl | hlater := List.mem_cons.mp he
    · exact List.find?_cons_of_pos (Key.same_self _)
    · rw [List.find?_cons_of_neg (by simp [hnew e hlater]), ih hlater]

theorem sameEntries_of_found {entries others : List (Key × Value)}
    (h : ∀ e ∈ entries, ∃ f, others.find? (fun f => e.1.same f.1) = some f ∧
      e.2.same f.2 = true) :
  sameEntries entries others = true
  := by
  induction entries with
  | nil => rw [sameEntries]
  | cons e entries ih =>
    rw [List.forall_mem_cons] at h
    obtain ⟨⟨f, hf, hsame⟩, hrest⟩ := h
    rw [sameEntries, hf, Bool.and_eq_true]
    exact ⟨hsame, ih hrest⟩

mutual

/-- A sound value is the same as itself. -/
theorem same_self : (v : Value) → v.Sound → v.same v = true
  | .list vs, h => by
    rw [same, sameAll_iff, List.forall₂_same]
    exact all_same_self vs h
  | .tuple vs, h => by
    rw [same, sameAll_iff, List.forall₂_same]
    exact all_same_self vs h
  | .dict entries, h => by
    obtain ⟨distinct, hentries⟩ := h
    have hsame := entries_same_self entries hentries
    rw [same, beq_self_eq_true, Bool.true_and]
    exact sameEntries_of_found fun e he => ⟨e, find?_key distinct he, hsame e he⟩
  | .record _ attrs, h => same_record_self h.1 (attrs_same_self attrs h.2)
  | .null, _ | .bool _, _ | .int _, _ | .float _, _ | .text _, _ => same_refl trivial

theorem all_same_self : (vs : List Value) → AllSound vs → ∀ v ∈ vs, v.same v = true
  | [], _ => by simp
  | v :: vs, h => List.forall_mem_cons.mpr ⟨same_self v h.1, all_same_self vs h.2⟩

theorem entries_same_self :
    (entries : List (Key × Value)) → EntriesSound entries → ∀ e ∈ entries, e.2.same e.2 = true
  | [], _ => by simp
  | (_, v) :: entries, h =>
    List.forall_mem_cons.mpr ⟨same_self v h.1, entries_same_self entries h.2⟩

theorem attrs_same_self :
    (attrs : List (String × Value)) → AttrsSound attrs → ∀ p ∈ attrs, p.2.same p.2 = true
  | [], _ => by simp
  | (_, v) :: attrs, h => List.forall_mem_cons.mpr ⟨same_self v h.1, attrs_same_self attrs h.2⟩

end

/-! ### Without nulls -/

/-- The keys that are left are among those that were there. -/
theorem map_fst_dropNullEntries_sublist (entries : List (Key × Value)) :
  ((dropNullEntries entries).map Prod.fst).Sublist (entries.map Prod.fst)
  := by
  induction entries with
  | nil => exact .slnil
  | cons e entries ih =>
    rw [dropNullEntries]
    split
    · exact ih.cons _
    · exact ih.cons_cons _

mutual

/-- A sound value is sound without its nulls. -/
theorem sound_dropNulls : (v : Value) → v.Sound → v.dropNulls.Sound
  | .dict entries, h => by
    obtain ⟨distinct, hentries⟩ := h
    rw [dropNulls, Sound]
    refine ⟨?_, entriesSound_dropNulls entries hentries⟩
    have hkeys : (entries.map Prod.fst).Pairwise fun k l => l.same k = false :=
      List.pairwise_map.mpr distinct
    exact List.pairwise_map.mp (hkeys.sublist (map_fst_dropNullEntries_sublist entries))
  | .list vs, h => by
    rw [dropNulls, Sound]
    exact allSound_dropNulls vs h
  | .null, h | .bool _, h | .int _, h | .float _, h | .text _, h | .tuple _, h
  | .record _ _, h => by
    rw [dropNulls]
    · exact h
    all_goals simp

theorem allSound_dropNulls : (vs : List Value) → AllSound vs → AllSound (dropNullsAll vs)
  | [], _ => by
    rw [dropNullsAll]
    trivial
  | v :: vs, h => by
    rw [dropNullsAll]
    exact ⟨sound_dropNulls v h.1, allSound_dropNulls vs h.2⟩

theorem entriesSound_dropNulls :
    (entries : List (Key × Value)) → EntriesSound entries → EntriesSound (dropNullEntries entries)
  | [], _ => by
    rw [dropNullEntries]
    trivial
  | (_, v) :: entries, h => by
    rw [dropNullEntries]
    split
    · exact entriesSound_dropNulls entries h.2
    · exact ⟨sound_dropNulls v h.1, entriesSound_dropNulls entries h.2⟩

end

end Value

end Installation

import Installation.Association
import Mathlib.Data.List.Nodup

/-!
# Insertions and look-ups

What is in an association list after insertions, and what look-ups find in overlaid, mapped and
filtered ones.  Keys that are distinct stay distinct.
-/

namespace Installation

namespace Assoc

variable {α β : Type} [BEq α] [LawfulBEq α]

/-- A pair has another key than one that no pair has. -/
theorem beq_of_not_mem {k : α} {p : α × β} {pairs : List (α × β)}
    (h : k ∉ pairs.map Prod.fst) (hp : p ∈ pairs) :
  (p.1 == k) = false
  := by
  have hne : p.1 ≠ k := by
    rintro rfl
    exact h (List.mem_map_of_mem hp)
  simpa using hne

/-- A value that is put at a key that is there takes the place of the old one. -/
theorem insert_of_mem {k : α} (v : β) {base : List (α × β)} (h : k ∈ base.map Prod.fst)
    (distinct : (base.map Prod.fst).Nodup) :
  insert k v base = base.map fun p => if p.1 == k then (p.1, v) else p
  := by
  induction base with
  | nil => simp at h
  | cons p rest ih =>
    rw [List.map_cons, List.nodup_cons] at distinct
    obtain ⟨hp, hrest⟩ := distinct
    rw [insert, List.map_cons]
    by_cases hk : k = p.1
    · subst hk
      have hsame : (rest.map fun q => if q.1 == p.1 then (q.1, v) else q) = rest := by
        conv_rhs => rw [← List.map_id rest]
        apply List.map_congr_left
        intro q hq
        rw [beq_of_not_mem hp hq]
        rfl
      simp [hsame]
    · rw [List.map_cons, List.mem_cons] at h
      rw [if_neg (by simpa using hk), if_neg (by simpa using Ne.symm hk),
        ih (h.resolve_left hk) hrest]

/-- The keys after a value was put at one of them. -/
theorem map_fst_insert_of_mem {k : α} (v : β) {base : List (α × β)}
    (h : k ∈ base.map Prod.fst) :
  (insert k v base).map Prod.fst = base.map Prod.fst
  := by
  induction base with
  | nil => simp at h
  | cons p rest ih =>
    rw [insert]
    by_cases hk : k = p.1
    · subst hk
      simp
    · rw [List.map_cons, List.mem_cons] at h
      rw [if_neg (by simpa using hk), List.map_cons, List.map_cons, ih (h.resolve_left hk)]

/-- To put a value at a key where it already is changes nothing. -/
theorem insert_of_lookup {k : α} {v : β} {base : List (α × β)} (h : base.lookup k = some v) :
  insert k v base = base
  := by
  induction base with
  | nil => simp at h
  | cons p rest ih =>
    obtain ⟨other, w⟩ := p
    rw [insert]
    by_cases hk : k = other
    · subst hk
      obtain rfl : w = v := by simpa using h
      simp
    · have hne : (k == other) = false := by simpa using hk
      rw [List.lookup_cons, hne] at h
      rw [hne, ih h]
      rfl

/-- The second of two values that are put at a key takes the place of the first. -/
theorem insert_insert (k : α) (v w : β) (base : List (α × β)) :
  insert k w (insert k v base) = insert k w base
  := by
  induction base with
  | nil => simp [insert]
  | cons p rest ih =>
    obtain ⟨other, x⟩ := p
    rw [insert]
    split
    · rename_i heq
      simp [insert, heq]
    · rename_i hne
      rw [insert, insert, if_neg hne, if_neg hne, ih]

omit [LawfulBEq α] in
/-- What is put at a key can be told from the result. -/
theorem insert_right_injective {k : α} {v w : β} {base : List (α × β)}
    (h : insert k v base = insert k w base) :
  v = w
  := by
  induction base with
  | nil => simpa using h
  | cons p rest ih =>
    rw [insert, insert] at h
    split at h
    · simpa using h
    · exact ih (List.cons.inj h).2

/-- Values are put at two keys in either order, if one of them is there already. -/
theorem insert_comm_of_mem {j k : α} (v w : β) {base : List (α × β)} (hne : k ≠ j)
    (h : k ∈ base.map Prod.fst) :
  insert k w (insert j v base) = insert j v (insert k w base)
  := by
  induction base with
  | nil => simp at h
  | cons p rest ih =>
    obtain ⟨other, x⟩ := p
    by_cases hk : k = other
    · subst hk
      have hj : (j == k) = false := by simpa using hne.symm
      simp [insert, hj]
    · have hk' : (k == other) = false := by simpa using hk
      rw [List.map_cons, List.mem_cons] at h
      have hrest := ih (h.resolve_left hk)
      by_cases hj : j = other
      · subst hj
        simp [insert, hk']
      · have hj' : (j == other) = false := by simpa using hj
        simp [insert, hk', hj', hrest]

/-- The keys after a value was put at one of them, if it is there. -/
theorem mem_map_fst_insert {j k : α} (v : β) (base : List (α × β)) :
  j ∈ (insert k v base).map Prod.fst ↔ j = k ∨ j ∈ base.map Prod.fst
  := by
  by_cases h : k ∈ base.map Prod.fst
  · rw [map_fst_insert_of_mem v h]
    constructor
    · exact .inr
    · rintro (rfl | hj)
      · exact h
      · exact hj
  · rw [insert_of_not_mem v h]
    simp [or_comm]

/-- What is found after an insertion was inserted or was there before. -/
theorem mem_insert {k : α} {v : β} {p : α × β} {base : List (α × β)}
    (h : p ∈ insert k v base) :
  p = (k, v) ∨ p ∈ base
  := by
  induction base with
  | nil => simpa using h
  | cons q rest ih =>
    obtain ⟨other, w⟩ := q
    rw [insert] at h
    split at h
    · rename_i heq
      obtain rfl := eq_of_beq heq
      rw [List.mem_cons] at h
      exact h.imp_right (List.mem_cons_of_mem _)
    · rw [List.mem_cons] at h
      obtain rfl | hrest := h
      · exact .inr (List.mem_cons_self ..)
      · exact (ih hrest).imp_right (List.mem_cons_of_mem _)

theorem nodup_insert (k : α) (v : β) {base : List (α × β)}
    (distinct : (base.map Prod.fst).Nodup) :
  ((insert k v base).map Prod.fst).Nodup
  := by
  by_cases h : k ∈ base.map Prod.fst
  · rw [map_fst_insert_of_mem v h]
    exact distinct
  · rw [insert_of_not_mem v h, List.map_append, List.nodup_append]
    refine ⟨distinct, by simp, ?_⟩
    rintro j hj l hl rfl
    rw [List.map_singleton, List.mem_singleton] at hl
    rw [hl] at hj
    exact h hj

theorem nodup_overlay {base : List (α × β)} (distinct : (base.map Prod.fst).Nodup)
    (pairs : List (α × β)) :
  ((overlay base pairs).map Prod.fst).Nodup
  := by
  induction pairs generalizing base with
  | nil => exact distinct
  | cons p rest ih => exact ih (nodup_insert p.1 p.2 distinct)

/-- A look-up of a key that was not inserted. -/
theorem lookup_overlay_of_not_mem {k : α} {pairs : List (α × β)} (base : List (α × β))
    (h : k ∉ pairs.map Prod.fst) :
  (overlay base pairs).lookup k = base.lookup k
  := by
  induction pairs generalizing base with
  | nil => rfl
  | cons p rest ih =>
    rw [List.map_cons, List.mem_cons, not_or] at h
    have hne : (k == p.1) = false := by simpa using h.1
    rw [overlay_cons, ih _ h.2, lookup_insert, hne]
    rfl

/-- A look-up finds what was inserted first of all. -/
theorem lookup_overlay {k : α} {pairs : List (α × β)} (base : List (α × β))
    (distinct : (pairs.map Prod.fst).Nodup) :
  (overlay base pairs).lookup k = (pairs.lookup k).or (base.lookup k)
  := by
  induction pairs generalizing base with
  | nil => rfl
  | cons p rest ih =>
    rw [List.map_cons, List.nodup_cons] at distinct
    rw [overlay_cons, ih _ distinct.2, lookup_insert, List.lookup_cons]
    by_cases hk : k = p.1
    · subst hk
      rw [lookup_eq_none.mpr distinct.1]
      simp
    · have hne : (k == p.1) = false := by simpa using hk
      rw [hne]
      rfl

/-- A look-up among pairs of which one is in their midst. -/
theorem lookup_middle {front back : List (α × β)} {k : α}
    (hnew : k ∉ (front ++ back).map Prod.fst) (v : β) (j : α) :
  (front ++ (k, v) :: back).lookup j = if j == k then some v else (front ++ back).lookup j
  := by
  rw [List.map_append, List.mem_append, not_or] at hnew
  rw [List.lookup_append, List.lookup_append, List.lookup_cons]
  by_cases hj : j = k
  · subst hj
    simp [lookup_eq_none.mpr hnew.1]
  · have hne : (j == k) = false := by simpa using hj
    rw [hne]
    rfl

/-- A look-up among values that are given for each of some things under distinct keys. -/
theorem lookup_map {γ : Type} {key : γ → α} {value : γ → β} {xs : List γ}
    (distinct : (xs.map key).Nodup) {x : γ} (hx : x ∈ xs) :
  (xs.map fun x => (key x, value x)).lookup (key x) = some (value x)
  := by
  apply lookup_of_mem
  · rw [List.map_map]
    exact distinct
  · exact List.mem_map_of_mem hx

/-- A look-up among the pairs that are kept. -/
theorem lookup_filter {k : α} {pairs : List (α × β)} (keep : α × β → Bool)
    (distinct : (pairs.map Prod.fst).Nodup) :
  (pairs.filter keep).lookup k = (pairs.lookup k).filter fun v => keep (k, v)
  := by
  induction pairs with
  | nil => rfl
  | cons p pairs ih =>
    obtain ⟨other, v⟩ := p
    rw [List.map_cons, List.nodup_cons] at distinct
    obtain ⟨hother, hrest⟩ := distinct
    rw [List.filter_cons, List.lookup_cons]
    by_cases hk : k = other
    · subst hk
      have hnone : (pairs.filter keep).lookup k = none := by
        rw [ih hrest, lookup_eq_none.mpr hother]
        rfl
      rw [beq_self_eq_true]
      split
      · rename_i hkeep
        simp [Option.filter, hkeep]
      · rename_i hkeep
        simp [Option.filter, hkeep, hnone]
    · have hne : (k == other) = false := by simpa using hk
      split
      · rw [List.lookup_cons, hne, ih hrest]
      · rw [hne, ih hrest]

/-- The keys of overlaid pairs. -/
theorem mem_map_fst_overlay {k : α} (base pairs : List (α × β)) :
  k ∈ (overlay base pairs).map Prod.fst ↔ k ∈ base.map Prod.fst ∨ k ∈ pairs.map Prod.fst
  := by
  induction pairs generalizing base with
  | nil => simp
  | cons p rest ih =>
    rw [overlay_cons, ih, mem_map_fst_insert, List.map_cons, List.mem_cons]
    tauto

section MapSnd

variable {γ : Type} (f : β → γ)

omit [LawfulBEq α] in
theorem lookup_mapSnd (k : α) (pairs : List (α × β)) :
  (pairs.map fun p => (p.1, f p.2)).lookup k = (pairs.lookup k).map f
  := by
  induction pairs with
  | nil => rfl
  | cons p rest ih =>
    rw [List.map_cons, List.lookup_cons, List.lookup_cons, ih]
    cases k == p.1 <;> rfl

omit [LawfulBEq α] in
theorem insert_mapSnd (k : α) (v : β) (base : List (α × β)) :
  insert k (f v) (base.map fun p => (p.1, f p.2)) =
    (insert k v base).map fun p => (p.1, f p.2)
  := by
  induction base with
  | nil => rfl
  | cons p rest ih =>
    rw [List.map_cons, insert, insert, ih]
    cases k == p.1 <;> rfl

omit [LawfulBEq α] in
theorem overlay_mapSnd (base pairs : List (α × β)) :
  overlay (base.map fun p => (p.1, f p.2)) (pairs.map fun p => (p.1, f p.2)) =
    (overlay base pairs).map fun p => (p.1, f p.2)
  := by
  induction pairs generalizing base with
  | nil => rfl
  | cons p rest ih => rw [List.map_cons, overlay_cons, overlay_cons, ← ih, ← insert_mapSnd]

end MapSnd

end Assoc

end Installation

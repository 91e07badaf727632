/-!
# Association lists

Maps that remember the order in which their keys came in.  `Assoc.insert` puts a value at
a key: a key that is there already keeps its place and its spelling and takes the new
value, a new key comes last.  `Assoc.overlay` inserts the pairs of a second list into a
first one, one after the other.
-/

namespace Installation

namespace Assoc

variable {α β : Type} [BEq α]

/-- Put a value at a key. -/
def insert (k : α) (v : β) : List (α × β) → List (α × β)
  | [] => [(k, v)]
  | (k', v') :: rest => if k == k' then (k', v) :: rest else (k', v') :: insert k v rest

/-- Insert the pairs of the second list into the first. -/
def overlay (base : List (α × β)) (pairs : List (α × β)) : List (α × β) :=
  pairs.foldl (fun acc (k, v) => insert k v acc) base

/-- The map with the given pairs, of which later ones win. -/
def ofPairs (pairs : List (α × β)) : List (α × β) := overlay [] pairs

@[simp]
theorem insert_nil (k : α) (v : β) :
  insert k v [] = [(k, v)]
  := rfl

@[simp]
theorem overlay_nil (base : List (α × β)) :
  overlay base [] = base
  := rfl

@[simp]
theorem overlay_cons (base : List (α × β)) (p : α × β) (pairs : List (α × β)) :
  overlay base (p :: pairs) = overlay (insert p.1 p.2 base) pairs
  := rfl

theorem overlay_append (base xs ys : List (α × β)) :
  overlay base (xs ++ ys) = overlay (overlay base xs) ys
  := by
  simp [overlay, List.foldl_append]

/-- A look-up after an insertion finds the new value at its key and the old ones
elsewhere. -/
theorem lookup_insert [LawfulBEq α] (j k : α) (v : β) (base : List (α × β)) :
  (insert k v base).lookup j = if j == k then some v else base.lookup j
  := by
  induction base with
  | nil =>
    simp only [insert, List.lookup_cons, List.lookup_nil]
    split <;> simp_all
  | cons p rest ih =>
    obtain ⟨k', v'⟩ := p
    simp only [insert]
    split
    · rename_i h
      obtain rfl : k = k' := by simpa using h
      simp only [List.lookup_cons]
      split <;> simp_all
    · rename_i h
      simp only [List.lookup_cons, ih]
      split
      · rename_i hj
        obtain rfl : j = k' := by simpa using hj
        rw [if_neg]
        simpa [BEq.comm] using h
      · rfl

/-- What a look-up finds is in the list. -/
theorem mem_of_lookup [LawfulBEq α] {k : α} {v : β} {pairs : List (α × β)}
    (h : pairs.lookup k = some v) :
  (k, v) ∈ pairs
  := by
  obtain ⟨before, after, rfl, -⟩ := List.lookup_eq_some_iff.mp h
  simp

/-- Where keys are not repeated, a look-up finds every pair. -/
theorem lookup_of_mem [LawfulBEq α] {k : α} {v : β} {pairs : List (α × β)}
    (distinct : (pairs.map Prod.fst).Nodup) (h : (k, v) ∈ pairs) :
  pairs.lookup k = some v
  := by
  obtain ⟨before, after, rfl⟩ := List.append_of_mem h
  rw [List.lookup_eq_some_iff]
  refine ⟨before, after, rfl, ?_⟩
  intro p hp
  rw [List.map_append, List.nodup_append] at distinct
  obtain ⟨-, -, apart⟩ := distinct
  have hne := apart p.1 (List.mem_map_of_mem hp) k (by simp)
  simpa using hne.symm

/-- A look-up finds nothing exactly where no pair has the key. -/
theorem lookup_eq_none [LawfulBEq α] {k : α} {pairs : List (α × β)} :
  pairs.lookup k = none ↔ k ∉ pairs.map Prod.fst
  := by
  rw [List.lookup_eq_none_iff]
  constructor
  · intro h hmem
    obtain ⟨p, hp, rfl⟩ := List.mem_map.mp hmem
    simpa using h p hp
  · intro h p hp
    have hne : k ≠ p.1 := by
      rintro rfl
      exact h (List.mem_map_of_mem hp)
    simpa using hne

/-- A key that is new comes last. -/
theorem insert_of_not_mem [LawfulBEq α] {k : α} (v : β) {base : List (α × β)}
    (h : k ∉ base.map Prod.fst) :
  insert k v base = base ++ [(k, v)]
  := by
  induction base with
  | nil => rfl
  | cons p rest ih =>
    rw [List.map_cons, List.mem_cons, not_or] at h
    obtain ⟨hne, hrest⟩ := h
    rw [insert, if_neg (by simpa using hne), ih hrest]
    rfl

/-- Pairs whose keys are new come after those that are there. -/
theorem overlay_of_nodup [LawfulBEq α] (base pairs : List (α × β))
    (distinct : ((base ++ pairs).map Prod.fst).Nodup) :
  overlay base pairs = base ++ pairs
  := by
  induction pairs generalizing base with
  | nil => simp
  | cons p rest ih =>
    have hnew : p.1 ∉ base.map Prod.fst := by
      intro hmem
      rw [List.map_append, List.nodup_append] at distinct
      exact distinct.2.2 p.1 hmem p.1 (by simp) rfl
    rw [overlay_cons, insert_of_not_mem p.2 hnew, ih]
    · simp
    · simpa using distinct

/-- Pairs without repeated keys are the map that they give. -/
theorem ofPairs_of_nodup [LawfulBEq α] (pairs : List (α × β))
    (distinct : (pairs.map Prod.fst).Nodup) :
  ofPairs pairs = pairs
  := overlay_of_nodup [] pairs distinct

end Assoc

end Installation

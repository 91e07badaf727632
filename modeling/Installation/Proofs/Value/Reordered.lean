import Installation.Proofs.Value.Ordered
import Installation.Proofs.Value.Same

/-!
# Values that differ in the order of names

Two JSON values are `Value.Reordered` when sorting the names of all of their dictionaries gives
the same value: lists keep their order, and dictionaries have the same names with reordered
values, `reordered_object`.  Most of what is asked of a value can as well be asked of the value
with its names sorted, and then reordered values give the same answers: what they have under a
name, whether they are the same as others, what is left of them without nulls.
-/

namespace Installation

/-- A look-up among distinct names finds the same in every order. -/
theorem Assoc.lookup_of_perm {α β : Type} [BEq α] [LawfulBEq α] {pairs others : List (α × β)}
    (distinct : (pairs.map Prod.fst).Nodup) (perm : pairs.Perm others) (name : α) :
  others.lookup name = pairs.lookup name
  := by
  have distinct' : (others.map Prod.fst).Nodup := (perm.map Prod.fst).nodup_iff.mp distinct
  cases hfound : pairs.lookup name with
  | none =>
    rw [lookup_eq_none] at hfound ⊢
    rwa [← (perm.map Prod.fst).mem_iff]
  | some v => exact lookup_of_mem distinct' (perm.mem_iff.mp (mem_of_lookup hfound))

namespace Value

/-- Whether two values differ at most in the order of the names of dictionaries, at every
level. -/
def Reordered (v w : Value) : Prop := v.ordered = w.ordered

/-- Named values, each with the names of its dictionaries sorted. -/
def orderedPairs (pairs : List (String × Value)) : List (String × Value) :=
  pairs.map fun p => (p.1, p.2.ordered)

theorem Reordered.refl (v : Value) :
  Reordered v v
  := rfl

theorem Reordered.symm {v w : Value} (h : Reordered v w) :
  Reordered w v
  := Eq.symm h

/-! ### Named values -/

section Pairs

variable (pairs : List (String × Value))

@[simp]
theorem orderedPairs_nil :
  orderedPairs [] = []
  := rfl

@[simp]
theorem orderedPairs_cons (p : String × Value) :
  orderedPairs (p :: pairs) = (p.1, p.2.ordered) :: orderedPairs pairs
  := rfl

@[simp]
theorem map_fst_orderedPairs :
  (orderedPairs pairs).map Prod.fst = pairs.map Prod.fst
  := by
  rw [orderedPairs, List.map_map]
  rfl

@[simp]
theorem lookup_orderedPairs (name : String) :
  (orderedPairs pairs).lookup name = (pairs.lookup name).map ordered
  := by
  induction pairs with
  | nil => rfl
  | cons p pairs ih =>
    obtain ⟨other, v⟩ := p
    simp only [orderedPairs_cons, List.lookup_cons, ih]
    split
    · rfl
    · rfl

theorem ordered_object_eq :
  (object pairs).ordered = object (sortByText (orderedPairs pairs))
  := by
  rw [ordered_object, ← sortByText_map, orderedPairs]

variable {pairs}

theorem lookup_sortByText_orderedPairs (distinct : (pairs.map Prod.fst).Nodup) (name : String) :
  (sortByText (orderedPairs pairs)).lookup name = (pairs.lookup name).map ordered
  := by
  rw [Assoc.lookup_of_perm (by simpa using distinct) (sortByText_perm _).symm,
    lookup_orderedPairs]

end Pairs

/-! ### Reordered scalars, lists and dictionaries -/

theorem ordered_eq_null {v : Value} :
  v.ordered = .null ↔ v = .null
  := by
  cases v <;> simp [ordered]

theorem ordered_eq_text {v : Value} {s : String} :
  v.ordered = .text s ↔ v = .text s
  := by
  cases v <;> simp [ordered]

@[simp]
theorem isNull_ordered (v : Value) :
  v.ordered.isNull = v.isNull
  := by
  cases v <;> simp [ordered, isNull]

theorem Reordered.null_iff {v w : Value} (h : Reordered v w) :
  v = .null ↔ w = .null
  := by
  rw [← ordered_eq_null, h, ordered_eq_null]

/-- What is reordered to a text is that text. -/
theorem Reordered.eq_text {s : String} {w : Value} (h : Reordered (.text s) w) :
  w = .text s
  := ordered_eq_text.mp h.symm

/-- Reordered dictionaries have the same named values in some order, up to reordering. -/
theorem reordered_object {pairs others : List (String × Value)}
    (distinct : (pairs.map Prod.fst).Nodup) :
  Reordered (object pairs) (object others) ↔ (orderedPairs pairs).Perm (orderedPairs others)
  := by
  rw [Reordered, ordered_object_eq, ordered_object_eq]
  constructor
  · intro h
    have hsorted := sortByText_perm (orderedPairs pairs)
    rw [object_injective h] at hsorted
    exact hsorted.symm.trans (sortByText_perm _)
  · intro h
    rw [sortByText_eq_of_perm (by simpa using distinct) h]

/-- Named values that are reordered one by one give reordered dictionaries. -/
theorem reordered_of_orderedPairs {pairs others : List (String × Value)}
    (h : orderedPairs pairs = orderedPairs others) :
  Reordered (object pairs) (object others)
  := by
  rw [Reordered, ordered_object_eq, ordered_object_eq, h]

/-- What is reordered to a dictionary is one. -/
theorem Reordered.exists_object {pairs : List (String × Value)} {w : Value}
    (h : Reordered (object pairs) w) (hw : w.IsJson) :
  ∃ others, w = object others
  := by
  rw [Reordered, ordered_object_eq] at h
  cases w with
  | dict entries =>
    obtain ⟨others, rfl⟩ := hw.exists_object
    exact ⟨others, rfl⟩
  | _ => simp [object, ordered] at h

/-- Of reordered values, both are dictionaries or neither is. -/
theorem Reordered.dict_iff {v w : Value} (h : Reordered v w) :
  (∃ es, v = .dict es) ↔ ∃ es, w = .dict es
  := by
  have hdict (x : Value) : (∃ es, x = .dict es) ↔ ∃ es, x.ordered = .dict es := by
    cases x <;> simp [ordered]
  rw [hdict v, h, ← hdict w]

/-- What reordered dictionaries have under a name. -/
theorem Reordered.lookup {pairs others : List (String × Value)}
    (h : Reordered (object pairs) (object others)) (distinct : (pairs.map Prod.fst).Nodup)
    (name : String) :
  (pairs.lookup name).map ordered = (others.lookup name).map ordered
  := by
  rw [← lookup_orderedPairs, ← lookup_orderedPairs]
  symm
  apply Assoc.lookup_of_perm _ ((reordered_object distinct).mp h)
  simpa using distinct

/-! ### Values with sorted names -/

theorem truthy_ordered {v : Value} (h : IsJson v) :
  v.ordered.truthy = v.truthy
  := by
  cases v with
  | list vs => simp [truthy]
  | dict entries =>
    obtain ⟨pairs, rfl⟩ := h.exists_object
    have hlength : (sortByText (orderedPairs pairs)).length = pairs.length := by
      rw [(sortByText_perm _).length_eq, orderedPairs, List.length_map]
    rw [← object, ordered_object_eq, object, object, truthy, truthy, Bool.eq_iff_iff]
    simp [named, ← List.length_eq_zero_iff, hlength]
  | _ => rfl

theorem under_ordered {v : Value} (h : IsJson v) (name : String) :
  v.ordered.under name = (v.under name).ordered
  := by
  cases v with
  | dict entries =>
    obtain ⟨pairs, rfl⟩ := h.exists_object
    obtain ⟨distinct, -⟩ := (isJson_object pairs).mp h
    rw [← object, ordered_object_eq, under_object, under_object]
    rw [lookup_sortByText_orderedPairs distinct]
    cases pairs.lookup name with
    | none => rfl
    | some v => rfl
  | _ => simp [under, ordered]

/-- Nulls may be left out before or after names are sorted. -/
theorem orderedPairs_dropNullPairs {pairs : List (String × Value)}
    (h : ∀ p ∈ pairs, p.2.dropNulls.ordered = p.2.ordered.dropNulls) :
  orderedPairs (dropNullPairs pairs) = dropNullPairs (orderedPairs pairs)
  := by
  induction pairs with
  | nil => rfl
  | cons p pairs ih =>
    rw [List.forall_mem_cons] at h
    rw [orderedPairs_cons, dropNullPairs_cons, dropNullPairs_cons, isNull_ordered]
    split
    · exact ih h.2
    · rw [orderedPairs_cons, ih h.2, h.1]

theorem Ascending.dropNullPairs {pairs : List (String × Value)} (h : Ascending pairs) :
  Ascending (dropNullPairs pairs)
  := by
  rw [Ascending, ← List.pairwise_map] at h ⊢
  exact h.sublist (map_fst_dropNullPairs_sublist pairs)

theorem sortByText_dropNullPairs {pairs : List (String × Value)}
    (distinct : (pairs.map Prod.fst).Nodup) :
  sortByText (dropNullPairs pairs) = dropNullPairs (sortByText pairs)
  := by
  apply (ascending_sortByText (nodup_dropNullPairs distinct)).eq_of_perm
  · exact (ascending_sortByText distinct).dropNullPairs
  · exact (sortByText_perm _).trans (((sortByText_perm pairs).filter _).map _).symm

theorem dropNulls_ordered {v : Value} (h : IsJson v) :
  v.dropNulls.ordered = v.ordered.dropNulls
  := by
  induction v, h using jsonInduction with
  | onNull | onBool | onInt | onFloat | onText => simp [dropNulls, ordered]
  | onList vs h ih =>
    simp only [dropNulls_list, ordered_list, List.map_map]
    rw [list.injEq]
    exact List.map_congr_left ih
  | onObject pairs distinct h ih =>
    rw [dropNulls_object, ordered_object_eq, ordered_object_eq, dropNulls_object,
      orderedPairs_dropNullPairs ih, sortByText_dropNullPairs (by simpa using distinct)]

/-- Whether values are the same does not depend on the order of names. -/
theorem same_ordered {v w : Value} (hv : IsJson v) (hw : IsJson w) :
  v.ordered.same w.ordered = v.same w
  := by
  induction v, hv using jsonInduction generalizing w with
  | onNull | onBool | onInt | onText =>
    cases w with
    | list ws => simp [same, ordered, number?]
    | dict entries => simp [same, ordered, number?]
    | _ => rfl
  | onFloat x =>
    cases w with
    | list ws => cases x <;> simp [same, ordered, number?]
    | dict entries => cases x <;> simp [same, ordered, number?]
    | _ => rfl
  | onList vs h ih =>
    cases w with
    | list ws =>
      rw [isJson_list] at hw
      rw [ordered_list, ordered_list, same, same, Bool.eq_iff_iff, sameAll_iff, sameAll_iff,
        List.forall₂_map_left_iff, List.forall₂_map_right_iff]
      clear h
      induction vs generalizing ws with
      | nil => cases ws <;> simp
      | cons v vs ihs =>
        cases ws with
        | nil => simp
        | cons w ws =>
          rw [List.forall₂_cons, List.forall₂_cons, ih v (by simp) (hw w (by simp)),
            ihs (fun v hv => ih v (by simp [hv])) ws fun w hmem => hw w (by simp [hmem])]
    | dict entries => simp [same, ordered, number?]
    | float y => cases y <;> simp [same, ordered, number?]
    | _ => simp [same, ordered, number?]
  | onObject pairs distinct h ih =>
    cases w with
    | dict entries =>
      obtain ⟨others, rfl⟩ := hw.exists_object
      obtain ⟨distinct', hothers⟩ := (isJson_object others).mp hw
      rw [← object, ordered_object_eq, ordered_object_eq, Bool.eq_iff_iff, same_object,
        same_object]
      apply and_congr
      · rw [(sortByText_perm _).length_eq, (sortByText_perm _).length_eq, orderedPairs,
          orderedPairs, List.length_map, List.length_map]
      · simp only [(sortByText_perm _).mem_iff, lookup_sortByText_orderedPairs distinct']
        rw [orderedPairs, List.forall_mem_map]
        refine forall₂_congr fun p hp => ?_
        cases hfound : others.lookup p.1 with
        | none => simp
        | some w => simp [ih p hp (hothers _ (Assoc.mem_of_lookup hfound))]
    | list ws => simp [object, same, ordered, number?]
    | float y => cases y <;> simp [object, same, ordered, number?]
    | _ => simp [object, same, ordered, number?]

end Value

end Installation

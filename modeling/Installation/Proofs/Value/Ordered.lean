import Installation.Proofs.Value.Alike
import Installation.Value.Sorted

/-!
# JSON values with sorted keys

On JSON values the sorting of keys never fails: `Value.sortKeys` gives `Value.ordered`, in
which the names of every dictionary stand in strictly ascending order.  Sorted named values
are determined by what they are a permutation of, so that the order in which entries came in
leaves no trace.
-/

namespace Installation

namespace Value

variable {α β : Type}

/-! ### Sorted named values -/

/-- Named values whose names ascend strictly. -/
def Ascending (pairs : List (String × α)) : Prop := pairs.Pairwise fun p q => p.1 < q.1

theorem insertByText_perm (p : String × α) (pairs : List (String × α)) :
  (insertByText p pairs).Perm (p :: pairs)
  := by
  induction pairs with
  | nil => exact .refl _
  | cons q rest ih =>
    rw [insertByText]
    split
    · exact (List.Perm.cons q ih).trans (.swap p q rest)
    · exact .refl _

theorem sortByText_perm (pairs : List (String × α)) :
  (sortByText pairs).Perm pairs
  := by
  induction pairs with
  | nil => exact .refl _
  | cons p rest ih => exact (insertByText_perm p _).trans (.cons p ih)

/-- A new name that is put into ascending ones leaves them ascending. -/
theorem Ascending.insertByText {p : String × α} {pairs : List (String × α)}
    (h : Ascending pairs) (new : p.1 ∉ pairs.map Prod.fst) :
  Ascending (insertByText p pairs)
  := by
  induction pairs with
  | nil => exact List.pairwise_singleton _ p
  | cons q rest ih =>
    obtain ⟨hq, hrest⟩ := List.pairwise_cons.mp h
    rw [List.map_cons, List.mem_cons, not_or] at new
    obtain ⟨hne, hnew⟩ := new
    rw [Value.insertByText]
    split
    · rename_i hlt
      apply List.pairwise_cons.mpr
      refine ⟨?_, ih hrest hnew⟩
      intro r hr
      obtain rfl | hr := List.mem_cons.mp ((insertByText_perm p rest).mem_iff.mp hr)
      · exact hlt
      · exact hq r hr
    · rename_i hlt
      have hpq : p.1 < q.1 := by
        apply String.not_le.mp
        intro hle
        exact hne (String.le_antisymm (String.not_lt.mp hlt) hle)
      apply List.pairwise_cons.mpr
      refine ⟨?_, h⟩
      intro r hr
      obtain rfl | hr := List.mem_cons.mp hr
      · exact hpq
      · exact String.lt_trans hpq (hq r hr)

theorem ascending_sortByText {pairs : List (String × α)}
    (distinct : (pairs.map Prod.fst).Nodup) :
  Ascending (sortByText pairs)
  := by
  induction pairs with
  | nil => exact .nil
  | cons p rest ih =>
    obtain ⟨hp, hrest⟩ := List.nodup_cons.mp distinct
    apply (ih hrest).insertByText
    rw [((sortByText_perm rest).map Prod.fst).mem_iff]
    exact hp

/-- Ascending named values are determined by what they are a permutation of. -/
theorem Ascending.eq_of_perm {pairs others : List (String × α)} (h : Ascending pairs)
    (h' : Ascending others) (perm : pairs.Perm others) :
  pairs = others
  := by
  apply List.Perm.eq_of_pairwise _ h h' perm
  intro p q _ _ hpq hqp
  exact absurd (String.lt_trans hpq hqp) (String.lt_irrefl _)

/-- The order in which distinct names came in leaves no trace. -/
theorem sortByText_eq_of_perm {pairs others : List (String × α)}
    (distinct : (pairs.map Prod.fst).Nodup) (perm : pairs.Perm others) :
  sortByText pairs = sortByText others
  := by
  have distinct' : (others.map Prod.fst).Nodup := (perm.map Prod.fst).nodup_iff.mp distinct
  apply (ascending_sortByText distinct).eq_of_perm (ascending_sortByText distinct')
  exact (sortByText_perm pairs).trans (perm.trans (sortByText_perm others).symm)

/-- Values may be replaced before or after sorting by name. -/
theorem sortByText_map (f : String × α → β) (pairs : List (String × α)) :
  sortByText (pairs.map fun p => (p.1, f p)) = (sortByText pairs).map fun p => (p.1, f p)
  := by
  have hinsert (p : String × α) (rest : List (String × α)) :
      insertByText (p.1, f p) (rest.map fun p => (p.1, f p)) =
        (insertByText p rest).map fun p => (p.1, f p) := by
    induction rest with
    | nil => rfl
    | cons q rest ih =>
      simp only [List.map_cons, insertByText]
      split
      · rw [List.map_cons, ih]
      · rfl
  induction pairs with
  | nil => rfl
  | cons p rest ih => rw [List.map_cons, sortByText, ih, hinsert, sortByText]

/-- Names may be left out before or after sorting. -/
theorem sortByText_filter (keep : String → Bool) {pairs : List (String × α)}
    (distinct : (pairs.map Prod.fst).Nodup) :
  sortByText (pairs.filter fun p => keep p.1) =
    (sortByText pairs).filter fun p => keep p.1
  := by
  have distinct' : ((pairs.filter fun p => keep p.1).map Prod.fst).Nodup :=
    distinct.sublist (List.filter_sublist.map Prod.fst)
  apply (ascending_sortByText distinct').eq_of_perm
  · exact (ascending_sortByText distinct).sublist List.filter_sublist
  · exact (sortByText_perm _).trans ((sortByText_perm pairs).filter _).symm

/-! ### Sorting the keys of JSON values -/

/-- Entries in the order of their names. -/
def orderEntries (entries : List (Key × Value)) : List (Key × Value) :=
  match textEntries? entries with
  | some pairs => named (sortByText pairs)
  | none => entries

mutual

/-- A value with the names of its dictionaries sorted. -/
def ordered : Value → Value
  | .dict entries => .dict (orderEntries (orderedEntries entries))
  | .list vs => .list (orderedAll vs)
  | v => v

/-- The values of a list, each with the names of its dictionaries sorted. -/
def orderedAll : List Value → List Value
  | [] => []
  | v :: vs => ordered v :: orderedAll vs

/-- Entries, each value with the names of its dictionaries sorted. -/
def orderedEntries : List (Key × Value) → List (Key × Value)
  | [] => []
  | (k, v) :: entries => (k, ordered v) :: orderedEntries entries

end

@[simp]
theorem textEntries?_named (pairs : List (String × α)) :
  textEntries? (named pairs) = some pairs
  := by
  induction pairs with
  | nil => rfl
  | cons p rest ih => simp [textEntries?, ih]

@[simp]
theorem ordered_list (vs : List Value) :
  ordered (.list vs) = .list (vs.map ordered)
  := by
  rw [ordered]
  congr 1
  induction vs with
  | nil => rfl
  | cons v vs ih => rw [orderedAll, ih, List.map_cons]

@[simp]
theorem ordered_object (pairs : List (String × Value)) :
  ordered (object pairs) = object ((sortByText pairs).map fun p => (p.1, ordered p.2))
  := by
  have hentries : orderedEntries (named pairs) = named (pairs.map fun p => (p.1, ordered p.2)) := by
    induction pairs with
    | nil => rfl
    | cons p rest ih => simp [orderedEntries, ih]
  have hsorted : orderEntries (named (pairs.map fun p => (p.1, ordered p.2))) =
      named ((sortByText pairs).map fun p => (p.1, ordered p.2)) := by
    rw [orderEntries, textEntries?_named, ← sortByText_map]
  rw [object, ordered, hentries, hsorted, object]

theorem collect_ok (pairs : List (String × α)) :
  collect (named (pairs.map fun p => (p.1, Except.ok p.2))) = .ok (named pairs)
  := by
  induction pairs with
  | nil => rfl
  | cons p rest ih =>
    simp only [List.map_cons, named_cons, collect, ih]
    rfl

/-- The sorting of keys gives a JSON value with the names of its dictionaries sorted. -/
theorem sortKeys_eq {v : Value} (h : IsJson v) :
  sortKeys v = .ok (ordered v)
  := by
  induction v, h using jsonInduction with
  | onNull | onBool | onInt | onFloat | onText => rfl
  | onList vs h ih =>
    have hall : sortKeysAll vs = .ok (vs.map ordered) := by
      clear h
      induction vs with
      | nil => rfl
      | cons v vs ihs =>
        rw [sortKeysAll, ih v (by simp)]
        simp only
        rw [ihs fun w hw => ih w (by simp [hw])]
        rfl
    rw [sortKeys, hall, ordered_list]
    rfl
  | onObject pairs distinct h ih =>
    have hentries : sortKeysEntries (named pairs) =
        named (pairs.map fun p => (p.1, Except.ok (ordered p.2))) := by
      clear h distinct
      induction pairs with
      | nil => rfl
      | cons p rest ihs =>
        rw [named_cons, sortKeysEntries, ih p (by simp), ihs fun q hq => ih q (by simp [hq])]
        rfl
    have hsorted : sortEntries (sortKeysEntries (named pairs)) =
        .ok (named ((sortByText pairs).map fun p => (p.1, Except.ok (ordered p.2)))) := by
      rw [hentries, sortEntries, textEntries?_named, ← sortByText_map]
      rfl
    have hcollect := collect_ok ((sortByText pairs).map fun p => (p.1, ordered p.2))
    rw [List.map_map] at hcollect
    rw [object, sortKeys, hsorted, ← object, ordered_object]
    simp only
    rw [show (fun p : String × Value => (p.1, Except.ok (ε := Fault) (ordered p.2))) =
      (fun p : String × Value => (p.1, Except.ok p.2)) ∘ fun p => (p.1, ordered p.2) from rfl,
      hcollect]
    rfl

end Value

end Installation

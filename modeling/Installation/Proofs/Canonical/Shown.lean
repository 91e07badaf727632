import Installation.Proofs.Value.Ordered
import Installation.Value.Canonical

/-!
# What a canonical text shows

The canonical text of a JSON value is the JSON text of the value that is left when the entries
under reserved keys are left out and the names of all dictionaries are sorted, and there always
is one: `canonical_eq`.  The entries may be left out before or after the names are sorted.
-/

namespace Installation

namespace Value

/-- Whether a canonical text leaves out the entries under a key. -/
def isReserved : Key → Bool
  | .text name => reservedKeys.contains name
  | _ => false

mutual

/-- A value without the entries under reserved keys, at every level. -/
def shown : Value → Value
  | .dict entries => .dict (shownEntries entries)
  | .list vs => .list (shownAll vs)
  | v => v

/-- The values of a list, each without the entries under reserved keys. -/
def shownAll : List Value → List Value
  | [] => []
  | v :: vs => shown v :: shownAll vs

/-- Entries without those under reserved keys, at every level. -/
def shownEntries : List (Key × Value) → List (Key × Value)
  | [] => []
  | (k, v) :: entries =>
    if isReserved k then shownEntries entries else (k, shown v) :: shownEntries entries

end

/-- Named values without those under reserved names. -/
def unreserved (pairs : List (String × Value)) : List (String × Value) :=
  pairs.filter fun p => !reservedKeys.contains p.1

@[simp]
theorem shown_list (vs : List Value) :
  shown (.list vs) = .list (vs.map shown)
  := by
  rw [shown]
  congr 1
  induction vs with
  | nil => rfl
  | cons v vs ih => rw [shownAll, ih, List.map_cons]

@[simp]
theorem shown_object (pairs : List (String × Value)) :
  shown (object pairs) = object ((unreserved pairs).map fun p => (p.1, shown p.2))
  := by
  have hentries : shownEntries (named pairs) =
      named ((unreserved pairs).map fun p => (p.1, shown p.2)) := by
    induction pairs with
    | nil => rfl
    | cons p rest ih =>
      rw [named_cons, shownEntries, unreserved, List.filter_cons, isReserved, ih]
      cases reservedKeys.contains p.1 <;> rfl
  rw [object, shown, hentries, object]

/-- To leave out names keeps the others distinct. -/
theorem nodup_unreserved {pairs : List (String × Value)}
    (distinct : (pairs.map Prod.fst).Nodup) :
  ((unreserved pairs).map Prod.fst).Nodup
  := distinct.sublist (List.filter_sublist.map Prod.fst)

/-- To replace values keeps the names. -/
theorem map_fst_replace (f : String × Value → Value) (pairs : List (String × Value)) :
  (pairs.map fun p => (p.1, f p)).map Prod.fst = pairs.map Prod.fst
  := by
  simp

theorem IsJson.shown {v : Value} (h : IsJson v) :
  IsJson v.shown
  := by
  induction v, h using jsonInduction with
  | onNull | onBool | onInt | onFloat | onText => trivial
  | onList vs h ih =>
    rw [shown_list, isJson_list]
    intro w hw
    obtain ⟨v, hv, rfl⟩ := List.mem_map.mp hw
    exact ih v hv
  | onObject pairs distinct h ih =>
    rw [shown_object, isJson_object, map_fst_replace]
    refine ⟨nodup_unreserved distinct, ?_⟩
    intro q hq
    obtain ⟨p, hp, rfl⟩ := List.mem_map.mp hq
    exact ih p (List.mem_filter.mp hp).1

theorem IsJson.ordered {v : Value} (h : IsJson v) :
  IsJson v.ordered
  := by
  induction v, h using jsonInduction with
  | onNull | onBool | onInt | onFloat | onText => trivial
  | onList vs h ih =>
    rw [ordered_list, isJson_list]
    intro w hw
    obtain ⟨v, hv, rfl⟩ := List.mem_map.mp hw
    exact ih v hv
  | onObject pairs distinct h ih =>
    rw [ordered_object, isJson_object, map_fst_replace]
    constructor
    · rw [((sortByText_perm pairs).map Prod.fst).nodup_iff]
      exact distinct
    · intro q hq
      obtain ⟨p, hp, rfl⟩ := List.mem_map.mp hq
      exact ih p ((sortByText_perm pairs).mem_iff.mp hp)

/-- Entries may be left out before or after names are sorted. -/
theorem shown_ordered {v : Value} (h : IsJson v) :
  v.ordered.shown = v.shown.ordered
  := by
  induction v, h using jsonInduction with
  | onNull | onBool | onInt | onFloat | onText => rfl
  | onList vs h ih =>
    rw [ordered_list, shown_list, shown_list, ordered_list, List.map_map, List.map_map]
    congr 1
    exact List.map_congr_left ih
  | onObject pairs distinct h ih =>
    have hleft : unreserved ((sortByText pairs).map fun p => (p.1, p.2.ordered)) =
        (sortByText (unreserved pairs)).map fun p => (p.1, p.2.ordered) := by
      rw [unreserved, List.filter_map, unreserved,
        sortByText_filter (fun name => !reservedKeys.contains name) distinct]
      rfl
    rw [ordered_object, shown_object, hleft, shown_object, ordered_object, sortByText_map,
      List.map_map, List.map_map]
    congr 1
    apply List.map_congr_left
    intro p hp
    have hmem : p ∈ unreserved pairs := (sortByText_perm _).mem_iff.mp hp
    simp only [Function.comp_apply]
    rw [ih p (List.mem_filter.mp hmem).1]

/-- The replacement of what JSON does not have leaves a JSON value as it is, except for the
entries under reserved keys. -/
theorem flatten_eq {v : Value} (h : IsJson v) :
  flatten v = .ok v.shown
  := by
  induction v, h using jsonInduction with
  | onNull | onBool | onInt | onFloat | onText => rfl
  | onList vs h ih =>
    have hall : flattenAll vs = .ok (vs.map shown) := by
      clear h
      induction vs with
      | nil => rfl
      | cons v vs ihs =>
        rw [flattenAll, ih v (by simp)]
        simp only
        rw [ihs fun w hw => ih w (by simp [hw])]
        rfl
    rw [flatten, hall, shown_list]
    rfl
  | onObject pairs distinct h ih =>
    have hentries : flattenEntries (named pairs) =
        .ok (named ((unreserved pairs).map fun p => (p.1, p.2.shown))) := by
      clear h distinct
      induction pairs with
      | nil => rfl
      | cons p rest ihs =>
        have hrest := ihs fun q hq => ih q (by simp [hq])
        rw [named_cons, flattenEntries, shownKey?, unreserved, List.filter_cons]
        cases reservedKeys.contains p.1 with
        | true => exact hrest
        | false =>
          rw [ih p (by simp)]
          simp only [Bool.false_eq_true, if_false]
          rw [hrest]
          rfl
    have hdistinct : (((unreserved pairs).map fun p => (p.1, p.2.shown)).map Prod.fst).Nodup := by
      rw [map_fst_replace]
      exact nodup_unreserved distinct
    rw [object, flatten, hentries, ← object, shown_object]
    change Except.ok (dict (Assoc.ofPairs _)) = _
    rw [ofPairs_named _ hdistinct]
    rfl

/-- The canonical text of a JSON value: what is shown of it, as JSON with sorted names. -/
theorem canonical_eq {v : Value} (h : IsJson v) :
  canonical v = .ok v.shown.ordered.json
  := by
  rw [canonical, sortKeys_eq h]
  change (flatten v.ordered).bind (fun flat => .ok flat.json) = _
  rw [flatten_eq h.ordered, shown_ordered h]
  rfl

end Value

end Installation

import Installation.Proofs.Value.Entries

/-!
# What a patch keeps

A patch that is merged into a value may replace what is there.  `Value.at?` is what a path of
names leads to, through dictionaries, and a patch keeps a value, `Value.Keeps`, when every such
path of it still leads somewhere after the merge.  A patch without null entries,
`Value.lacksNulls`, removes nothing from a stored resource.
-/

namespace Installation

namespace Value

/-! ### Values without null entries -/

mutual

/-- Whether no dictionary that is reached through dictionaries and lists has a null entry. -/
def lacksNulls : Value → Bool
  | .dict entries => entriesLackNulls entries
  | .list vs => allLackNulls vs
  | _ => true

/-- Whether this holds of all elements of a list. -/
def allLackNulls : List Value → Bool
  | [] => true
  | v :: vs => lacksNulls v && allLackNulls vs

/-- Whether none of some entries is null, and this holds of all their values. -/
def entriesLackNulls : List (Key × Value) → Bool
  | [] => true
  | (_, v) :: entries => !v.isNull && lacksNulls v && entriesLackNulls entries

end

theorem entriesLackNulls_iff {entries : List (Key × Value)} :
  entriesLackNulls entries ↔ ∀ e ∈ entries, e.2 ≠ .null ∧ e.2.lacksNulls
  := by
  induction entries with
  | nil => simp [entriesLackNulls]
  | cons e entries ih =>
    have hnull : e.2.isNull = false ↔ e.2 ≠ .null := by
      rw [← Bool.not_eq_true, isNull_iff]
    rw [entriesLackNulls, Bool.and_eq_true, Bool.and_eq_true, Bool.not_eq_true', ih, hnull,
      List.forall_mem_cons]

mutual

/-- There are no nulls left where they were left out. -/
theorem lacksNulls_dropNulls : (v : Value) → v.dropNulls.lacksNulls = true
  | .dict entries => by
    rw [dropNulls, lacksNulls]
    exact entriesLackNulls_dropNullEntries entries
  | .list vs => by
    rw [dropNulls, lacksNulls]
    exact allLackNulls_dropNullsAll vs
  | .null | .bool _ | .int _ | .float _ | .text _ | .tuple _ | .record _ _ => by
    simp [dropNulls, lacksNulls]

theorem allLackNulls_dropNullsAll : (vs : List Value) → allLackNulls (dropNullsAll vs) = true
  | [] => rfl
  | v :: vs => by
    rw [dropNullsAll, allLackNulls, lacksNulls_dropNulls v, allLackNulls_dropNullsAll vs]
    rfl

theorem entriesLackNulls_dropNullEntries : (entries : List (Key × Value)) →
    entriesLackNulls (dropNullEntries entries) = true
  | [] => rfl
  | (k, v) :: entries => by
    have hrest := entriesLackNulls_dropNullEntries entries
    rw [dropNullEntries]
    split
    · exact hrest
    · rename_i hnull
      have hkept : v.dropNulls.isNull = false :=
        Bool.eq_false_iff.mpr fun h =>
          hnull (isNull_iff.mpr (dropNulls_eq_null.mp (isNull_iff.mp h)))
      rw [entriesLackNulls, lacksNulls_dropNulls v, hrest, hkept]
      rfl

end

/-! ### Paths through dictionaries -/

/-- What a path of names leads to, through dictionaries. -/
def at? : List String → Value → Option Value
  | [], v => some v
  | name :: path, .dict entries => (entryAt? name entries).bind (at? path)
  | _ :: _, _ => none

@[simp]
theorem at?_nil (v : Value) :
  v.at? [] = some v
  := by
  cases v <;> rfl

@[simp]
theorem at?_object (name : String) (path : List String) (pairs : List (String × Value)) :
  (object pairs).at? (name :: path) = (pairs.lookup name).bind (at? path)
  := by
  rw [object, at?, entryAt?_named]

/-- Paths lead on from dictionaries alone. -/
theorem at?_cons_of_not_dict {v : Value} (h : ∀ entries, v ≠ .dict entries) (name : String)
    (path : List String) :
  v.at? (name :: path) = none
  := by
  cases v with
  | dict entries => exact absurd rfl (h entries)
  | _ => rfl

/-- Whether each path in a value still leads somewhere once a patch is merged in. -/
def Keeps (v patch : Value) : Prop :=
  ∀ path, (v.at? path).isSome → ((v.merge patch).at? path).isSome

/-- Only dictionaries have something to lose. -/
theorem keeps_of_not_dict {v : Value} (h : ∀ entries, v ≠ .dict entries) (patch : Value) :
  Keeps v patch
  := by
  intro path hpath
  cases path with
  | nil => simp
  | cons name path => simp [at?_cons_of_not_dict h] at hpath

/-- A dictionary keeps its paths when the entries that are patched do. -/
theorem keeps_object {stored patch : List (String × Value)}
    (distinct : (stored.map Prod.fst).Nodup) (distinct' : (patch.map Prod.fst).Nodup)
    (h : ∀ name v p, stored.lookup name = some v → patch.lookup name = some p → Keeps v p) :
  Keeps (object stored) (object patch)
  := by
  intro path hpath
  cases path with
  | nil => simp
  | cons name path =>
    rw [at?_object] at hpath
    rw [merge_object distinct distinct', at?_object, lookup_mergePairs]
    cases hstored : stored.lookup name with
    | none => simp [hstored] at hpath
    | some v =>
      rw [hstored] at hpath
      simp only [Option.bind_some] at hpath ⊢
      cases hpatch : patch.lookup name with
      | none => exact hpath
      | some p => exact h name v p hstored hpatch path hpath

/-- Data keeps its paths when it is merged into itself without its nulls. -/
theorem keeps_dropNulls {v : Value} (h : v.IsJson) :
  Keeps v v.dropNulls
  := by
  induction v, h using jsonInduction with
  | onNull | onBool | onInt | onFloat | onText | onList => exact keeps_of_not_dict (by simp) _
  | onObject pairs distinct h ih =>
    rw [dropNulls_object]
    apply keeps_object distinct (nodup_dropNullPairs distinct)
    intro name v p hv hp
    rw [lookup_dropNullPairs distinct, hv, Option.getD_some] at hp
    split at hp
    · contradiction
    · obtain rfl := Option.some.inj hp
      exact ih (name, v) (Assoc.mem_of_lookup hv)

/-- A value that named values are merged into is as good as named values itself: a dictionary as
its own, and anything else as none. -/
theorem exists_stored {v : Value} (hv : v.IsJson) {patch : List (String × Value)}
    (distinct : (patch.map Prod.fst).Nodup) :
  ∃ stored, (stored.map Prod.fst).Nodup ∧ (∀ p ∈ stored, p.2.IsJson) ∧
    v.merge (object patch) = object (mergePairs stored patch) ∧
    ∀ name path, v.at? (name :: path) = (object stored).at? (name :: path)
  := by
  cases v with
  | dict entries =>
    obtain ⟨pairs, rfl⟩ := hv.exists_object
    obtain ⟨distinct', hpairs⟩ := (isJson_object pairs).mp hv
    exact ⟨pairs, distinct', hpairs, merge_object distinct' distinct, fun _ _ => rfl⟩
  | _ =>
    refine ⟨[], by simp, by simp, ?_, fun name path => ?_⟩
    · simp [object, merge, mergePairs]
    · rw [at?_object]
      rfl

end Value

end Installation

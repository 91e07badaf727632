import Installation.Proofs.Association
import Installation.Proofs.Value.Json
import Installation.Value.Merge
import Installation.Value.Nulls

/-!
# Entries of dictionaries

`Value.under` is what a dictionary has under a name, null where it has nothing, and
`Value.setEntry` sets it.  What is under a name can be looked up before or after nulls are
left out, and `mergePairs` says what a merge makes of named values: those that are stored
stay in their places and take in the patch, the new ones come last.
-/

namespace Installation

namespace Value

/-- What a dictionary has under a name, or null. -/
def under (name : String) : Value → Value
  | .dict entries => (entryAt? name entries).getD .null
  | _ => .null

/-- A dictionary with the entry under a name set. -/
def setEntry (v : Value) (name : String) (x : Value) : Value :=
  match v with
  | .dict entries => .dict (Assoc.insert (.text name) x entries)
  | v => v

@[simp]
theorem under_null (name : String) :
  null.under name = .null
  := rfl

@[simp]
theorem under_object (name : String) (pairs : List (String × Value)) :
  (object pairs).under name = (pairs.lookup name).getD .null
  := by
  rw [object, under, entryAt?_named]

@[simp]
theorem setEntry_object (name : String) (x : Value) (pairs : List (String × Value)) :
  (object pairs).setEntry name x = object (Assoc.insert name x pairs)
  := by
  rw [object, setEntry, insert_named]
  rfl

/-- A look-up after an entry was set. -/
theorem entryAt?_insert (name other : String) (x : Value) (entries : List (Key × Value)) :
  entryAt? other (Assoc.insert (.text name) x entries) =
    if other == name then some x else entryAt? other entries
  := by
  induction entries with
  | nil =>
    rw [Assoc.insert_nil, entryAt?, List.lookup_cons, Key.beq_text]
    cases other == name <;> rfl
  | cons e entries ih =>
    obtain ⟨k, v⟩ := e
    by_cases hk : k = .text name
    · subst hk
      simp only [Assoc.insert, entryAt?, Key.beq_text, beq_self_eq_true, if_true,
        List.lookup_cons]
      cases other == name <;> rfl
    · have hne : (Key.text name == k) = false :=
        Bool.eq_false_iff.mpr (mt (Key.text_beq_iff name k).mp hk)
      simp only [entryAt?] at ih ⊢
      rw [Assoc.insert, hne, if_neg (by simp), List.lookup_cons, List.lookup_cons, ih]
      by_cases hother : k = .text other
      · subst hother
        have hdiffer : (other == name) = false := by
          simpa using fun heq : other = name => hk (by rw [heq])
        simp [hdiffer]
      · have hne' : (Key.text other == k) = false :=
          Bool.eq_false_iff.mpr (mt (Key.text_beq_iff other k).mp hother)
        rw [hne']

/-- A look-up after named values were laid over entries. -/
theorem entryAt?_overlay_named (entries : List (Key × Value)) {pairs : List (String × Value)}
    (distinct : (pairs.map Prod.fst).Nodup) (name : String) :
  entryAt? name (Assoc.overlay entries (named pairs)) =
    (pairs.lookup name).or (entryAt? name entries)
  := by
  induction pairs generalizing entries with
  | nil => rfl
  | cons p pairs ih =>
    rw [List.map_cons, List.nodup_cons] at distinct
    obtain ⟨hnew, hrest⟩ := distinct
    rw [named_cons, Assoc.overlay_cons, ih _ hrest, entryAt?_insert, List.lookup_cons]
    by_cases hname : name = p.1
    · subst hname
      rw [Assoc.lookup_eq_none.mpr hnew]
      simp
    · have hne : (name == p.1) = false := by simpa using hname
      rw [hne]
      rfl

/-- An entry that is set leaves the other ones as they are. -/
theorem under_setEntry_ne {name other : String} (h : other ≠ name) (v x : Value) :
  (v.setEntry name x).under other = v.under other
  := by
  cases v with
  | dict entries =>
    have hne : (other == name) = false := by simpa using h
    rw [setEntry, under, under, entryAt?_insert, hne]
    rfl
  | _ => rfl

theorem under_setEntry_dict (name : String) (x : Value) (entries : List (Key × Value)) :
  ((dict entries).setEntry name x).under name = x
  := by
  rw [setEntry, under, entryAt?_insert, beq_self_eq_true]
  rfl

/-- What has an entry that is not null is a dictionary. -/
theorem exists_dict_of_under {name : String} {v : Value} (h : v.under name ≠ .null) :
  ∃ entries, v = .dict entries
  := by
  cases v with
  | dict entries => exact ⟨entries, rfl⟩
  | _ => simp [under] at h

theorem IsJson.under {v : Value} (h : IsJson v) (name : String) :
  IsJson (v.under name)
  := by
  cases v with
  | dict entries =>
    obtain ⟨pairs, rfl⟩ := h.exists_object
    obtain ⟨-, hpairs⟩ := (isJson_object pairs).mp h
    rw [← object, under_object]
    cases hfound : pairs.lookup name with
    | none => trivial
    | some w => exact hpairs (name, w) (Assoc.mem_of_lookup hfound)
  | _ => trivial

/-- An entry that is set to what it is changes nothing. -/
theorem setEntry_under {name : String} {v : Value} (hv : IsJson v)
    (h : v.under name ≠ .null) :
  v.setEntry name (v.under name) = v
  := by
  obtain ⟨entries, rfl⟩ := exists_dict_of_under h
  obtain ⟨pairs, rfl⟩ := hv.exists_object
  rw [← object] at h ⊢
  rw [under_object] at h ⊢
  cases hfound : pairs.lookup name with
  | none => simp [hfound] at h
  | some w => rw [setEntry_object, Option.getD_some, Assoc.insert_of_lookup hfound]

/-! ### Without nulls -/

@[simp]
theorem isNull_iff {v : Value} :
  v.isNull = true ↔ v = .null
  := by
  cases v <;> simp [isNull]

/-- Named values without those that are null, and without the nulls inside of them. -/
def dropNullPairs (pairs : List (String × Value)) : List (String × Value) :=
  (pairs.filter fun p => !p.2.isNull).map fun p => (p.1, p.2.dropNulls)

theorem dropNullEntries_named (pairs : List (String × Value)) :
  dropNullEntries (named pairs) = named (dropNullPairs pairs)
  := by
  induction pairs with
  | nil => rfl
  | cons p pairs ih =>
    obtain ⟨name, v⟩ := p
    rw [named_cons, dropNullEntries, ih, dropNullPairs, dropNullPairs, List.filter_cons]
    cases v.isNull <;> rfl

@[simp]
theorem dropNulls_object (pairs : List (String × Value)) :
  dropNulls (object pairs) = object (dropNullPairs pairs)
  := by
  rw [object, dropNulls, dropNullEntries_named, object]

@[simp]
theorem dropNulls_list (vs : List Value) :
  dropNulls (.list vs) = .list (vs.map dropNulls)
  := by
  rw [dropNulls]
  congr 1
  induction vs with
  | nil => rfl
  | cons v vs ih => rw [dropNullsAll, ih, List.map_cons]

@[simp]
theorem dropNulls_null :
  dropNulls .null = .null
  := by
  simp [dropNulls]

@[simp]
theorem dropNulls_text (s : String) :
  dropNulls (.text s) = .text s
  := by
  simp [dropNulls]

/-- A value is null exactly when it is null without its nulls. -/
@[simp]
theorem dropNulls_eq_null {v : Value} :
  v.dropNulls = .null ↔ v = .null
  := by
  cases v <;> simp [dropNulls]

@[simp]
theorem dropNulls_eq_text {v : Value} {s : String} :
  v.dropNulls = .text s ↔ v = .text s
  := by
  cases v <;> simp [dropNulls]

/-- The names that are left are among those that were there. -/
theorem map_fst_dropNullPairs_sublist (pairs : List (String × Value)) :
  ((dropNullPairs pairs).map Prod.fst).Sublist (pairs.map Prod.fst)
  := by
  rw [dropNullPairs, List.map_map]
  exact List.filter_sublist.map Prod.fst

theorem nodup_dropNullPairs {pairs : List (String × Value)}
    (distinct : (pairs.map Prod.fst).Nodup) :
  ((dropNullPairs pairs).map Prod.fst).Nodup
  := distinct.sublist (map_fst_dropNullPairs_sublist pairs)

theorem mem_dropNullPairs {name : String} {v : Value} {pairs : List (String × Value)} :
  (name, v) ∈ dropNullPairs pairs ↔ ∃ w, (name, w) ∈ pairs ∧ w ≠ .null ∧ w.dropNulls = v
  := by
  simp only [dropNullPairs, List.mem_map, List.mem_filter, Bool.not_eq_true', Prod.mk.injEq,
    Prod.exists]
  constructor
  · rintro ⟨other, w, ⟨hmem, hnull⟩, rfl, rfl⟩
    exact ⟨w, hmem, by simp [← isNull_iff, hnull], rfl⟩
  · rintro ⟨w, hmem, hnull, rfl⟩
    exact ⟨name, w, ⟨hmem, by simpa [← isNull_iff] using hnull⟩, rfl, rfl⟩

/-- A look-up where nulls are left out. -/
theorem lookup_dropNullPairs {name : String} {pairs : List (String × Value)}
    (distinct : (pairs.map Prod.fst).Nodup) :
  (dropNullPairs pairs).lookup name =
    if ((pairs.lookup name).getD .null).isNull then none
    else some ((pairs.lookup name).getD .null).dropNulls
  := by
  have distinct' := nodup_dropNullPairs distinct
  cases hfound : pairs.lookup name with
  | none =>
    have hnot := Assoc.lookup_eq_none.mp hfound
    rw [Option.getD_none, if_pos (isNull_iff.mpr rfl), Assoc.lookup_eq_none]
    exact fun hmem => hnot ((map_fst_dropNullPairs_sublist pairs).subset hmem)
  | some v =>
    rw [Option.getD_some]
    split
    · rename_i hnull
      rw [Assoc.lookup_eq_none]
      intro hmem
      obtain ⟨⟨other, w⟩, hw, rfl⟩ := List.mem_map.mp hmem
      obtain ⟨x, hx, hne, -⟩ := mem_dropNullPairs.mp hw
      rw [Assoc.lookup_of_mem distinct hx] at hfound
      obtain rfl := Option.some.inj hfound
      exact hne (isNull_iff.mp hnull)
    · rename_i hnull
      apply Assoc.lookup_of_mem distinct'
      exact mem_dropNullPairs.mpr
        ⟨v, Assoc.mem_of_lookup hfound, fun heq => hnull (isNull_iff.mpr heq), rfl⟩

/-- What is left under a name, null where nothing is. -/
theorem getD_lookup_dropNullPairs {name : String} {pairs : List (String × Value)}
    (distinct : (pairs.map Prod.fst).Nodup) :
  ((dropNullPairs pairs).lookup name).getD .null = ((pairs.lookup name).getD .null).dropNulls
  := by
  rw [lookup_dropNullPairs distinct]
  split
  · rename_i hnull
    rw [isNull_iff.mp hnull, dropNulls_null]
    rfl
  · rfl

/-- Nulls may be left out before or after a look-up. -/
theorem under_dropNulls {pairs : List (String × Value)} (distinct : (pairs.map Prod.fst).Nodup)
    (name : String) :
  (dropNulls (object pairs)).under name = ((object pairs).under name).dropNulls
  := by
  rw [dropNulls_object, under_object, under_object, getD_lookup_dropNullPairs distinct]

/-- Nulls of JSON data may be left out before or after a look-up. -/
theorem IsJson.under_dropNulls {v : Value} (h : IsJson v) (name : String) :
  v.dropNulls.under name = (v.under name).dropNulls
  := by
  cases v with
  | dict entries =>
    obtain ⟨pairs, rfl⟩ := h.exists_object
    exact Value.under_dropNulls ((isJson_object pairs).mp h).1 name
  | _ => simp [Value.dropNulls, Value.under]

theorem IsJson.dropNulls {v : Value} (h : IsJson v) :
  IsJson v.dropNulls
  := by
  induction v, h using jsonInduction with
  | onNull | onBool | onInt | onFloat | onText => simp [Value.dropNulls, IsJson]
  | onList vs h ih =>
    rw [dropNulls_list, isJson_list]
    intro w hw
    obtain ⟨v, hv, rfl⟩ := List.mem_map.mp hw
    exact ih v hv
  | onObject pairs distinct h ih =>
    rw [dropNulls_object, isJson_object]
    refine ⟨nodup_dropNullPairs distinct, ?_⟩
    rintro ⟨name, w⟩ hw
    obtain ⟨v, hv, -, rfl⟩ := mem_dropNullPairs.mp hw
    exact ih (name, v) hv

/-- Nulls are left out only once. -/
theorem dropNulls_dropNulls {v : Value} (h : IsJson v) :
  v.dropNulls.dropNulls = v.dropNulls
  := by
  induction v, h using jsonInduction with
  | onNull | onBool | onInt | onFloat | onText => simp [dropNulls]
  | onList vs h ih =>
    rw [dropNulls_list, dropNulls_list, List.map_map]
    congr 1
    exact List.map_congr_left ih
  | onObject pairs distinct h ih =>
    rw [dropNulls_object, dropNulls_object]
    congr 1
    have hall : (dropNullPairs pairs).filter (fun p => !p.2.isNull) = dropNullPairs pairs := by
      rw [List.filter_eq_self]
      rintro ⟨name, w⟩ hw
      obtain ⟨v, -, hne, rfl⟩ := mem_dropNullPairs.mp hw
      cases v <;> simp [dropNulls, isNull] at hne ⊢
    rw [dropNullPairs, hall, dropNullPairs, List.map_map]
    apply List.map_congr_left
    intro p hp
    simp only [Function.comp_apply]
    rw [ih p (List.mem_filter.mp hp).1]

/-! ### Dictionaries of the same names -/

/-- Named values are determined by their names and what is found under them. -/
theorem map_lookup {pairs : List (String × Value)} (distinct : (pairs.map Prod.fst).Nodup) :
  (pairs.map Prod.fst).map (fun name => (name, (pairs.lookup name).getD .null)) = pairs
  := by
  rw [List.map_map]
  conv_rhs => rw [← List.map_id pairs]
  apply List.map_congr_left
  intro p hp
  simp [Assoc.lookup_of_mem distinct hp]

/-- Nulls may be left out after the values were replaced. -/
theorem dropNullPairs_eq (pairs : List (String × Value)) :
  dropNullPairs pairs = (pairs.map fun p => (p.1, p.2.dropNulls)).filter fun p => !p.2.isNull
  := by
  have hnull (v : Value) : v.dropNulls.isNull = v.isNull := by
    rw [Bool.eq_iff_iff, isNull_iff, isNull_iff, dropNulls_eq_null]
  rw [List.filter_map, dropNullPairs]
  congr 1
  apply List.filter_congr
  intro p _
  simp [hnull]

/-- Dictionaries of the same names are the same without nulls when what they have under each
of the names is. -/
theorem dropNulls_object_congr {pairs others : List (String × Value)}
    (distinct : (pairs.map Prod.fst).Nodup) (names : others.map Prod.fst = pairs.map Prod.fst)
    (h : ∀ name ∈ pairs.map Prod.fst, ((pairs.lookup name).getD .null).dropNulls =
      ((others.lookup name).getD .null).dropNulls) :
  (object pairs).dropNulls = (object others).dropNulls
  := by
  have distinct' : (others.map Prod.fst).Nodup := by
    rw [names]
    exact distinct
  have hmap : (pairs.map fun p => (p.1, p.2.dropNulls)) =
      others.map fun p => (p.1, p.2.dropNulls) := by
    have hleft := congrArg (List.map fun p => (p.1, p.2.dropNulls)) (map_lookup distinct)
    have hright := congrArg (List.map fun p => (p.1, p.2.dropNulls)) (map_lookup distinct')
    rw [← hleft, ← hright, names]
    generalize pairs.map Prod.fst = shared at h
    rw [List.map_map, List.map_map]
    apply List.map_congr_left
    intro name hname
    simp [h name hname]
  rw [dropNulls_object, dropNulls_object, dropNullPairs_eq, dropNullPairs_eq, hmap]

theorem dropNullPairs_cons (p : String × Value) (pairs : List (String × Value)) :
  dropNullPairs (p :: pairs) =
    if p.2.isNull then dropNullPairs pairs
    else (p.1, p.2.dropNulls) :: dropNullPairs pairs
  := by
  rw [dropNullPairs, List.filter_cons]
  cases p.2.isNull <;> rfl

/-- Names that are missing make no more difference than nulls. -/
theorem dropNulls_complete {names : List String} {pairs : List (String × Value)}
    (distinct : names.Nodup) (h : (pairs.map Prod.fst).Sublist names) :
  (object (names.map fun name => (name, (pairs.lookup name).getD .null))).dropNulls =
    (object pairs).dropNulls
  := by
  rw [dropNulls_object, dropNulls_object]
  congr 1
  induction names generalizing pairs with
  | nil =>
    obtain rfl : pairs = [] := by simpa using h
    rfl
  | cons name names ih =>
    obtain ⟨hnew, hrest⟩ := List.nodup_cons.mp distinct
    rw [List.map_cons, dropNullPairs_cons]
    by_cases hmem : name ∈ pairs.map Prod.fst
    · cases pairs with
      | nil => simp at hmem
      | cons p pairs =>
        obtain ⟨rfl, hsub⟩ : p.1 = name ∧ (pairs.map Prod.fst).Sublist names := by
          rw [List.map_cons] at h
          cases h with
          | cons _ h => exact absurd (h.subset hmem) hnew
          | cons_cons _ h => exact ⟨rfl, h⟩
        have hlater : (names.map fun name => (name, ((p :: pairs).lookup name).getD .null)) =
            names.map fun name => (name, (pairs.lookup name).getD .null) := by
          apply List.map_congr_left
          intro name hmem
          have hne : (name == p.1) = false := by
            simpa using fun heq : name = p.1 => hnew (heq ▸ hmem)
          rw [List.lookup_cons, hne]
        rw [hlater, ih hrest hsub, dropNullPairs_cons, List.lookup_cons, beq_self_eq_true]
        rfl
    · have hsub : (pairs.map Prod.fst).Sublist names := by
        rw [List.sublist_cons_iff] at h
        obtain h | ⟨rest, heq, -⟩ := h
        · exact h
        · simp [heq] at hmem
      rw [Assoc.lookup_eq_none.mpr hmem, ih hrest hsub]
      rfl

/-! ### Merges -/

/-- A stored value after the patch for it, if there is one. -/
def absorb (v : Value) : Option Value → Value
  | none => v
  | some patch => v.merge patch

/-- Named values after a patch. -/
def mergePairs (stored patch : List (String × Value)) : List (String × Value) :=
  (stored.map fun p => (p.1, absorb p.2 (patch.lookup p.1))) ++
    patch.filter fun p => (stored.lookup p.1).isNone

/-- Named values after a patch, one after the other. -/
theorem mergeEntries_named {stored patch : List (String × Value)}
    (distinct : (stored.map Prod.fst).Nodup) (distinct' : (patch.map Prod.fst).Nodup) :
  mergeEntries (named stored) (named patch) = named (mergePairs stored patch)
  := by
  induction patch generalizing stored with
  | nil => simp [mergeEntries, mergePairs, absorb]
  | cons p patch ih =>
    obtain ⟨name, v⟩ := p
    rw [List.map_cons, List.nodup_cons] at distinct'
    obtain ⟨hname, hrest⟩ := distinct'
    have habsent : patch.lookup name = none := Assoc.lookup_eq_none.mpr hname
    rw [named_cons, mergeEntries, lookup_named]
    cases hfound : stored.lookup name with
    | none =>
      have hnot := Assoc.lookup_eq_none.mp hfound
      have hstored : (stored.map fun p => (p.1, absorb p.2 (patch.lookup p.1))) =
          stored.map fun p => (p.1, absorb p.2 (((name, v) :: patch).lookup p.1)) := by
        apply List.map_congr_left
        intro p hp
        rw [List.lookup_cons, Assoc.beq_of_not_mem hnot hp]
      have hpatch : (patch.filter fun p => ((stored ++ [(name, v)]).lookup p.1).isNone) =
          patch.filter fun p => (stored.lookup p.1).isNone := by
        apply List.filter_congr
        intro p hp
        rw [List.lookup_append, List.lookup_cons, Assoc.beq_of_not_mem hname hp]
        simp
      simp only
      rw [insert_named, Assoc.insert_of_not_mem v hnot, ih _ hrest]
      · rw [mergePairs, mergePairs, hpatch, List.map_append, hstored, List.filter_cons, hfound]
        simp [habsent, absorb]
      · rw [List.map_append, List.nodup_append]
        refine ⟨distinct, by simp, ?_⟩
        rintro x hx y hy rfl
        obtain rfl : x = name := by simpa using hy
        exact hnot hx
    | some old =>
      have hmem : name ∈ stored.map Prod.fst :=
        List.mem_map.mpr ⟨(name, old), Assoc.mem_of_lookup hfound, rfl⟩
      simp only
      rw [insert_named, ih _ hrest]
      · rw [mergePairs, mergePairs, List.filter_cons, hfound]
        simp only [Option.isNone_some, Bool.false_eq_true, if_false]
        congr 2
        · rw [Assoc.insert_of_mem _ hmem distinct, List.map_map]
          apply List.map_congr_left
          rintro ⟨other, w⟩ hw
          simp only [Function.comp_apply]
          by_cases heq : other = name
          · subst heq
            rw [Assoc.lookup_of_mem distinct hw] at hfound
            obtain rfl := Option.some.inj hfound
            simp [habsent, absorb]
          · have hne : (other == name) = false := by simpa using heq
            rw [hne, List.lookup_cons, hne]
            rfl
        · apply List.filter_congr
          intro p hp
          rw [Assoc.lookup_insert, Assoc.beq_of_not_mem hname hp]
          rfl
      · rw [Assoc.map_fst_insert_of_mem _ hmem]
        exact distinct

/-- The merge of two dictionaries of named values. -/
theorem merge_object {stored patch : List (String × Value)}
    (distinct : (stored.map Prod.fst).Nodup) (distinct' : (patch.map Prod.fst).Nodup) :
  (object stored).merge (object patch) = object (mergePairs stored patch)
  := by
  rw [object, object, merge, mergeEntries_named distinct distinct', object]

/-- A look-up after a merge. -/
theorem lookup_mergePairs (stored patch : List (String × Value)) (name : String) :
  (mergePairs stored patch).lookup name =
    match stored.lookup name with
    | some old => some (absorb old (patch.lookup name))
    | none => patch.lookup name
  := by
  have hmap : (stored.map fun p => (p.1, absorb p.2 (patch.lookup p.1))).lookup name =
      (stored.lookup name).map fun old => absorb old (patch.lookup name) := by
    induction stored with
    | nil => rfl
    | cons p stored ih =>
      obtain ⟨other, w⟩ := p
      rw [List.map_cons, List.lookup_cons, List.lookup_cons, ih]
      by_cases heq : name = other
      · subst heq
        simp
      · have hne : (name == other) = false := by simpa using heq
        simp [hne]
  rw [mergePairs, List.lookup_append, hmap]
  cases hfound : stored.lookup name with
  | some old => rfl
  | none =>
    have hfilter (ps : List (String × Value)) :
        (ps.filter fun p => (stored.lookup p.1).isNone).lookup name = ps.lookup name := by
      induction ps with
      | nil => rfl
      | cons p ps ih =>
        obtain ⟨other, w⟩ := p
        rw [List.filter_cons]
        by_cases heq : name = other
        · subst heq
          simp [hfound]
        · have hne : (name == other) = false := by simpa using heq
          split
          · rw [List.lookup_cons, List.lookup_cons, hne, ih]
          · rw [List.lookup_cons, hne, ih]
    rw [hfilter]
    rfl

/-- What is found, with a patch merged in. -/
def mergeInto (found : Option Value) (patch : Value) : Value :=
  match found with
  | some v => v.merge patch
  | none => patch

theorem null_merge (patch : Value) :
  null.merge patch = patch
  := by
  cases patch with
  | dict entries => simp [merge]
  | _ => rfl

/-- What is merged where there is nothing but null is put in. -/
theorem mergeInto_of_null {found : Option Value} (h : ∀ v ∈ found, v = .null) (patch : Value) :
  mergeInto found patch = patch
  := by
  cases found with
  | none => rfl
  | some v => rw [mergeInto, h v rfl, null_merge]

/-- A look-up after a merge, by what the patch has there. -/
theorem lookup_mergePairs_eq (stored patch : List (String × Value)) (name : String) :
  (mergePairs stored patch).lookup name =
    match patch.lookup name with
    | some v => some (mergeInto (stored.lookup name) v)
    | none => stored.lookup name
  := by
  rw [lookup_mergePairs]
  cases stored.lookup name <;> cases patch.lookup name <;> rfl

/-- The names after a merge: those that were there, and the new ones. -/
theorem map_fst_mergePairs (stored patch : List (String × Value)) :
  (mergePairs stored patch).map Prod.fst =
    stored.map Prod.fst ++ (patch.filter fun p => (stored.lookup p.1).isNone).map Prod.fst
  := by
  simp [mergePairs]

theorem nodup_mergePairs {stored patch : List (String × Value)}
    (distinct : (stored.map Prod.fst).Nodup) (distinct' : (patch.map Prod.fst).Nodup) :
  ((mergePairs stored patch).map Prod.fst).Nodup
  := by
  rw [map_fst_mergePairs, List.nodup_append]
  refine ⟨distinct, distinct'.sublist (List.filter_sublist.map _), ?_⟩
  rintro name hstored other hother rfl
  obtain ⟨p, hp, rfl⟩ := List.mem_map.mp hother
  have hnone : stored.lookup p.1 = none := by simpa using (List.mem_filter.mp hp).2
  exact Assoc.lookup_eq_none.mp hnone hstored

/-- A merge of JSON values is one. -/
theorem IsJson.merge {v w : Value} (hv : IsJson v) (hw : IsJson w) :
  IsJson (v.merge w)
  := by
  induction w, hw using jsonInduction generalizing v with
  | onNull | onBool | onInt | onFloat | onText => simp [Value.merge, IsJson]
  | onList vs h ih =>
    rw [Value.merge]
    · exact (isJson_list vs).mpr h
    · simp
  | onObject patch distinct h ih =>
    have hpatch : IsJson (object patch) := (isJson_object patch).mpr ⟨distinct, h⟩
    cases v with
    | dict entries =>
      obtain ⟨stored, rfl⟩ := hv.exists_object
      obtain ⟨distinct', hstored⟩ := (isJson_object stored).mp hv
      rw [← object, merge_object distinct' distinct, isJson_object]
      refine ⟨nodup_mergePairs distinct' distinct, ?_⟩
      intro q hq
      rw [mergePairs, List.mem_append] at hq
      obtain hq | hq := hq
      · obtain ⟨p, hp, rfl⟩ := List.mem_map.mp hq
        cases hfound : patch.lookup p.1 with
        | none => exact hstored p hp
        | some x => exact ih (p.1, x) (Assoc.mem_of_lookup hfound) (hstored p hp)
      · exact h q (List.mem_filter.mp hq).1
    | _ => exact hpatch

/-- A map with its own data merged in. -/
theorem merge_dropNulls_object {pairs : List (String × Value)}
    (distinct : (pairs.map Prod.fst).Nodup) :
  (object pairs).merge (object pairs).dropNulls =
    object (pairs.map fun p => (p.1, p.2.merge p.2.dropNulls))
  := by
  have hfilter : (dropNullPairs pairs).filter (fun p => (pairs.lookup p.1).isNone) = [] := by
    rw [List.filter_eq_nil_iff]
    intro p hp hnone
    have hmem := (map_fst_dropNullPairs_sublist pairs).subset (List.mem_map_of_mem hp)
    exact Assoc.lookup_eq_none.mp (Option.isNone_iff_eq_none.mp hnone) hmem
  rw [dropNulls_object, merge_object distinct (nodup_dropNullPairs distinct), mergePairs, hfilter,
    List.append_nil]
  congr 1
  apply List.map_congr_left
  intro p hp
  rw [lookup_dropNullPairs distinct, Assoc.lookup_of_mem distinct hp, Option.getD_some]
  split
  · rename_i hnull
    rw [isNull_iff.mp hnull]
    rfl
  · rfl

/-- To merge the data of a value into it changes no more than nulls. -/
theorem dropNulls_merge_dropNulls {v : Value} (h : v.IsJson) :
  (v.merge v.dropNulls).dropNulls = v.dropNulls
  := by
  induction v, h using jsonInduction with
  | onNull | onBool | onInt | onFloat | onText => simp [merge, dropNulls]
  | onList vs h ih =>
    have hlist := dropNulls_dropNulls ((isJson_list vs).mpr h)
    rw [dropNulls_list] at hlist ⊢
    rw [merge, hlist]
    simp
  | onObject pairs distinct h ih =>
    rw [merge_dropNulls_object distinct, dropNulls_object, dropNulls_object, dropNullPairs_eq,
      dropNullPairs_eq, List.map_map]
    congr 2
    apply List.map_congr_left
    intro p hp
    simp [ih p hp]

end Value

end Installation

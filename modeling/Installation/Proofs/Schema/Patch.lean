import Installation.Proofs.Gaps.Settled
import Installation.Proofs.Schema.Held
import Installation.Proofs.Schema.Path
import Installation.Proofs.Value.Patch

/-!
# What filled data keeps of a spec

Data that has grown, merged into the data that it was read from, keeps all paths of it:
`Grows.keeps`.  It has no entries besides its fields, `Shape.Modelled`, so that the entries that
are no fields stay as they are: `at?_merge`.  And no field that was given is read as something
else afterwards: `Shape.Retains`.
-/

namespace Installation

open Value

namespace Shape

/-! ### Paths are kept -/

/-- Only a map is read from a dictionary in the place of a field without fields of its own, and
it is read as it is. -/
theorem leaf_load_dict {shape : Shape} (hleaf : shape.isPart = false)
    {entries : List (Key × Value)} {r : Value} (h : shape.load (.dict entries) = .ok r) :
  r = .dict entries
  := by
  have hmap {raw : Bool} (h : loadMap raw (.dict entries) = .ok r) : r = .dict entries := by
    rw [loadMap] at h
    split at h
    · exact (Except.ok.inj h).symm
    · contradiction
  cases shape with
  | part required kind fields => contradiction
  | textMap => exact hmap h
  | rawMap => exact hmap h
  | _ => contradiction

/-- Data of a part keeps its paths under a patch of some of what its fields have grown to. -/
theorem part_keeps {required : Bool} {kind : Kind} {fields : List (Slot × Shape)}
    {stored patch pairs others : List (String × Value)} {r : Value}
    (hregular : regular (.part required kind fields)) (hjson : (object stored).IsJson)
    (hinert : inert (.part required kind fields) (object stored))
    (hload : load (.part required kind fields) (object stored) = .ok r)
    (ht : Travels (.part required kind fields) r (object pairs))
    (names : others.map Prod.fst = wires fields) (hsub : patch.Sublist (dropNullPairs others))
    (h : ∀ f ∈ fields, ∀ v x, stored.lookup f.1.wire = some v → f.2.load v = .ok x →
      Travels f.2 x ((pairs.lookup f.1.wire).getD .null) →
      (others.lookup f.1.wire).getD .null ≠ .null →
      Keeps v ((others.lookup f.1.wire).getD .null).dropNulls) :
  Keeps (object stored) (object patch)
  := by
  obtain ⟨distinct, hstored⟩ := (isJson_object stored).mp hjson
  have hnodup : ((dropNullPairs others).map Prod.fst).Nodup :=
    nodup_dropNullPairs (names ▸ (regularPart hregular).wires_nodup)
  have distinct' : (patch.map Prod.fst).Nodup := hnodup.sublist (hsub.map _)
  have hread := exists_of_load_travels hregular hjson hinert hload ht
  apply keeps_object distinct distinct'
  intro name v p hv hp
  have hmem : (name, p) ∈ dropNullPairs others := hsub.subset (Assoc.mem_of_lookup hp)
  have hname : name ∈ wires fields := by
    rw [← names]
    exact (map_fst_dropNullPairs_sublist others).subset (List.mem_map_of_mem hmem)
  obtain ⟨f, hf, rfl⟩ := List.mem_map.mp hname
  obtain ⟨x, hx, htravels⟩ := hread f hf
  rw [hv] at hx
  rw [under_object] at htravels
  have hfound := Assoc.lookup_of_mem hnodup hmem
  rw [lookup_dropNullPairs (names ▸ (regularPart hregular).wires_nodup)] at hfound
  split at hfound
  · contradiction
  · rename_i hgiven
    obtain rfl := Option.some.inj hfound
    exact h f hf v x hv hx htravels (mt isNull_iff.mpr hgiven)

/-- Data keeps its paths when what it has grown to is merged in. -/
theorem Grows.keeps {shape : Shape} {v r w w' : Value} (hregular : shape.regular)
    (hv : v.IsJson) (hinert : shape.inert v) (hload : shape.load v = .ok r)
    (ht : Travels shape r w) (h : Grows shape w w') (hgiven : w' ≠ .null) :
  Keeps v w'.dropNulls
  := by
  induction h generalizing v r with
  | @same shape leaf w =>
    by_cases hdict : ∃ entries, v = .dict entries
    · obtain ⟨entries, rfl⟩ := hdict
      obtain ⟨rfl, -⟩ := ht.leaf_eq leaf
      rw [leaf_load_dict leaf hload]
      exact keeps_dropNulls hv
    · exact keeps_of_not_dict (by simpa using hdict) _
  | text w s =>
    apply keeps_of_not_dict
    rintro entries rfl
    contradiction
  | null => contradiction
  | @added required kind fields others names h =>
    obtain rfl := ht.eq_null_iff.mpr rfl
    obtain ⟨rfl, -⟩ | ⟨stored, attrs, -, hrecord⟩ :=
      load_part_cases (regularPart hregular) hv hinert hload
    · exact keeps_of_not_dict (by simp) _
    · contradiction
  | @part required kind fields pairs others names names' h ih =>
    have hpart := regularPart hregular
    obtain ⟨-, rfl⟩ | ⟨stored, attrs, rfl, -⟩ := load_part_cases hpart hv hinert hload
    · exact absurd (ht.eq_null_iff.mp rfl) (by simp [object])
    obtain ⟨-, hjson⟩ := (isJson_object stored).mp hv
    obtain ⟨-, hfields⟩ := inert_object.mp hinert
    rw [dropNulls_object]
    apply part_keeps hregular hv hinert hload ht names' (List.Sublist.refl _)
    intro f hf x y hx hy htravels hother
    exact ih f hf (hpart.fields_regular f hf) (hjson _ (Assoc.mem_of_lookup hx))
      (hfields f hf x hx) hy htravels hother

/-! ### Entries that are no fields -/

/-- Whether data has no entries but those of fields, in all parts that it has. -/
inductive Modelled : Shape → Value → Prop
  | leaf {shape : Shape} (leaf : shape.isPart = false) (v : Value) : Modelled shape v
  | part {required : Bool} {kind : Kind} {fields : List (Slot × Shape)}
    {pairs : List (String × Value)} (distinct : (pairs.map Prod.fst).Nodup)
    (names : ∀ p ∈ pairs, p.1 ∈ wires fields)
    (h : ∀ f ∈ fields, ∀ v, pairs.lookup f.1.wire = some v → Modelled f.2 v) :
    Modelled (.part required kind fields) (object pairs)

/-- What travels has no entries but those of fields. -/
theorem Travels.modelled {shape : Shape} {r w : Value} (hregular : shape.regular)
    (h : Travels shape r w) (hgiven : w ≠ .null) :
  Modelled shape w.dropNulls
  := by
  induction h with
  | @leaf shape v fits =>
    apply Modelled.leaf
    cases shape with
    | part required kind fields => contradiction
    | _ => rfl
  | null => contradiction
  | @part required kind fields attrs pairs offered names h ih =>
    have hpart := regularPart hregular
    have distinct : (pairs.map Prod.fst).Nodup := names ▸ hpart.wires_nodup
    rw [dropNulls_object]
    refine .part (nodup_dropNullPairs distinct) (fun p hp => ?_) fun f hf v hv => ?_
    · rw [← names]
      exact (map_fst_dropNullPairs_sublist pairs).subset (List.mem_map_of_mem hp)
    · rw [lookup_dropNullPairs distinct] at hv
      split at hv
      · contradiction
      · rename_i hfield
        obtain rfl := Option.some.inj hv
        exact ih f hf (hpart.fields_regular f hf) (mt isNull_iff.mpr hfield)

/-- Some of the entries of such data. -/
theorem Modelled.sublist {required : Bool} {kind : Kind} {fields : List (Slot × Shape)}
    {patch pairs : List (String × Value)} (h : Modelled (.part required kind fields) (object pairs))
    (hsub : patch.Sublist pairs) :
  Modelled (.part required kind fields) (object patch)
  := by
  generalize hpairs : object pairs = v at h
  cases h with
  | leaf leaf => contradiction
  | part distinct names h =>
    obtain rfl := object_injective hpairs
    refine .part (distinct.sublist (hsub.map _)) (fun p hp => names p (hsub.subset hp)) ?_
    intro f hf v hv
    exact h f hf v (Assoc.lookup_of_mem distinct (hsub.subset (Assoc.mem_of_lookup hv)))

/-- A merge of data without entries that are no fields leaves alone all entries that are no
fields, whether they are there or not. -/
theorem at?_merge {shape : Shape} {v patch : Value} (hv : v.IsJson) (h : Modelled shape patch)
    {path : List String} {kind : Kind} {fields : List (Slot × Shape)}
    (hpath : shape.partAt? path = some (kind, fields)) {name : String}
    (hname : name ∉ wires fields) :
  (v.merge patch).at? (path ++ [name]) = v.at? (path ++ [name])
  := by
  induction path generalizing shape v patch with
  | nil =>
    obtain ⟨required, rfl⟩ := partAt?_nil hpath
    cases h with
    | leaf leaf => contradiction
    | @part _ _ _ pairs distinct names h =>
      obtain ⟨stored, -, -, hmerge, hat⟩ := exists_stored hv distinct
      have hnone : pairs.lookup name = none := by
        rw [Assoc.lookup_eq_none]
        intro hmem
        obtain ⟨p, hp, rfl⟩ := List.mem_map.mp hmem
        exact hname (names p hp)
      rw [hmerge, List.nil_append, hat, at?_object, at?_object, lookup_mergePairs_eq, hnone]
  | cons step path ih =>
    obtain ⟨required, owner, siblings, f, rfl, hf, rfl, hrest⟩ := partAt?_cons hpath
    cases h with
    | leaf leaf => contradiction
    | @part _ _ _ pairs distinct names h =>
      obtain ⟨stored, -, hstored, hmerge, hat⟩ := exists_stored hv distinct
      rw [hmerge, List.cons_append, hat, at?_object, at?_object, lookup_mergePairs_eq]
      cases hpatch : pairs.lookup f.1.wire with
      | none => rfl
      | some p =>
        have hfield := h f hf p hpatch
        cases hfound : stored.lookup f.1.wire with
        | some x => exact ih (hstored _ (Assoc.mem_of_lookup hfound)) hfield hrest
        | none =>
          -- what is put in is as good as merged into null
          have hnull := @ih f.2 .null p trivial hfield hrest
          have hempty : Value.null.at? (path ++ [name]) = none := by
            cases path with
            | nil => rfl
            | cons step path => rfl
          rw [null_merge, hempty] at hnull
          exact hnull

/-! ### Fields that were given -/

/-- Whether what was given for the fields of a record is the same in another record: nothing
but null and empty texts may have been replaced, and maps to values of any shape may differ in
nulls inside the values. -/
inductive Retains : Shape → Value → Value → Prop
  | vacant {shape : Shape} {v : Value} (h : v = .null ∨ v = .text "") (v' : Value) :
    Retains shape v v'
  | same {shape : Shape} (leaf : shape.isPart = false) (v : Value) : Retains shape v v
  | raw {v v' : Value} (h : v.dropNulls = v'.dropNulls) : Retains .rawMap v v'
  | part {required : Bool} {kind : Kind} {fields : List (Slot × Shape)}
    {attrs attrs' : List (String × Value)}
    (h : ∀ f ∈ fields, Retains f.2 (attrIn f.1.attr attrs) (attrIn f.1.attr attrs')) :
    Retains (.part required kind fields) (.record kind attrs) (.record kind attrs')

/-- Only in maps to values of any shape are there nulls. -/
theorem Fits.dropNulls_eq {shape : Shape} {v : Value} (h : shape.Fits v) (hraw : shape ≠ .rawMap) :
  v.dropNulls = v
  := by
  cases shape with
  | text =>
    obtain rfl | ⟨s, rfl⟩ := h
    all_goals simp
  | integer =>
    obtain rfl | ⟨i, rfl⟩ := h
    all_goals simp [dropNulls]
  | boolean =>
    obtain rfl | ⟨b, rfl⟩ := h
    all_goals simp [dropNulls]
  | textMap =>
    obtain rfl | ⟨pairs, rfl, -, htexts⟩ := h
    · simp
    · rw [dropNulls_object]
      congr 1
      have hall : pairs.filter (fun p => !p.2.isNull) = pairs := by
        rw [List.filter_eq_self]
        intro p hp
        obtain ⟨s, hs⟩ := htexts p hp
        simp [hs, isNull]
      rw [dropNullPairs, hall]
      conv_rhs => rw [← List.map_id pairs]
      apply List.map_congr_left
      rintro ⟨name, x⟩ hp
      obtain ⟨s, rfl⟩ := htexts _ hp
      simp
  | rawMap => contradiction
  | part required kind fields => contradiction

/-- A record that travels as data that has grown retains what was given. -/
theorem Grows.retains {shape : Shape} {r r' w w' w'' : Value} (hregular : shape.regular)
    (ht : Travels shape r w) (h : Grows shape w w') (hsame : SameData w' w'')
    (ht' : Travels shape r' w'') :
  Retains shape r r'
  := by
  induction h generalizing r r' w'' with
  | @same shape leaf w =>
    obtain ⟨rfl, hfits⟩ := ht.leaf_eq leaf
    obtain ⟨rfl, hfits'⟩ := ht'.leaf_eq leaf
    by_cases hraw : shape = .rawMap
    · subst hraw
      exact .raw hsame.eq
    · have heq := hsame.eq
      rw [hfits.dropNulls_eq hraw, hfits'.dropNulls_eq hraw] at heq
      exact heq ▸ .same leaf _
  | text w s gap =>
    obtain ⟨rfl, hfits⟩ := ht.leaf_eq rfl
    apply Retains.vacant
    obtain hnull | ⟨t, rfl⟩ := hfits
    · exact .inl hnull
    · right
      simpa [truthy] using gap
  | null => exact .vacant (.inl (ht.eq_null_iff.mpr rfl)) r'
  | added names h => exact .vacant (.inl (ht.eq_null_iff.mpr rfl)) r'
  | @part required kind fields pairs others names names' h ih =>
    have hgiven : r ≠ .null := mt ht.eq_null_iff.mp (by simp [object])
    have hgiven' : r' ≠ .null :=
      mt ht'.eq_null_iff.mp (mt hsame.null_iff.mpr (by simp [object]))
    have hfields (f : Slot × Shape) (hf : f ∈ fields) := ht.attrIn hgiven hf
    have hfields' (f : Slot × Shape) (hf : f ∈ fields) := ht'.attrIn hgiven' hf
    obtain ⟨attrs, rfl⟩ := exists_record ht hgiven
    obtain ⟨attrs', rfl⟩ := exists_record ht' hgiven'
    refine .part fun f hf => ?_
    have hfield := hfields f hf
    have hunder := hsame.under f.1.wire
    rw [under_object] at hfield hunder
    exact ih f hf ((regularPart hregular).fields_regular f hf) hfield hunder (hfields' f hf)

end Shape

end Installation

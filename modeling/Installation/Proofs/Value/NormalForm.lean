import Installation.Proofs.Value.Patch
import Installation.Proofs.Value.Rearranged

/-!
# Normal forms of JSON values

A value can be entered at a `Value.Hop`: a dictionary by a name, a list by a position.  What
hops lead to, `Value.reach?`, says what is where in a value, and with it what the two walks
through a value do.  To leave out nulls takes away the entries that are null and changes nothing
else, and to sort keys changes nothing but the order of entries.  Both come to an end after one
walk, and they can be done in either order: `normalForms`.
-/

namespace Installation

namespace Value

/-! ### Hops -/

/-- The way from a dictionary or a list to one of its parts. -/
inductive Hop where
  | name (name : String)
  | index (i : Nat)

/-- What a hop leads to. -/
def hop? : Hop → Value → Option Value
  | .name name, .dict entries => entryAt? name entries
  | .index i, .list vs => vs[i]?
  | _, _ => none

/-- What hops lead to, one after the other. -/
def reach? : List Hop → Value → Option Value
  | [], v => some v
  | hop :: hops, v => (hop? hop v).bind (reach? hops)

/-- Whether a value has no parts to hop to. -/
def IsLeaf : Value → Prop
  | .list _ | .dict _ => False
  | _ => True

@[simp]
theorem hop?_object (name : String) (pairs : List (String × Value)) :
  (object pairs).hop? (.name name) = pairs.lookup name
  := entryAt?_named name pairs

theorem reach?_append (hops others : List Hop) (v : Value) :
  v.reach? (hops ++ others) = (v.reach? hops).bind (reach? others)
  := by
  induction hops generalizing v with
  | nil => rfl
  | cons hop hops ih =>
    rw [List.cons_append, reach?, reach?, Option.bind_assoc]
    congr 1
    funext w
    exact ih w

theorem reach?_singleton (hop : Hop) (v : Value) :
  v.reach? [hop] = v.hop? hop
  := by
  rw [reach?]
  cases v.hop? hop <;> rfl

/-- What a hop into a JSON value comes to: into a dictionary by a name, or into a list by a
position. -/
theorem IsJson.hop?_cases {v w : Value} (hv : v.IsJson) {hop : Hop} (h : v.hop? hop = some w) :
  w.IsJson ∧
    ((∃ name pairs, hop = .name name ∧ v = object pairs ∧ (pairs.map Prod.fst).Nodup ∧
      pairs.lookup name = some w) ∨
    ∃ i vs, hop = .index i ∧ v = .list vs ∧ vs[i]? = some w)
  := by
  cases v with
  | dict entries =>
    obtain ⟨pairs, rfl⟩ := hv.exists_object
    obtain ⟨distinct, hpairs⟩ := (isJson_object pairs).mp hv
    cases hop with
    | name name =>
      have hfound : pairs.lookup name = some w := (hop?_object name pairs).symm.trans h
      exact ⟨hpairs _ (Assoc.mem_of_lookup hfound), .inl ⟨name, pairs, rfl, rfl, distinct, hfound⟩⟩
    | index i => simp [hop?] at h
  | list vs =>
    cases hop with
    | name name => simp [hop?] at h
    | index i =>
      exact ⟨(isJson_list vs).mp hv w (List.mem_of_getElem? h), .inr ⟨i, vs, rfl, rfl, h⟩⟩
  | _ => cases hop <;> simp [hop?] at h

theorem IsJson.reach? {v w : Value} (hv : v.IsJson) {hops : List Hop}
    (h : v.reach? hops = some w) :
  w.IsJson
  := by
  induction hops generalizing v with
  | nil =>
    obtain rfl := Option.some.inj h
    exact hv
  | cons hop hops ih =>
    obtain ⟨u, hu, hw⟩ := Option.bind_eq_some_iff.mp h
    exact ih (hv.hop?_cases hu).1 hw

/-! ### Where things are without nulls -/

section DropNulls

variable {v w : Value} (hv : v.IsJson) {hop : Hop} {hops : List Hop}

include hv

/-- What is no null under a name stays where it is. -/
theorem hop?_dropNulls (h : v.hop? hop = some w) (hw : ∀ name, hop = .name name → w ≠ .null) :
  v.dropNulls.hop? hop = some w.dropNulls
  := by
  obtain ⟨-, ⟨name, pairs, rfl, rfl, distinct, hfound⟩ | ⟨i, vs, rfl, rfl, hfound⟩⟩ :=
    hv.hop?_cases h
  · rw [dropNulls_object, hop?_object, lookup_dropNullPairs distinct, hfound, Option.getD_some,
      if_neg (mt isNull_iff.mp (hw name rfl))]
  · rw [dropNulls_list, hop?, List.getElem?_map, hfound, Option.map_some]

/-- What is there without nulls was there before, and was no null under a name. -/
theorem exists_of_hop?_dropNulls (h : v.dropNulls.hop? hop = some w) :
  ∃ u, v.hop? hop = some u ∧ u.dropNulls = w ∧ ∀ name, hop = .name name → u ≠ .null
  := by
  obtain ⟨-, ⟨name, pairs, rfl, heq, -, hfound⟩ | ⟨i, vs, rfl, heq, hfound⟩⟩ :=
    hv.dropNulls.hop?_cases h
  · cases v with
    | dict entries =>
      obtain ⟨all, rfl⟩ := hv.exists_object
      obtain ⟨distinct, -⟩ := (isJson_object all).mp hv
      rw [← object, dropNulls_object] at heq
      rw [← object_injective heq] at hfound
      obtain ⟨u, hu, hne, rfl⟩ := mem_dropNullPairs.mp (Assoc.mem_of_lookup hfound)
      refine ⟨u, ?_, rfl, fun _ _ => hne⟩
      exact (hop?_object name all).trans (Assoc.lookup_of_mem distinct hu)
    | _ => simp [dropNulls, object] at heq
  · cases v with
    | list all =>
      rw [dropNulls_list, list.injEq] at heq
      rw [← heq, List.getElem?_map] at hfound
      obtain ⟨u, hu, rfl⟩ := Option.map_eq_some_iff.mp hfound
      exact ⟨u, hu, rfl, by simp⟩
    | _ => simp [dropNulls] at heq

/-- What is no null under a name is reached by the same hops. -/
theorem reach?_dropNulls (h : v.reach? hops = some w)
    (hw : w = .null → ∀ front name, hops ≠ front ++ [.name name]) :
  v.dropNulls.reach? hops = some w.dropNulls
  := by
  induction hops generalizing v with
  | nil =>
    obtain rfl := Option.some.inj h
    rfl
  | cons hop hops ih =>
    obtain ⟨u, hu, hrest⟩ := Option.bind_eq_some_iff.mp h
    have hfirst : ∀ name, hop = .name name → u ≠ .null := by
      rintro name rfl rfl
      -- A null leads nowhere, so that it would be what is reached.
      cases hops with
      | nil => exact hw (Option.some.inj hrest).symm [] name rfl
      | cons next hops => cases next <;> simp [reach?, hop?] at hrest
    rw [reach?, hop?_dropNulls hv hu hfirst, Option.bind_some]
    apply ih (hv.hop?_cases hu).1 hrest
    rintro hnull front name rfl
    exact hw hnull (hop :: front) name rfl

/-- What is reached without nulls was reached before. -/
theorem exists_of_reach?_dropNulls (h : v.dropNulls.reach? hops = some w) :
  ∃ u, v.reach? hops = some u ∧ u.dropNulls = w
  := by
  induction hops generalizing v with
  | nil => exact ⟨v, rfl, Option.some.inj h⟩
  | cons hop hops ih =>
    obtain ⟨x, hx, hrest⟩ := Option.bind_eq_some_iff.mp h
    obtain ⟨y, hy, rfl, -⟩ := exists_of_hop?_dropNulls hv hx
    obtain ⟨u, hu, heq⟩ := ih (hv.hop?_cases hy).1 hrest
    refine ⟨u, ?_, heq⟩
    rw [reach?, hy, Option.bind_some, hu]

end DropNulls

/-- Whether a value is another one without the null entries of its dictionaries, and as it was
apart from that: lists keep their lengths, dictionaries keep their other names in order, and what
is not null under a name, or is an element of a list, stays where it is. -/
structure Stripped (v w : Value) : Prop where
  noNull : ∀ hops name, w.reach? (hops ++ [.name name]) ≠ some .null
  list : ∀ hops vs, v.reach? hops = some (.list vs) →
    ∃ ws, w.reach? hops = some (.list ws) ∧ ws.length = vs.length
  object : ∀ hops pairs, v.reach? hops = some (object pairs) →
    ∃ kept, w.reach? hops = some (Value.object kept) ∧
      kept.map Prod.fst = (pairs.filter fun p => !p.2.isNull).map Prod.fst
  leaf : ∀ hops x, x.IsLeaf → v.reach? hops = some x →
    (x = .null → ∀ front name, hops ≠ front ++ [.name name]) → w.reach? hops = some x

theorem dropNulls_leaf {v : Value} (h : v.IsLeaf) :
  v.dropNulls = v
  := by
  cases v with
  | list vs | dict entries => exact h.elim
  | _ => simp [dropNulls]

theorem stripped_dropNulls {v : Value} (hv : v.IsJson) :
  Stripped v v.dropNulls
  := by
  constructor
  · intro hops name h
    rw [reach?_append] at h
    obtain ⟨x, hx, hlast⟩ := Option.bind_eq_some_iff.mp h
    obtain ⟨u, hu, rfl⟩ := exists_of_reach?_dropNulls hv hx
    rw [reach?_singleton] at hlast
    obtain ⟨y, -, hnull, hne⟩ := exists_of_hop?_dropNulls (hv.reach? hu) hlast
    exact hne name rfl (dropNulls_eq_null.mp hnull)
  · intro hops vs h
    refine ⟨vs.map dropNulls, ?_, List.length_map _⟩
    rw [reach?_dropNulls hv h (by simp), dropNulls_list]
  · intro hops pairs h
    refine ⟨dropNullPairs pairs, ?_, ?_⟩
    · rw [reach?_dropNulls hv h (by simp [Value.object]), dropNulls_object]
    · rw [dropNullPairs, List.map_map]
      rfl
  · intro hops x hleaf h hlast
    rw [reach?_dropNulls hv h hlast, dropNulls_leaf hleaf]

/-! ### Where things are with sorted names -/

/-- A hop leads to the same part with its names sorted. -/
theorem hop?_ordered {v : Value} (hv : v.IsJson) (hop : Hop) :
  v.ordered.hop? hop = (v.hop? hop).map ordered
  := by
  cases v with
  | dict entries =>
    obtain ⟨pairs, rfl⟩ := hv.exists_object
    obtain ⟨distinct, -⟩ := (isJson_object pairs).mp hv
    rw [← object, ordered_object_eq]
    cases hop with
    | name name => rw [hop?_object, hop?_object, lookup_sortByText_orderedPairs distinct]
    | index i => rfl
  | list vs =>
    rw [ordered_list]
    cases hop with
    | name name => rfl
    | index i => rw [hop?, hop?, List.getElem?_map]
  | _ => cases hop <;> simp [ordered, hop?]

/-- Hops lead to the same part with its names sorted. -/
theorem reach?_ordered {v : Value} (hv : v.IsJson) (hops : List Hop) :
  v.ordered.reach? hops = (v.reach? hops).map ordered
  := by
  induction hops generalizing v with
  | nil => rfl
  | cons hop hops ih =>
    rw [reach?, reach?, hop?_ordered hv]
    cases hhop : v.hop? hop with
    | none => rfl
    | some w => exact ih (hv.hop?_cases hhop).1

/-- Whether the names of all dictionaries in a value ascend strictly. -/
def InOrder (v : Value) : Prop :=
  ∀ hops entries, v.reach? hops = some (.dict entries) →
    ∃ pairs, entries = named pairs ∧ Ascending pairs

theorem inOrder_ordered {v : Value} (hv : v.IsJson) :
  v.ordered.InOrder
  := by
  intro hops entries h
  rw [reach?_ordered hv] at h
  obtain ⟨w, hw, hordered⟩ := Option.map_eq_some_iff.mp h
  cases w with
  | dict original =>
    have hjson := hv.reach? hw
    obtain ⟨pairs, rfl⟩ := hjson.exists_object
    obtain ⟨distinct, -⟩ := (isJson_object pairs).mp hjson
    rw [← object, ordered_object_eq, object, dict.injEq] at hordered
    refine ⟨_, hordered.symm, ascending_sortByText ?_⟩
    rw [map_fst_orderedPairs]
    exact distinct
  | _ => simp [ordered] at hordered

/-! ### The order of entries -/

/-- Whether an entry comes before another one as a pair: by their keys if these differ, and
otherwise by their values, in whatever way those compare. -/
def pairLess (less : Value → Value → Except Fault Bool) (e f : Key × Value) :
    Except Fault Bool :=
  if e.1.same f.1 then less e.2 f.2 else e.1.less f.1

/-- Entries under different names compare by these alone. -/
theorem pairLess_of_ne (less : Value → Value → Except Fault Bool) {p q : String × Value}
    (h : p.1 ≠ q.1) :
  pairLess less (.text p.1, p.2) (.text q.1, q.2) = .ok (decide (p.1 < q.1))
  := by
  have hsame : Key.same (.text p.1) (.text q.1) = false := by
    rw [Key.same]
    simpa using h
  rw [pairLess, hsame]
  rfl

/-- Entries under distinct names have one order in which they ascend as pairs, without a tie and
without a look at their values, and this is the one that sorting gives. -/
theorem sortEntries_named_iff {pairs : List (String × Value)}
    (distinct : (pairs.map Prod.fst).Nodup) (less : Value → Value → Except Fault Bool)
    (es : List (Key × Value)) :
  sortEntries (named pairs) = .ok es ↔
    es.Perm (named pairs) ∧ es.Pairwise fun e f => pairLess less e f = .ok true
  := by
  have hsort : sortEntries (named pairs) = .ok (named (sortByText pairs)) := by
    rw [sortEntries, textEntries?_named]
    rfl
  have hnames {others : List (String × Value)} (perm : pairs.Perm others) :
      others.Pairwise fun p q => p.1 ≠ q.1 :=
    List.pairwise_map.mp ((perm.map Prod.fst).nodup_iff.mp distinct)
  rw [hsort, Except.ok.injEq]
  constructor
  · rintro rfl
    have hperm := sortByText_perm pairs
    refine ⟨hperm.map _, List.pairwise_map.mpr ?_⟩
    apply (ascending_sortByText distinct).imp₂ _ (hnames hperm.symm)
    intro p q hlt hne
    rw [pairLess_of_ne less hne, decide_eq_true hlt]
  · rintro ⟨hperm, hascending⟩
    obtain ⟨others, rfl, hothers⟩ := perm_named hperm.symm
    congr 1
    apply (ascending_sortByText distinct).eq_of_perm _ ((sortByText_perm pairs).trans hothers)
    apply (List.pairwise_map.mp hascending).imp₂ _ (hnames hothers)
    intro p q hless hne
    rw [pairLess_of_ne less hne, Except.ok.injEq] at hless
    exact of_decide_eq_true hless

/-! ### Normal forms -/

/-- Leaving out nulls takes the null entries out of a JSON value, at every depth, changes nothing
else, and does so once and for all.  Sorting keys does not fail: the entries of each dictionary
have one ascending order, to which exchanges of neighbours lead, so that the result is in order
at every depth, is not changed by sorting again, and is shared by all values that are equal up to
the order of entries and by no others.  Nulls may be left out before or after keys are sorted. -/
theorem normalForms {v : Value} (hv : v.IsJson) :
  Stripped v v.dropNulls ∧ v.dropNulls.dropNulls = v.dropNulls ∧
  (∀ hops pairs less es, v.reach? hops = some (object pairs) →
    (sortEntries (named pairs) = .ok es ↔
      es.Perm (named pairs) ∧ es.Pairwise fun e f => pairLess less e f = .ok true)) ∧
  ∃ w, v.sortKeys = .ok w ∧ w.InOrder ∧ Rearranged v w ∧ w.sortKeys = .ok w ∧
    (∀ u, Rearranged v u ↔ u.IsJson ∧ u.sortKeys = .ok w) ∧
    v.dropNulls.sortKeys = .ok w.dropNulls
  := by
  have hsorted := rearranged_ordered hv
  obtain ⟨hjson, hsame⟩ := hsorted.reordered hv
  constructor
  · exact stripped_dropNulls hv
  constructor
  · exact dropNulls_dropNulls hv
  constructor
  · intro hops pairs less es h
    exact sortEntries_named_iff ((isJson_object pairs).mp (hv.reach? h)).1 less es
  use v.ordered
  refine ⟨sortKeys_eq hv, inOrder_ordered hv, hsorted, ?_, ?_, ?_⟩
  · rw [sortKeys_eq hjson, ← hsame]
  · intro u
    constructor
    · intro h
      obtain ⟨hu, hsame⟩ := h.reordered hv
      exact ⟨hu, by rw [sortKeys_eq hu, hsame]⟩
    · rintro ⟨hu, h⟩
      rw [sortKeys_eq hu, Except.ok.injEq] at h
      exact (rearranged_iff hv hu).mpr h.symm
  · rw [sortKeys_eq hv.dropNulls, dropNulls_ordered hv]

/-- A dictionary with a null under a name, one in a list, and one further down. -/
def tangled : Value :=
  object
    [("b", .list [.null, object [("y", .int 1), ("x", .null), ("w", .int 2)]]), ("c", .null),
     ("a", .text "z")]

theorem tangled_isJson :
  tangled.IsJson
  := by
  simp [tangled, isJson_object, IsJson, areJson_iff]

theorem normalForms_tangled :
  tangled.IsJson ∧ Stripped tangled tangled.dropNulls ∧
    tangled.dropNulls =
      object
        [("b", .list [.null, object [("y", .int 1), ("w", .int 2)]]), ("a", .text "z")] ∧
    ∃ w, tangled.sortKeys = .ok w ∧ w.InOrder ∧ Rearranged tangled w ∧
      tangled.dropNulls.sortKeys = .ok w.dropNulls ∧
      w = object
        [("a", .text "z"),
         ("b", .list [.null, object [("w", .int 2), ("x", .null), ("y", .int 1)]]),
         ("c", .null)]
  := by
  obtain ⟨hstripped, -, -, w, hw, hordered, hrearranged, -, -, hcommute⟩ :=
    normalForms tangled_isJson
  have hsorted : tangled.ordered = object
      [("a", .text "z"),
       ("b", .list [.null, object [("w", .int 2), ("x", .null), ("y", .int 1)]]),
       ("c", .null)] := rfl
  refine ⟨tangled_isJson, hstripped, ?_, w, hw, hordered, hrearranged, hcommute, ?_⟩
  · simp [tangled, dropNullPairs, isNull, dropNulls, dropNullsAll]
  · rw [sortKeys_eq tangled_isJson, Except.ok.injEq] at hw
    exact hw.symm.trans hsorted

end Value

end Installation

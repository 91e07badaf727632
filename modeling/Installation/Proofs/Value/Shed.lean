import Installation.Proofs.Value.Entries

/-!
# Leaving out a null

A value sheds a null when one entry of a dictionary whose value is null is left out, at any depth
of dictionaries and lists.  Without its nulls the value is the same before and after:
`Sheds.dropNulls_eq`.
-/

namespace Installation

namespace Value

/-- When a dictionary with one entry in the midst of others is JSON. -/
theorem isJson_middle {front back : List (String × Value)} {name : String} {v : Value} :
  IsJson (object (front ++ (name, v) :: back)) ↔
    name ∉ (front ++ back).map Prod.fst ∧ IsJson v ∧ IsJson (object (front ++ back))
  := by
  rw [isJson_object, isJson_object, List.map_append, List.map_cons, List.nodup_middle,
    List.nodup_cons, ← List.map_append, List.forall_mem_append, List.forall_mem_cons,
    List.forall_mem_append]
  tauto

/-- Whether a value is another one without one of the nulls in its dictionaries. -/
inductive Sheds : Value → Value → Prop
  | here (front : List (String × Value)) (name : String) (back : List (String × Value)) :
    Sheds (object (front ++ (name, .null) :: back)) (object (front ++ back))
  | entry (front : List (String × Value)) (name : String) {v w : Value} (h : Sheds v w)
    (back : List (String × Value)) :
    Sheds (object (front ++ (name, v) :: back)) (object (front ++ (name, w) :: back))
  | element (front : List Value) {v w : Value} (h : Sheds v w) (back : List Value) :
    Sheds (.list (front ++ v :: back)) (.list (front ++ w :: back))

variable {v w : Value} (h : Sheds v w)

include h

/-- A null has none to shed, and none is left of a dictionary or a list. -/
theorem Sheds.ne_null :
  v ≠ .null ∧ w ≠ .null
  := by
  cases h with
  | here | entry => simp [object]
  | element => simp

theorem Sheds.isJson (hv : v.IsJson) :
  w.IsJson
  := by
  induction h with
  | here front name back => exact (isJson_middle.mp hv).2.2
  | entry front name h back ih =>
    obtain ⟨hnew, hv, hrest⟩ := isJson_middle.mp hv
    exact isJson_middle.mpr ⟨hnew, ih hv, hrest⟩
  | element front h back ih =>
    rw [isJson_list, List.forall_mem_append, List.forall_mem_cons] at hv ⊢
    obtain ⟨hfront, hv, hback⟩ := hv
    exact ⟨hfront, ih hv, hback⟩

/-- Nulls that are shed are left out with the others. -/
theorem Sheds.dropNulls_eq :
  v.dropNulls = w.dropNulls
  := by
  have happend (front back : List (String × Value)) :
      dropNullPairs (front ++ back) = dropNullPairs front ++ dropNullPairs back := by
    simp [dropNullPairs]
  induction h with
  | here front name back =>
    rw [dropNulls_object, dropNulls_object, happend, happend, dropNullPairs_cons]
    rfl
  | @entry front name v w h back ih =>
    obtain ⟨hv, hw⟩ := h.ne_null
    rw [dropNulls_object, dropNulls_object, happend, happend, dropNullPairs_cons,
      dropNullPairs_cons, if_neg (mt isNull_iff.mp hv), if_neg (mt isNull_iff.mp hw), ih]
  | element front h back ih =>
    rw [dropNulls_list, dropNulls_list, List.map_append, List.map_append, List.map_cons,
      List.map_cons, ih]

end Value

end Installation

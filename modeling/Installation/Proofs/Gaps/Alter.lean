import Installation.Proofs.Association
import Installation.Value.Basic

/-!
# Attributes that are replaced

Filling the gaps of a record replaces some of its attributes by what becomes of them.
`alterAttr` does so with one attribute, whether it is set or not, and `alterAttrs` with several
ones in turn.  What is replaced twice could have been replaced once, and rounds of
replacements of the same attributes are one round: `alterAttrs_alterAttrs`.
-/

namespace Installation

/-- The attributes of a record; none where there is no record. -/
def Value.attrs : Value → List (String × Value)
  | .record _ attrs => attrs
  | _ => []

@[simp]
theorem Value.attrs_record (kind : Kind) (attrs : List (String × Value)) :
  (record kind attrs).attrs = attrs
  := rfl

/-- The value of an attribute, null where it is not set. -/
def attrIn (name : String) (attrs : List (String × Value)) : Value :=
  (attrs.lookup name).getD .null

/-- Attributes with one of them replaced by what becomes of it. -/
def alterAttr (name : String) (f : Value → Value) (attrs : List (String × Value)) :
    List (String × Value) :=
  Assoc.insert name (f (attrIn name attrs)) attrs

/-- Attributes with several ones replaced in turn. -/
def alterAttrs (steps : List (String × (Value → Value))) (attrs : List (String × Value)) :
    List (String × Value) :=
  steps.foldl (fun attrs step => alterAttr step.1 step.2 attrs) attrs

section Alter

variable (name other : String) (f g : Value → Value) (attrs : List (String × Value))

@[simp]
theorem alterAttrs_nil :
  alterAttrs [] attrs = attrs
  := rfl

@[simp]
theorem alterAttrs_cons (step : String × (Value → Value))
    (steps : List (String × (Value → Value))) :
  alterAttrs (step :: steps) attrs = alterAttrs steps (alterAttr step.1 step.2 attrs)
  := rfl

theorem alterAttrs_append (steps others : List (String × (Value → Value))) :
  alterAttrs (steps ++ others) attrs = alterAttrs others (alterAttrs steps attrs)
  := List.foldl_append ..

/-- What is read is what the attribute was replaced by. -/
@[simp]
theorem attrIn_alterAttr :
  attrIn name (alterAttr name f attrs) = f (attrIn name attrs)
  := by
  rw [attrIn, alterAttr, Assoc.lookup_insert, beq_self_eq_true]
  rfl

variable {name other}

/-- Other attributes stay as they are. -/
theorem lookup_insert_ne (h : other ≠ name) (v : Value) :
  (Assoc.insert name v attrs).lookup other = attrs.lookup other
  := by
  have hne : (other == name) = false := by simpa using h
  rw [Assoc.lookup_insert, hne]
  rfl

theorem lookup_alterAttr_ne (h : other ≠ name) :
  (alterAttr name f attrs).lookup other = attrs.lookup other
  := lookup_insert_ne attrs h _

theorem attrIn_insert_ne (h : other ≠ name) (v : Value) :
  attrIn other (Assoc.insert name v attrs) = attrIn other attrs
  := by
  rw [attrIn, lookup_insert_ne attrs h, attrIn]

theorem attrIn_alterAttr_ne (h : other ≠ name) :
  attrIn other (alterAttr name f attrs) = attrIn other attrs
  := attrIn_insert_ne attrs h _

/-- An attribute that is left as it is, and is not null, changes nothing. -/
theorem alterAttr_of_given {attrs : List (String × Value)}
    (hf : f (attrIn name attrs) = attrIn name attrs) (hgiven : attrIn name attrs ≠ .null) :
  alterAttr name f attrs = attrs
  := by
  rw [alterAttr, hf]
  rw [attrIn] at hgiven ⊢
  cases hfound : attrs.lookup name with
  | none => simp [hfound] at hgiven
  | some v => exact Assoc.insert_of_lookup hfound

/-- What an attribute is replaced by twice. -/
theorem alterAttr_alterAttr :
  alterAttr name g (alterAttr name f attrs) = alterAttr name (fun v => g (f v)) attrs
  := by
  rw [alterAttr, attrIn_alterAttr, alterAttr, Assoc.insert_insert, alterAttr]

/-- Two attributes are replaced in either order, if one of them is set already. -/
theorem alterAttr_comm {attrs : List (String × Value)} (hne : name ≠ other)
    (hset : name ∈ attrs.map Prod.fst) :
  alterAttr name g (alterAttr other f attrs) = alterAttr other f (alterAttr name g attrs)
  := by
  rw [alterAttr, attrIn_alterAttr_ne f attrs hne, alterAttr,
    Assoc.insert_comm_of_mem _ _ hne hset, alterAttr, attrIn_alterAttr_ne g attrs hne.symm,
    alterAttr]

theorem mem_alterAttr {attrs : List (String × Value)}
    (hset : name ∈ attrs.map Prod.fst ∨ name = other) :
  name ∈ (alterAttr other f attrs).map Prod.fst
  := by
  rw [alterAttr, Assoc.mem_map_fst_insert]
  exact hset.symm

end Alter

section Steps

variable {name : String} {steps : List (String × (Value → Value))}

/-- Attributes that no step replaces stay as they are. -/
theorem lookup_alterAttrs_of_not_mem (h : name ∉ steps.map Prod.fst)
    (attrs : List (String × Value)) :
  (alterAttrs steps attrs).lookup name = attrs.lookup name
  := by
  induction steps generalizing attrs with
  | nil => rfl
  | cons step steps ih =>
    rw [List.map_cons, List.mem_cons, not_or] at h
    rw [alterAttrs_cons, ih h.2, lookup_alterAttr_ne _ _ h.1]

/-- What is found of an attribute that only one of the steps replaces. -/
theorem lookup_alterAttrs {f : Value → Value} (hf : (name, f) ∈ steps)
    (distinct : (steps.map Prod.fst).Nodup) (attrs : List (String × Value)) :
  (alterAttrs steps attrs).lookup name = some (f (attrIn name attrs))
  := by
  induction steps generalizing attrs with
  | nil => simp at hf
  | cons step steps ih =>
    rw [List.map_cons, List.nodup_cons] at distinct
    obtain ⟨hnew, hrest⟩ := distinct
    rw [alterAttrs_cons]
    obtain rfl | hlater := List.mem_cons.mp hf
    · rw [lookup_alterAttrs_of_not_mem hnew, alterAttr, Assoc.lookup_insert, beq_self_eq_true]
      rfl
    · have hne : name ≠ step.1 := by
        rintro rfl
        exact hnew (List.mem_map.mpr ⟨_, hlater, rfl⟩)
      rw [ih hlater hrest, attrIn_alterAttr_ne _ _ hne]

/-- What is found of an attribute is what it was, or what a step has replaced it by. -/
theorem lookup_alterAttrs_cases (distinct : (steps.map Prod.fst).Nodup) (name : String)
    (attrs : List (String × Value)) :
  (name ∉ steps.map Prod.fst ∧ (alterAttrs steps attrs).lookup name = attrs.lookup name) ∨
  ∃ f, (name, f) ∈ steps ∧ (alterAttrs steps attrs).lookup name = some (f (attrIn name attrs))
  := by
  by_cases hname : name ∈ steps.map Prod.fst
  · obtain ⟨step, hstep, rfl⟩ := List.mem_map.mp hname
    exact .inr ⟨step.2, hstep, lookup_alterAttrs hstep distinct attrs⟩
  · exact .inl ⟨hname, lookup_alterAttrs_of_not_mem hname attrs⟩

/-- Steps that leave given attributes as they are change nothing. -/
theorem alterAttrs_of_given {attrs : List (String × Value)}
    (h : ∀ step ∈ steps, step.2 (attrIn step.1 attrs) = attrIn step.1 attrs ∧
      attrIn step.1 attrs ≠ .null) :
  alterAttrs steps attrs = attrs
  := by
  induction steps with
  | nil => rfl
  | cons step steps ih =>
    rw [List.forall_mem_cons] at h
    rw [alterAttrs_cons, alterAttr_of_given _ h.1.1 h.1.2]
    exact ih h.2

/-- What an attribute is replaced by that only one of the steps replaces. -/
theorem attrIn_alterAttrs {f : Value → Value} (hf : (name, f) ∈ steps)
    (distinct : (steps.map Prod.fst).Nodup) (attrs : List (String × Value)) :
  attrIn name (alterAttrs steps attrs) = f (attrIn name attrs)
  := by
  rw [attrIn, lookup_alterAttrs hf distinct, Option.getD_some]

/-- An attribute that is set already may be replaced before or after others. -/
theorem alterAttr_alterAttrs (h : name ∉ steps.map Prod.fst) (g : Value → Value)
    {attrs : List (String × Value)} (hset : name ∈ attrs.map Prod.fst) :
  alterAttr name g (alterAttrs steps attrs) = alterAttrs steps (alterAttr name g attrs)
  := by
  induction steps generalizing attrs with
  | nil => rfl
  | cons step steps ih =>
    rw [List.map_cons, List.mem_cons, not_or] at h
    rw [alterAttrs_cons, alterAttrs_cons, ih h.2 (mem_alterAttr _ (.inl hset)),
      alterAttr_comm _ _ h.1 hset]

/-- Two rounds of replacements of the same attributes are one round. -/
theorem alterAttrs_alterAttrs (steps : List (String × (Value → Value) × (Value → Value)))
    (distinct : (steps.map fun step => step.1).Nodup) (attrs : List (String × Value)) :
  alterAttrs (steps.map fun step => (step.1, step.2.2))
      (alterAttrs (steps.map fun step => (step.1, step.2.1)) attrs) =
    alterAttrs (steps.map fun step => (step.1, fun v => step.2.2 (step.2.1 v))) attrs
  := by
  induction steps generalizing attrs with
  | nil => rfl
  | cons step steps ih =>
    rw [List.map_cons, List.nodup_cons] at distinct
    obtain ⟨hnew, hrest⟩ := distinct
    have hlater : step.1 ∉
        (steps.map fun step => (step.1, step.2.1)).map Prod.fst := by
      rw [List.map_map]
      exact hnew
    simp only [List.map_cons, alterAttrs_cons]
    rw [alterAttr_alterAttrs hlater _ (mem_alterAttr _ (.inr rfl)), ih hrest,
      alterAttr_alterAttr]

end Steps

end Installation

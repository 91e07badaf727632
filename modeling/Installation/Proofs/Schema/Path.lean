import Installation.Proofs.Schema.Load

/-!
# Paths in data

Paths of field names lead from part to part.  Data with one more entry put in at the end of a
path agrees in all fields with the data before, provided that the entry is no field there:
`agree_putAt`.  It is inert when it was before and the entry stands in nobody's way:
`inert_putAt`.  All `parts` that paths lead to can be listed: `mem_parts`.
-/

namespace Installation

namespace Value

/-- What is at the end of a path of names. -/
def along : List String → Value → Value
  | [], v => v
  | step :: path, v => along path (v.under step)

/-- A value with an entry set in the dictionary at the end of a path of names. -/
def putAt (name : String) (x : Value) : List String → Value → Value
  | [], v => v.setEntry name x
  | step :: path, v => v.setEntry step (putAt name x path (v.under step))

theorem IsJson.setEntry {v x : Value} (hv : IsJson v) (hx : IsJson x) (name : String) :
  IsJson (v.setEntry name x)
  := by
  cases v with
  | dict es =>
    obtain ⟨pairs, rfl⟩ := hv.exists_object
    obtain ⟨distinct, hpairs⟩ := (isJson_object pairs).mp hv
    rw [← object, setEntry_object, isJson_object]
    refine ⟨Assoc.nodup_insert _ _ distinct, fun p hp => ?_⟩
    obtain rfl | hold := Assoc.mem_insert hp
    · exact hx
    · exact hpairs p hold
  | _ => exact hv

theorem IsJson.putAt {v x : Value} (hv : IsJson v) (hx : IsJson x) (name : String)
    (path : List String) :
  IsJson (putAt name x path v)
  := by
  induction path generalizing v with
  | nil => exact hv.setEntry hx name
  | cons step path ih => exact hv.setEntry (ih (hv.under step)) step

theorem along_null (path : List String) :
  along path null = null
  := by
  induction path with
  | nil => rfl
  | cons step path ih => exact ih

/-- What leads on to a dictionary is an entry of one. -/
theorem exists_of_along {step : String} {path : List String} {v : Value}
    (h : ∃ es, along (step :: path) v = .dict es) :
  ∃ es, v = .dict es ∧ entryAt? step es = some (v.under step)
  := by
  have hgiven : v.under step ≠ .null := by
    intro hnull
    rw [along, hnull, along_null] at h
    simp at h
  obtain ⟨es, rfl⟩ := exists_dict_of_under hgiven
  refine ⟨es, rfl, ?_⟩
  rw [under] at hgiven ⊢
  cases hfound : entryAt? step es with
  | none => simp [hfound] at hgiven
  | some x => rfl

end Value

open Value

namespace Shape

/-- The kind and the fields of the part at the end of a path of names. -/
def partAt? : List String → Shape → Option (Kind × List (Slot × Shape))
  | [], .part _ kind fields => some (kind, fields)
  | step :: path, .part _ _ fields =>
    (fields.find? fun f => f.1.wire == step).bind fun f => partAt? path f.2
  | _, _ => none

section Path

variable {shape : Shape} {kind : Kind} {fields : List (Slot × Shape)} {step : String}
  {path : List String}

theorem partAt?_nil (h : shape.partAt? [] = some (kind, fields)) :
  ∃ required, shape = .part required kind fields
  := by
  cases shape with
  | part required =>
    obtain ⟨rfl, rfl⟩ := Prod.mk.inj (Option.some.inj h)
    exact ⟨required, rfl⟩
  | _ => simp [partAt?] at h

/-- A path leads through a field of a part. -/
theorem partAt?_cons (h : shape.partAt? (step :: path) = some (kind, fields)) :
  ∃ required owner siblings f, shape = .part required owner siblings ∧ f ∈ siblings ∧
    f.1.wire = step ∧ f.2.partAt? path = some (kind, fields)
  := by
  cases shape with
  | part required owner siblings =>
    rw [partAt?, Option.bind_eq_some_iff] at h
    obtain ⟨f, hfound, hrest⟩ := h
    exact ⟨required, owner, siblings, f, rfl, List.mem_of_find?_eq_some hfound,
      by simpa using List.find?_some hfound, hrest⟩
  | _ => simp [partAt?] at h

theorem wire_beq_of_not_mem {name : String} (hname : name ∉ wires fields) {f : Slot × Shape}
    (hf : f ∈ fields) :
  (f.1.wire == name) = false
  := by
  rw [beq_eq_false_iff_ne]
  rintro rfl
  exact hname (List.mem_map_of_mem hf)

/-- Data of a part agrees with the data where the entry of a field was replaced by one that
agrees with it. -/
theorem agree_setEntry {required : Bool} (hpart : RegularPart kind fields) {f : Slot × Shape}
    (hf : f ∈ fields) {es : List (Key × Value)} {u y : Value}
    (hfound : entryAt? f.1.wire es = some u) (h : Agree f.2 u y) :
  Agree (.part required kind fields) (.dict es) ((Value.dict es).setEntry f.1.wire y)
  := by
  have hlookup (g : Slot × Shape) (hg : g ∈ fields) :
      (g = f ∧ entryAt? g.1.wire (Assoc.insert (.text f.1.wire) y es) = some y) ∨
      entryAt? g.1.wire (Assoc.insert (.text f.1.wire) y es) = entryAt? g.1.wire es := by
    rw [entryAt?_insert]
    by_cases heq : g.1.wire = f.1.wire
    · exact .inl ⟨eq_of_wire_eq hpart.wires_nodup hg hf heq, by simp [heq]⟩
    · exact .inr (by simp [heq])
  rw [setEntry]
  refine .part (fun g hg => ?_) fun g hg v w hv hw => ?_
  · obtain ⟨rfl, hset⟩ | hset := hlookup g hg
    · rw [hset, hfound]
      rfl
    · rw [hset]
  · obtain ⟨rfl, hset⟩ | hset := hlookup g hg
    · obtain rfl := Option.some.inj (hset.symm.trans hw)
      obtain rfl := Option.some.inj (hfound.symm.trans hv)
      exact h
    · obtain rfl := Option.some.inj ((hset.symm.trans hw).symm.trans hv)
      exact .refl g.2 _

/-- Data with one more entry that is no field agrees with the data before. -/
theorem agree_putAt (hregular : shape.regular) {v : Value} {name : String}
    (hpath : shape.partAt? path = some (kind, fields)) (hname : name ∉ wires fields)
    (hdict : ∃ es, along path v = .dict es) (x : Value) :
  Agree shape v (putAt name x path v)
  := by
  induction path generalizing shape v with
  | nil =>
    obtain ⟨required, rfl⟩ := partAt?_nil hpath
    obtain ⟨es, rfl⟩ : ∃ es, v = .dict es := hdict
    have hfound (f : Slot × Shape) (hf : f ∈ fields) :
        entryAt? f.1.wire (Assoc.insert (.text name) x es) = entryAt? f.1.wire es := by
      rw [entryAt?_insert, wire_beq_of_not_mem hname hf]
      rfl
    refine .part (fun f hf => by rw [hfound f hf]) fun f hf v w hv hw => ?_
    rw [hfound f hf, hv] at hw
    obtain rfl := Option.some.inj hw
    exact .refl f.2 v
  | cons step path ih =>
    obtain ⟨required, owner, siblings, f, rfl, hf, rfl, hrest⟩ := partAt?_cons hpath
    have hpart := regularPart hregular
    obtain ⟨es, hes, hstep⟩ := exists_of_along hdict
    rw [putAt]
    subst hes
    exact agree_setEntry hpart hf hstep (ih (hpart.fields_regular f hf) hrest hdict)

/-- Inert data with one more entry that stands in nobody's way is inert. -/
theorem inert_putAt (hregular : shape.regular) {v x : Value} {name : String} (hv : v.IsJson)
    (hinert : shape.inert v) (hpath : shape.partAt? path = some (kind, fields))
    (hname : name ∉ wires fields) (hspared : kind.spares (.text name))
    (hdict : ∃ es, along path v = .dict es) :
  shape.inert (putAt name x path v)
  := by
  induction path generalizing shape v with
  | nil =>
    obtain ⟨required, rfl⟩ := partAt?_nil hpath
    obtain ⟨es, rfl⟩ : ∃ es, v = .dict es := hdict
    obtain ⟨pairs, rfl⟩ := hv.exists_object
    obtain ⟨hspares, hfields⟩ := inert_object.mp hinert
    rw [putAt, ← object, setEntry_object, inert_object]
    constructor
    · intro p hp
      obtain ⟨hmem, hother⟩ := List.mem_filter.mp hp
      obtain rfl | hold := Assoc.mem_insert hmem
      · exact hspared
      · exact hspares p (List.mem_filter.mpr ⟨hold, hother⟩)
    · intro f hf w hw
      rw [Assoc.lookup_insert, wire_beq_of_not_mem hname hf] at hw
      exact hfields f hf w hw
  | cons step path ih =>
    obtain ⟨required, owner, siblings, f, rfl, hf, rfl, hrest⟩ := partAt?_cons hpath
    have hpart := regularPart hregular
    obtain ⟨es, rfl, hstep⟩ := exists_of_along hdict
    obtain ⟨pairs, rfl⟩ := hv.exists_object
    obtain ⟨hspares, hfields⟩ := inert_object.mp hinert
    have hput := ih (hpart.fields_regular f hf) (hv.under f.1.wire)
      (hfields f hf _ (by rw [← entryAt?_named]; exact hstep)) hrest hdict
    rw [putAt, ← object, setEntry_object, inert_object]
    constructor
    · intro p hp
      obtain ⟨hmem, hother⟩ := List.mem_filter.mp hp
      obtain rfl | hold := Assoc.mem_insert hmem
      · have hwire : f.1.wire ∈ wires siblings := List.mem_map_of_mem hf
        simp [hwire] at hother
      · exact hspares p (List.mem_filter.mpr ⟨hold, hother⟩)
    · intro g hg w hw
      rw [Assoc.lookup_insert] at hw
      by_cases heq : g.1.wire = f.1.wire
      · obtain rfl := eq_of_wire_eq hpart.wires_nodup hg hf heq
        simp only [beq_self_eq_true, if_true, Option.some.injEq] at hw
        rw [← hw]
        exact hput
      · have hne : (g.1.wire == f.1.wire) = false := by simpa using heq
        rw [hne] at hw
        exact hfields g hg w hw

end Path

/-! ### All parts -/

mutual

/-- The paths to the parts of a shape, with the kinds and the fields of the parts. -/
def parts : Shape → List (List String × Kind × List (Slot × Shape))
  | .part _ kind fields => ([], kind, fields) :: partsIn fields
  | _ => []

/-- The paths to the parts of fields, with the kinds and the fields of the parts. -/
def partsIn : List (Slot × Shape) → List (List String × Kind × List (Slot × Shape))
  | [] => []
  | (slot, shape) :: fields =>
    (parts shape).map (fun part => (slot.wire :: part.1, part.2)) ++ partsIn fields

end

theorem mem_partsIn {f : Slot × Shape} {fields : List (Slot × Shape)} (hf : f ∈ fields)
    {part : List String × Kind × List (Slot × Shape)} (h : part ∈ parts f.2) :
  (f.1.wire :: part.1, part.2) ∈ partsIn fields
  := by
  induction fields with
  | nil => simp at hf
  | cons g fields ih =>
    obtain ⟨slot, shape⟩ := g
    rw [partsIn, List.mem_append]
    obtain rfl | hrest := List.mem_cons.mp hf
    · exact .inl (List.mem_map_of_mem h)
    · exact .inr (ih hrest)

/-- The parts at the ends of paths are among all parts. -/
theorem mem_parts {shape : Shape} {path : List String}
    {part : Kind × List (Slot × Shape)} (h : shape.partAt? path = some part) :
  (path, part) ∈ parts shape
  := by
  induction path generalizing shape with
  | nil =>
    obtain ⟨required, rfl⟩ := partAt?_nil h
    exact List.mem_cons_self ..
  | cons step path ih =>
    obtain ⟨required, owner, siblings, f, rfl, hf, rfl, hrest⟩ := partAt?_cons h
    rw [parts]
    exact List.mem_cons_of_mem _ (mem_partsIn hf (ih hrest))

end Shape

end Installation

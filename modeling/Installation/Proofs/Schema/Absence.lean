import Installation.Proofs.Schema.Held

/-!
# Fields that are left out

A field that may be null is read in the same way whether it is null or left out, so that what it
is read as can be told from what the data has under its name: `loadAt_under`.  This is the value
of its attribute in the record: `exists_attr_of_load`.
-/

namespace Installation

open Value

namespace Shape

/-- Whether a field is a part that is never null. -/
def isRequired : Shape → Bool
  | .part required _ _ => required
  | _ => false

/-- To be null and to be left out is the same for all fields but required parts. -/
theorem load_null_of_optional {shape : Shape} (h : shape.isRequired = false) :
  shape.load .null = .ok shape.absent
  := by
  cases shape with
  | part required kind fields =>
    obtain rfl : required = false := h
    rfl
  | _ => rfl

theorem loadAt_under {shape : Shape} (h : shape.isRequired = false)
    (pairs : List (String × Value)) (name : String) :
  loadAt shape (pairs.lookup name) = shape.load ((object pairs).under name)
  := by
  rw [under_object]
  cases pairs.lookup name with
  | none => exact (load_null_of_optional h).symm
  | some v => rfl

/-- A part that is null was read from null. -/
theorem eq_null_of_load {required : Bool} {kind : Kind} {fields : List (Slot × Shape)} {v : Value}
    (hv : v.IsJson) (h : load (.part required kind fields) v = .ok .null) :
  v = .null
  := by
  cases v with
  | null => rfl
  | dict es =>
    obtain ⟨pairs, rfl⟩ := hv.exists_object
    obtain ⟨value, -, hrecord⟩ := exists_of_load_record h
    contradiction
  | _ => simp [load] at h

/-- The attributes of a record that was read are what its fields were read as. -/
theorem exists_attr_of_load {required : Bool} {kind : Kind} {fields : List (Slot × Shape)}
    {pairs : List (String × Value)} {r : Value} (hpart : RegularPart kind fields)
    (hinert : inert (.part required kind fields) (object pairs))
    (h : load (.part required kind fields) (object pairs) = .ok r) {f : Slot × Shape}
    (hf : f ∈ fields) :
  ∃ x, loadAt f.2 (pairs.lookup f.1.wire) = .ok x ∧ r.attr f.1.attr = .ok x
  := by
  obtain ⟨hspared, -⟩ := inert_object.mp hinert
  have hfields := exists_of_load_object h
  choose! value hvalue using hfields
  obtain ⟨attrs, hrecord, -, hattrs⟩ := load_object_ok required hpart hspared hvalue
  obtain rfl := Except.ok.inj (hrecord.symm.trans h)
  use value f
  constructor
  · exact hvalue f hf
  · rw [Value.attr, hattrs f hf]

end Shape

end Installation

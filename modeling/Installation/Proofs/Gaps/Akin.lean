import Installation.Proofs.Gaps.Congruence
import Installation.Proofs.Schema.Patch

/-!
# Specs that are the same up to nulls

Two records are akin when they are the same but for nulls inside of maps to values of any shape.
To be akin is a congruence, `akin_congruence`, so that akin specs still are once the gaps of both
are filled.  Akin records are dumped as data that is the same without its nulls: `Akin.dump`.
-/

namespace Installation

open Value

namespace Shape

/-- Two values of a field that are the same without their nulls.  A text field may hold any
value, which is a default then, as long as both hold the same. -/
inductive Akin : Shape → Value → Value → Prop
  | text (v : Value) : Akin .text v v
  | leaf {shape : Shape} {v w : Value} (fits : shape.Fits v) (fits' : shape.Fits w)
    (same : v.dropNulls = w.dropNulls) : Akin shape v w
  | null {required : Bool} {kind : Kind} {fields : List (Slot × Shape)} :
    Akin (.part required kind fields) .null .null
  | part {required : Bool} {kind : Kind} {fields : List (Slot × Shape)}
    {attrs others : List (String × Value)}
    (offered : ∀ name ∈ kind.operations, attrs.lookup name = none)
    (offered' : ∀ name ∈ kind.operations, others.lookup name = none)
    (h : ∀ f ∈ fields, Akin f.2 (attrIn f.1.attr attrs) (attrIn f.1.attr others)) :
    Akin (.part required kind fields) (.record kind attrs) (.record kind others)

/-- Whether the attributes of two records are akin field by field. -/
def AkinAttrs (fields : List (Slot × Shape)) (attrs others : List (String × Value)) : Prop :=
  ∀ f ∈ fields, Akin f.2 (attrIn f.1.attr attrs) (attrIn f.1.attr others)

theorem akin_null (shape : Shape) :
  Akin shape .null .null
  := by
  cases shape with
  | part required kind fields => exact .null
  | _ => exact .leaf (fits_null rfl) (fits_null rfl) rfl

/-- What travels is akin to itself. -/
theorem Travels.akin {shape : Shape} {r w : Value} (h : Travels shape r w) :
  Akin shape r r
  := by
  induction h with
  | leaf fits => exact .leaf fits fits rfl
  | null => exact .null
  | part offered names h ih => exact .part offered offered ih

/-- Only in maps to values of any shape do akin values differ. -/
theorem Akin.eq_of_leaf {shape : Shape} {v w : Value} (h : Akin shape v w)
    (hleaf : shape.isPart = false) (hraw : shape ≠ .rawMap) :
  v = w
  := by
  cases h with
  | text v => rfl
  | leaf fits fits' same => rwa [fits.dropNulls_eq hraw, fits'.dropNulls_eq hraw] at same
  | null => rfl
  | part offered offered' h => contradiction

theorem Akin.null_iff {shape : Shape} {v w : Value} (h : Akin shape v w) :
  v = .null ↔ w = .null
  := by
  cases h with
  | text v => rfl
  | leaf fits fits' same => rw [← dropNulls_eq_null, same, dropNulls_eq_null]
  | null => rfl
  | part offered offered' h => simp

section Part

variable {required : Bool} {kind : Kind} {fields : List (Slot × Shape)} {v w : Value}

theorem Akin.attrs (h : Akin (.part required kind fields) v w) :
  AkinAttrs fields v.attrs w.attrs
  := by
  cases h with
  | leaf fits => contradiction
  | null => exact fun f _ => akin_null f.2
  | part offered offered' h => exact h

theorem Akin.accepts (h : Akin (.part required kind fields) v w) :
  kind.Accepts v ∧ kind.Accepts w
  := by
  cases h with
  | leaf fits => contradiction
  | null => exact ⟨⟨.inl rfl, fun _ _ => rfl⟩, .inl rfl, fun _ _ => rfl⟩
  | part offered offered' h => exact ⟨⟨.inr ⟨_, rfl⟩, offered⟩, .inr ⟨_, rfl⟩, offered'⟩

end Part

/-- Attributes of akin records are the same but for maps to values of any shape. -/
theorem AkinAttrs.attr_eq {kind : Kind} {fields : List (Slot × Shape)}
    {attrs others : List (String × Value)} (h : AkinAttrs fields attrs others)
    (hpart : RegularPart kind fields) {wire attr : String} {shape : Shape}
    (hf : (⟨wire, attr⟩, shape) ∈ fields) (hleaf : shape.isPart = false)
    (hraw : shape ≠ .rawMap) :
  (Value.record kind attrs).attr attr = (Value.record kind others).attr attr
  := by
  have hsame : attrIn attr attrs = attrIn attr others := (h _ hf).eq_of_leaf hleaf hraw
  have hdeclared : attr ∈ kind.declared := hpart.declared _ hf
  rw [attr_declared hdeclared, attr_declared hdeclared, hsame]

/-- To be akin is told from the attributes of records. -/
theorem akin_congruence :
  Congruence Akin
  where
  text := .text
  eq_of_text h := h.eq_of_leaf rfl (by simp)
  null_iff h := h.null_iff
  attrs h := h.attrs
  accepts h := h.accepts
  part := .part

/-- Attributes that are akin are dumped as data that is the same without its nulls. -/
theorem exists_dump_akin {required : Bool} {kind : Kind} {fields : List (Slot × Shape)}
    {attrs others : List (String × Value)} (hpart : RegularPart kind fields)
    (h : ∀ f ∈ fields, ∃ x y, f.2.dump (attrIn f.1.attr attrs) = .ok x ∧
      f.2.dump (attrIn f.1.attr others) = .ok y ∧ x.IsJson ∧ y.IsJson ∧
      x.dropNulls = y.dropNulls) :
  ∃ x y, dump (.part required kind fields) (.record kind attrs) = .ok x ∧
    dump (.part required kind fields) (.record kind others) = .ok y ∧ x.IsJson ∧ y.IsJson ∧
    x.dropNulls = y.dropNulls
  := by
  obtain ⟨data, data', hdump, hdump', hjson, hjson', hsame⟩ :=
    @exists_dump_records required _ _ _ _ hpart (fun _ x y => x.dropNulls = y.dropNulls) h
  refine ⟨_, _, hdump, hdump', hjson, hjson', ?_⟩
  rw [dropNulls_object, dropNulls_object, dropNullPairs_eq, dropNullPairs_eq, List.map_map,
    List.map_map]
  congr 2
  apply List.map_congr_left
  intro f hf
  exact congrArg (f.1.wire, ·) (hsame f hf)

/-- Akin values are dumped as data that is the same without its nulls. -/
theorem Akin.dump {shape : Shape} (hregular : shape.regular) {v w : Value}
    (h : Akin shape v w) :
  ∃ x y, shape.dump v = .ok x ∧ shape.dump w = .ok y ∧ x.IsJson ∧ y.IsJson ∧
    x.dropNulls = y.dropNulls
  := by
  induction h with
  | text v =>
    by_cases hnull : v = .null
    · subst hnull
      exact ⟨.null, .null, rfl, rfl, trivial, trivial, rfl⟩
    · have hdump : Shape.dump .text v = .ok (dumpText v) := by
        rw [Shape.dump]
        exact hnull
      exact ⟨_, _, hdump, hdump, isJson_dumpText v, isJson_dumpText v, rfl⟩
  | leaf fits fits' same =>
    exact ⟨_, _, fits.dump, fits'.dump, fits.isJson, fits'.isJson, same⟩
  | null => exact ⟨_, _, rfl, rfl, trivial, trivial, rfl⟩
  | part offered offered' h ih =>
    have hpart := regularPart hregular
    exact exists_dump_akin hpart fun f hf => ih f hf (hpart.fields_regular f hf)

end Shape

end Installation

import Installation.Proofs.Gaps.Congruence
import Installation.Proofs.Schema.Mirror

/-!
# Specs that match

Two records match when they are read from data that differs in the order of names alone, and
they still do once the gaps of both are filled, whatever the defaults are, since to match is a
congruence: `matches_congruence`.  Records that match are dumped as data that differs in the
order of names alone, `Matches.dump`.
-/

namespace Installation

open Value

namespace Shape

/-- Two values of a field that differ at most in the order of names.  A text field may hold any
value, which is a default then, as long as both hold the same. -/
inductive Matches : Shape → Value → Value → Prop
  | text (v : Value) : Matches .text v v
  | leaf {shape : Shape} {v w : Value} (fits : shape.Fits v) (fits' : shape.Fits w)
    (reordered : v.Reordered w) : Matches shape v w
  | null {required : Bool} {kind : Kind} {fields : List (Slot × Shape)} :
    Matches (.part required kind fields) .null .null
  | part {required : Bool} {kind : Kind} {fields : List (Slot × Shape)}
    {attrs others : List (String × Value)}
    (offered : ∀ name ∈ kind.operations, attrs.lookup name = none)
    (offered' : ∀ name ∈ kind.operations, others.lookup name = none)
    (h : ∀ f ∈ fields, Matches f.2 (attrIn f.1.attr attrs) (attrIn f.1.attr others)) :
    Matches (.part required kind fields) (.record kind attrs) (.record kind others)

/-- Whether the attributes of two records match field by field. -/
def MatchAttrs (fields : List (Slot × Shape)) (attrs others : List (String × Value)) : Prop :=
  ∀ f ∈ fields, Matches f.2 (attrIn f.1.attr attrs) (attrIn f.1.attr others)

theorem matches_null (shape : Shape) :
  Matches shape .null .null
  := by
  cases shape with
  | part required kind fields => exact .null
  | _ => exact .leaf (fits_null rfl) (fits_null rfl) (.refl _)

/-- What is read of reordered data matches. -/
theorem Travels.matches {shape : Shape} (hregular : shape.regular) {r r' w w' : Value}
    (h : Travels shape r w) (h' : Travels shape r' w') (reordered : w.Reordered w') :
  Matches shape r r'
  := by
  induction h generalizing r' w' with
  | leaf fits =>
    cases h' with
    | leaf fits' => exact .leaf fits fits' reordered
    | null => contradiction
    | part offered names h => contradiction
  | null =>
    obtain rfl := h'.eq_null_iff.mpr (reordered.null_iff.mp rfl)
    exact .null
  | @part required kind fields attrs pairs offered names h ih =>
    have hpart := regularPart hregular
    cases h' with
    | leaf fits => contradiction
    | null => exact absurd (reordered.null_iff.mpr rfl) (by simp [object])
    | @part _ _ _ others pairs' offered' names' h' =>
      have distinct : (pairs.map Prod.fst).Nodup := names ▸ hpart.wires_nodup
      refine .part offered offered' fun f hf => ?_
      apply ih f hf (hpart.fields_regular f hf) (h' f hf)
      have hlookup := reordered.lookup distinct f.1.wire
      cases hleft : pairs.lookup f.1.wire with
      | none =>
        cases hright : pairs'.lookup f.1.wire with
        | none => exact .refl _
        | some y => simp [hleft, hright] at hlookup
      | some x =>
        cases hright : pairs'.lookup f.1.wire with
        | none => simp [hleft, hright] at hlookup
        | some y =>
          rw [hleft, hright] at hlookup
          exact Option.some.inj hlookup

/-- Texts that match are equal. -/
theorem Matches.eq_of_text {v w : Value} (h : Matches .text v w) :
  v = w
  := by
  cases h with
  | text v => rfl
  | leaf fits fits' reordered => exact reordered.eq_of_text fits

theorem Matches.null_iff {shape : Shape} {v w : Value} (h : Matches shape v w) :
  v = .null ↔ w = .null
  := by
  cases h with
  | text v => rfl
  | leaf fits fits' reordered => exact reordered.null_iff
  | null => rfl
  | part offered offered' h => simp

section Part

variable {required : Bool} {kind : Kind} {fields : List (Slot × Shape)} {v w : Value}

theorem Matches.attrs (h : Matches (.part required kind fields) v w) :
  MatchAttrs fields v.attrs w.attrs
  := by
  cases h with
  | leaf fits => contradiction
  | null => exact fun f _ => matches_null f.2
  | part offered offered' h => exact h

theorem Matches.accepts (h : Matches (.part required kind fields) v w) :
  kind.Accepts v ∧ kind.Accepts w
  := by
  cases h with
  | leaf fits => contradiction
  | null => exact ⟨⟨.inl rfl, fun _ _ => rfl⟩, .inl rfl, fun _ _ => rfl⟩
  | part offered offered' h => exact ⟨⟨.inr ⟨_, rfl⟩, offered⟩, .inr ⟨_, rfl⟩, offered'⟩

end Part

/-! ### Dumps -/

/-- Attributes that match are dumped as named values that are reordered one by one. -/
theorem exists_dump_record {required : Bool} {kind : Kind} {fields : List (Slot × Shape)}
    {attrs others : List (String × Value)} (hpart : RegularPart kind fields)
    (h : ∀ f ∈ fields, ∃ x y, f.2.dump (attrIn f.1.attr attrs) = .ok x ∧
      f.2.dump (attrIn f.1.attr others) = .ok y ∧ x.IsJson ∧ y.IsJson ∧ x.Reordered y) :
  ∃ pairs pairs', dump (.part required kind fields) (.record kind attrs) = .ok (object pairs) ∧
    dump (.part required kind fields) (.record kind others) = .ok (object pairs') ∧
    (object pairs).IsJson ∧ (object pairs').IsJson ∧ orderedPairs pairs = orderedPairs pairs'
  := by
  obtain ⟨data, data', hdump, hdump', hjson, hjson', hreordered⟩ :=
    @exists_dump_records required _ _ _ _ hpart (fun _ => Value.Reordered) h
  refine ⟨_, _, hdump, hdump', hjson, hjson', ?_⟩
  rw [orderedPairs, orderedPairs, List.map_map, List.map_map]
  apply List.map_congr_left
  intro f hf
  exact congrArg (f.1.wire, ·) (hreordered f hf)

/-- Values that match are dumped as reordered data. -/
theorem Matches.dump {shape : Shape} (hregular : shape.regular) {v w : Value}
    (h : Matches shape v w) :
  ∃ x y, shape.dump v = .ok x ∧ shape.dump w = .ok y ∧ x.IsJson ∧ y.IsJson ∧ x.Reordered y
  := by
  induction h with
  | text v =>
    by_cases hnull : v = .null
    · subst hnull
      exact ⟨.null, .null, rfl, rfl, trivial, trivial, .refl _⟩
    · have hdump : Shape.dump .text v = .ok (dumpText v) := by
        rw [Shape.dump]
        exact hnull
      exact ⟨_, _, hdump, hdump, isJson_dumpText v, isJson_dumpText v, .refl _⟩
  | leaf fits fits' reordered =>
    exact ⟨_, _, fits.dump, fits'.dump, fits.isJson, fits'.isJson, reordered⟩
  | null => exact ⟨_, _, rfl, rfl, trivial, trivial, .refl _⟩
  | part offered offered' h ih =>
    have hpart := regularPart hregular
    obtain ⟨pairs, pairs', hdump, hdump', hjson, hjson', heq⟩ :=
      exists_dump_record hpart fun f hf => ih f hf (hpart.fields_regular f hf)
    exact ⟨_, _, hdump, hdump', hjson, hjson', reordered_of_orderedPairs heq⟩

/-! ### Filled specs -/

/-- To match is told from the attributes of records. -/
theorem matches_congruence :
  Congruence Matches
  where
  text := .text
  eq_of_text h := h.eq_of_text
  null_iff h := h.null_iff
  attrs h := h.attrs
  accepts h := h.accepts
  part := .part

end Shape

end Installation

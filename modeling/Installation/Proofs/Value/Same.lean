import Installation.Proofs.Value.Entries

/-!
# Comparing JSON values

Every JSON value is the same as itself, and only a text is the same as a text.  Where two
dictionaries are the same, what the first one has under a name is the same as what the second
one has there.
-/

namespace Installation

theorem Extended.same_refl (p : Extended) :
  p.same p
  := by
  cases p <;> simp [same]

namespace Value

theorem sameAll_iff {vs ws : List Value} :
  sameAll vs ws = true ↔ List.Forall₂ (fun v w => v.same w = true) vs ws
  := by
  induction vs generalizing ws with
  | nil => cases ws <;> simp [sameAll]
  | cons v vs ih => cases ws <;> simp [sameAll, ih]

/-- The entries of one dictionary are found in another one when each of them is the same as
the one that the other has under its name. -/
theorem sameEntries_named {pairs others : List (String × Value)} :
  sameEntries (named pairs) (named others) = true ↔
    ∀ p ∈ pairs, ∃ w, others.lookup p.1 = some w ∧ p.2.same w = true
  := by
  have hfind (name : String) (ps : List (String × Value)) :
      (named ps).find? (fun f => (Key.text name).same f.1) =
        (ps.lookup name).map fun w => (.text name, w) := by
    induction ps with
    | nil => rfl
    | cons p ps ih =>
      have hkey : (Key.text name).same (.text p.1) = (name == p.1) := Key.beq_text name p.1
      rw [named_cons, List.find?_cons, hkey, List.lookup_cons, ih]
      by_cases hname : name = p.1
      · subst hname
        simp
      · have hne : (name == p.1) = false := by simpa using hname
        rw [hne]
  induction pairs with
  | nil => simp [sameEntries]
  | cons p pairs ih =>
    rw [named_cons, sameEntries, hfind, Bool.and_eq_true, List.forall_mem_cons]
    refine and_congr ?_ ih
    cases others.lookup p.1 <;> simp

theorem same_object {pairs others : List (String × Value)} :
  (object pairs).same (object others) = true ↔ pairs.length = others.length ∧
    ∀ p ∈ pairs, ∃ w, others.lookup p.1 = some w ∧ p.2.same w = true
  := by
  rw [object, object, same, Bool.and_eq_true, sameEntries_named, length_named, length_named]
  simp

theorem sameAttrs_iff {attrs others : List (String × Value)} :
  sameAttrs attrs others = true ↔
    ∀ p ∈ attrs, ∃ w, others.lookup p.1 = some w ∧ p.2.same w = true
  := by
  induction attrs with
  | nil => simp [sameAttrs]
  | cons p attrs ih =>
    rw [sameAttrs, Bool.and_eq_true, List.forall_mem_cons, ih]
    cases others.lookup p.1 <;> simp

/-- A record is the same as itself when its attributes are. -/
theorem same_record_self {kind : Kind} {attrs : List (String × Value)}
    (distinct : (attrs.map Prod.fst).Nodup) (h : ∀ p ∈ attrs, p.2.same p.2 = true) :
  (record kind attrs).same (record kind attrs) = true
  := by
  rw [same, beq_self_eq_true, Bool.true_and, sameAttrs_iff]
  exact fun p hp => ⟨p.2, Assoc.lookup_of_mem distinct hp, h p hp⟩

/-- Every JSON value is the same as itself. -/
theorem same_refl {v : Value} (h : IsJson v) :
  v.same v = true
  := by
  induction v, h using jsonInduction with
  | onNull => simp [same]
  | onBool b => simp [same, number?, Extended.same_refl]
  | onInt i => simp [same, number?, Extended.same_refl]
  | onText s => simp [same]
  | onFloat x =>
    cases x with
    | nan payload => simp [same]
    | infinite negative =>
      cases negative <;> simp [same, number?, Binary64.extended?, Extended.same_refl]
    | finite negative m q reduced =>
      simp [same, number?, Binary64.extended?, Extended.same_refl]
  | onList vs h ih =>
    rw [same, sameAll_iff]
    exact List.forall₂_same.mpr ih
  | onObject pairs distinct h ih =>
    rw [same_object]
    exact ⟨rfl, fun p hp => ⟨p.2, Assoc.lookup_of_mem distinct hp, ih p hp⟩⟩

/-- Only a text is the same as a text. -/
theorem same_text {v : Value} {s : String} :
  v.same (.text s) = true ↔ v = .text s
  := by
  cases v with
  | text t => simp [same]
  | float x => cases x <;> simp [same, number?]
  | _ => simp [same, number?]

@[simp]
theorem text_beq_text (s t : String) :
  (text s == text t) = (s == t)
  := by
  change equal (.text s) (.text t) = (s == t)
  simp [equal, lacksPoint, same]

/-- Nothing but a text equals it. -/
theorem eq_of_equal_text {v : Value} {s : String} (h : v == .text s) :
  v = .text s
  := by
  obtain ⟨-, hsame⟩ := (Bool.and_eq_true _ _).mp h
  exact same_text.mp hsame

/-- A text equals nothing but itself. -/
theorem eq_of_text_equal {v : Value} {s : String} (h : text s == v) :
  v = .text s
  := by
  change equal (.text s) v = true at h
  cases v with
  | text t =>
    obtain rfl : s = t := by simpa [equal, lacksPoint, same] using h
    rfl
  | _ => simp [equal, lacksPoint, same, number?] at h

/-- No dictionary is the same as null. -/
theorem same_null_object (pairs : List (String × Value)) :
  null.same (object pairs) = false
  := by
  simp [object, same, number?]

end Value

end Installation

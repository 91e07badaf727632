import Installation.Proofs.Value.Reordered
import Installation.Proofs.Value.Shed
import Mathlib.Logic.Relation

/-!
# Exchanging neighbouring entries

A value swaps two neighbours when two entries of a dictionary that stand next to each other change
places, at any depth of dictionaries and lists.  Values are `Value.Rearranged` when such
exchanges lead from one to the other, and for JSON values this is the same as being
`Value.Reordered`: `rearranged_iff`.
-/

namespace Installation

namespace Value

/-- Whether a value is another one with two neighbouring entries of a dictionary exchanged. -/
inductive Swaps : Value → Value → Prop
  | here (front : List (String × Value)) (p q : String × Value) (back : List (String × Value)) :
    Swaps (object (front ++ p :: q :: back)) (object (front ++ q :: p :: back))
  | entry (front : List (String × Value)) (name : String) {v w : Value} (h : Swaps v w)
    (back : List (String × Value)) :
    Swaps (object (front ++ (name, v) :: back)) (object (front ++ (name, w) :: back))
  | element (front : List Value) {v w : Value} (h : Swaps v w) (back : List Value) :
    Swaps (.list (front ++ v :: back)) (.list (front ++ w :: back))

/-- Whether two values are equal up to the order of the entries of dictionaries, at every
level. -/
def Rearranged : Value → Value → Prop := Relation.ReflTransGen Swaps

section Swaps

variable {v w : Value} (h : Swaps v w)

include h

theorem Swaps.symm :
  Swaps w v
  := by
  induction h with
  | here front p q back => exact .here front q p back
  | entry front name h back ih => exact .entry front name ih back
  | element front h back ih => exact .element front ih back

theorem Swaps.isJson (hv : v.IsJson) :
  w.IsJson
  := by
  induction h with
  | here front p q back =>
    have hperm : (front ++ p :: q :: back).Perm (front ++ q :: p :: back) :=
      (List.Perm.swap q p back).append_left front
    rw [isJson_object] at hv ⊢
    obtain ⟨distinct, hpairs⟩ := hv
    exact ⟨(hperm.map Prod.fst).nodup_iff.mp distinct, fun r hr => hpairs r (hperm.mem_iff.mpr hr)⟩
  | entry front name h back ih =>
    obtain ⟨hnew, hv, hrest⟩ := isJson_middle.mp hv
    exact isJson_middle.mpr ⟨hnew, ih hv, hrest⟩
  | element front h back ih =>
    rw [isJson_list, List.forall_mem_append, List.forall_mem_cons] at hv ⊢
    obtain ⟨hfront, hv, hback⟩ := hv
    exact ⟨hfront, ih hv, hback⟩

/-- An exchange leaves no trace once names are sorted. -/
theorem Swaps.reordered (hv : v.IsJson) :
  Reordered v w
  := by
  induction h with
  | here front p q back =>
    rw [reordered_object ((isJson_object _).mp hv).1]
    exact ((List.Perm.swap q p back).append_left front).map _
  | entry front name h back ih =>
    apply reordered_of_orderedPairs
    have hsame : _ = _ := ih (isJson_middle.mp hv).2.1
    simp [orderedPairs, hsame]
  | element front h back ih =>
    rw [isJson_list, List.forall_mem_append, List.forall_mem_cons] at hv
    have hsame : _ = _ := ih hv.2.1
    simp [Reordered, hsame]

end Swaps

theorem Rearranged.symm {v w : Value} (h : Rearranged v w) :
  Rearranged w v
  := by
  induction h with
  | refl => exact .refl
  | tail _ hlast ih => exact .head hlast.symm ih

/-- The value of an entry may be rearranged. -/
theorem Rearranged.entry {v w : Value} (h : Rearranged v w) (front : List (String × Value))
    (name : String) (back : List (String × Value)) :
  Rearranged (object (front ++ (name, v) :: back)) (object (front ++ (name, w) :: back))
  := by
  induction h with
  | refl => exact .refl
  | tail _ hlast ih => exact .tail ih (.entry front name hlast back)

/-- An element may be rearranged. -/
theorem Rearranged.element {v w : Value} (h : Rearranged v w) (front back : List Value) :
  Rearranged (.list (front ++ v :: back)) (.list (front ++ w :: back))
  := by
  induction h with
  | refl => exact .refl
  | tail _ hlast ih => exact .tail ih (.element front hlast back)

/-- Exchanges among the entries of JSON give JSON, and leave no trace once names are sorted. -/
theorem Rearranged.reordered {v w : Value} (h : Rearranged v w) (hv : v.IsJson) :
  w.IsJson ∧ Reordered v w
  := by
  induction h with
  | refl => exact ⟨hv, .refl v⟩
  | tail _ hlast ih =>
    obtain ⟨hu, hreordered⟩ := ih
    exact ⟨hlast.isJson hu, hreordered.trans (hlast.reordered hu)⟩

/-! ### Exchanges that lead to sorted names -/

/-- Elements may be rearranged one after the other. -/
theorem rearranged_list {f : Value → Value} {vs : List Value}
    (h : ∀ v ∈ vs, Rearranged v (f v)) (front : List Value) :
  Rearranged (.list (front ++ vs)) (.list (front ++ vs.map f))
  := by
  induction vs generalizing front with
  | nil => exact .refl
  | cons v vs ih =>
    rw [List.forall_mem_cons] at h
    have hfirst := h.1.element front vs
    have hrest := ih h.2 (front ++ [f v])
    rw [List.append_assoc, List.append_assoc] at hrest
    exact hfirst.trans hrest

/-- The values of entries may be rearranged one after the other. -/
theorem rearranged_entries {f : Value → Value} {pairs : List (String × Value)}
    (h : ∀ p ∈ pairs, Rearranged p.2 (f p.2)) (front : List (String × Value)) :
  Rearranged (object (front ++ pairs)) (object (front ++ pairs.map fun p => (p.1, f p.2)))
  := by
  induction pairs generalizing front with
  | nil => exact .refl
  | cons p pairs ih =>
    obtain ⟨name, v⟩ := p
    rw [List.forall_mem_cons] at h
    have hfirst := h.1.entry front name pairs
    have hrest := ih h.2 (front ++ [(name, f v)])
    rw [List.append_assoc, List.append_assoc] at hrest
    exact hfirst.trans hrest

/-- Entries come into any order by exchanges of neighbours. -/
theorem rearranged_of_perm {pairs others : List (String × Value)} (perm : pairs.Perm others)
    (front : List (String × Value)) :
  Rearranged (object (front ++ pairs)) (object (front ++ others))
  := by
  induction perm generalizing front with
  | nil => exact .refl
  | cons p _ ih =>
    have hrest := ih (front ++ [p])
    rw [List.append_assoc, List.append_assoc] at hrest
    exact hrest
  | swap p q pairs => exact .single (.here front q p pairs)
  | trans _ _ ih ih' => exact (ih front).trans (ih' front)

/-- Names are sorted by exchanges of neighbours. -/
theorem rearranged_ordered {v : Value} (hv : v.IsJson) :
  Rearranged v v.ordered
  := by
  induction v, hv using jsonInduction with
  | onNull | onBool | onInt | onFloat | onText =>
    rw [ordered]
    · exact .refl
    · simp
    · simp
  | onList vs h ih =>
    rw [ordered_list]
    exact rearranged_list ih []
  | onObject pairs distinct h ih =>
    rw [ordered_object_eq]
    have hvalues : Rearranged (object pairs) (object (orderedPairs pairs)) :=
      rearranged_entries ih []
    exact hvalues.trans (rearranged_of_perm (sortByText_perm (orderedPairs pairs)).symm [])

/-- JSON values are rearranged exactly when they are the same once their names are sorted. -/
theorem rearranged_iff {v w : Value} (hv : v.IsJson) (hw : w.IsJson) :
  Rearranged v w ↔ Reordered v w
  := by
  constructor
  · exact fun h => (h.reordered hv).2
  · intro h
    have hback := (rearranged_ordered hw).symm
    rw [← h] at hback
    exact (rearranged_ordered hv).trans hback

end Value

end Installation

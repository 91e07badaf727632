import Installation.Proofs.Canonical.Shown
import Installation.Proofs.Canonical.Token

/-!
# Canonical texts are exact

Two JSON values have the same canonical text exactly when they differ at most in the order of
entries and in entries under reserved keys.  One direction is that values which are alike have
the same text once their names are sorted.  The other is that the text of a value with sorted
names can be cut off from whatever follows it, which goes through the brackets of lists and
dictionaries down to strings and tokens.
-/

namespace Installation

/-- Parts after a first one, each with a comma and a space in front. -/
theorem commaSeparated_cons (part : List Char) (parts : List (List Char)) :
  commaSeparated (part :: parts) = part ++ parts.flatMap fun p => [',', ' '] ++ p
  := by
  induction parts generalizing part with
  | nil => simp [commaSeparated]
  | cons next parts ih =>
    have hnext := ih next
    simp only [commaSeparated] at hnext ⊢
    rw [List.intercalate_cons_cons, hnext]
    simp

section Separated

variable {α : Type} {text : α → List Char} {rel : α → α → Prop} {close : Char}

/-- What comes after a part stops the part. -/
theorem stops_separated (hclose : isTokenChar close = false) (ys : List α) (rest : List Char) :
  Stops (((ys.map text).flatMap fun p => [',', ' '] ++ p) ++ close :: rest)
  := by
  cases ys with
  | nil =>
    intro c hc
    obtain rfl : c = close := by simpa using hc.symm
    simp [hclose]
  | cons y ys =>
    intro c hc
    obtain rfl : c = ',' := by simpa using hc.symm
    decide

/-- Where parts can be cut off one by one, those after a first part can. -/
theorem separated_tail_injective (hclose : isTokenChar close = false) (hcomma : close ≠ ',')
    {xs ys : List α} {rest rest' : List Char}
    (hcut : ∀ x ∈ xs, ∀ y ∈ ys, ∀ s s', Stops s → Stops s' → text x ++ s = text y ++ s' →
      rel x y ∧ s = s')
    (h : ((xs.map text).flatMap fun p => [',', ' '] ++ p) ++ close :: rest =
      ((ys.map text).flatMap fun p => [',', ' '] ++ p) ++ close :: rest') :
  List.Forall₂ rel xs ys ∧ rest = rest'
  := by
  induction xs generalizing ys with
  | nil =>
    cases ys with
    | nil => exact ⟨.nil, by simpa using h⟩
    | cons y ys => exact absurd (List.cons.inj h).1 hcomma
  | cons x xs ih =>
    cases ys with
    | nil => exact absurd (List.cons.inj h).1.symm hcomma
    | cons y ys =>
      simp only [List.map_cons, List.flatMap_cons, List.cons_append, List.nil_append,
        List.append_assoc, List.cons.injEq, true_and] at h
      obtain ⟨hxy, htail⟩ := hcut x (by simp) y (by simp) _ _ (stops_separated hclose xs rest)
        (stops_separated hclose ys rest') h
      obtain ⟨hall, hend⟩ := ih (fun x hx y hy => hcut x (by simp [hx]) y (by simp [hy])) htail
      exact ⟨.cons hxy hall, hend⟩

/-- Where parts can be cut off one by one and none of them starts with the closing bracket,
lists of parts can be cut off. -/
theorem separated_append_injective (hclose : isTokenChar close = false) (hcomma : close ≠ ',')
    {xs ys : List α} {rest rest' : List Char}
    (hcut : ∀ x ∈ xs, ∀ y ∈ ys, ∀ s s', Stops s → Stops s' → text x ++ s = text y ++ s' →
      rel x y ∧ s = s')
    (hxs : ∀ x ∈ xs, ∀ s s', text x ++ s ≠ close :: s')
    (hys : ∀ y ∈ ys, ∀ s s', text y ++ s ≠ close :: s')
    (h : commaSeparated (xs.map text) ++ close :: rest =
      commaSeparated (ys.map text) ++ close :: rest') :
  List.Forall₂ rel xs ys ∧ rest = rest'
  := by
  cases xs with
  | nil =>
    cases ys with
    | nil => exact ⟨.nil, (List.cons.inj h).2⟩
    | cons y ys =>
      rw [List.map_cons, commaSeparated_cons, List.append_assoc] at h
      exact absurd h.symm (hys y (by simp) _ _)
  | cons x xs =>
    cases ys with
    | nil =>
      rw [List.map_cons, commaSeparated_cons, List.append_assoc] at h
      exact absurd h (hxs x (by simp) _ _)
    | cons y ys =>
      rw [List.map_cons, List.map_cons, commaSeparated_cons, commaSeparated_cons,
        List.append_assoc, List.append_assoc] at h
      obtain ⟨hxy, htail⟩ := hcut x (by simp) y (by simp) _ _ (stops_separated hclose xs rest)
        (stops_separated hclose ys rest') h
      obtain ⟨hall, hend⟩ := separated_tail_injective hclose hcomma
        (fun x hx y hy => hcut x (by simp [hx]) y (by simp [hy])) htail
      exact ⟨.cons hxy hall, hend⟩

end Separated

namespace Value

/-! ### The text of a value with sorted names -/

/-- The text of a value whose names are sorted first. -/
def orderedJson (v : Value) : List Char := v.ordered.json

/-- The text of a named value in a dictionary. -/
def memberJson (p : String × Value) : List Char :=
  Text.jsonString p.1.toList ++ [':', ' '] ++ p.2.orderedJson

theorem orderedJson_list (vs : List Value) :
  (list vs).orderedJson = '[' :: (commaSeparated (vs.map orderedJson) ++ [']'])
  := by
  have hall (ws : List Value) : jsonAll ws = ws.map json := by
    induction ws with
    | nil => rfl
    | cons w ws ih => rw [jsonAll, ih, List.map_cons]
  rw [orderedJson, ordered_list, json, hall, List.map_map]
  rfl

theorem orderedJson_object (pairs : List (String × Value)) :
  (object pairs).orderedJson =
    '\x7b' :: (commaSeparated ((sortByText pairs).map memberJson) ++ ['\x7d'])
  := by
  have hentries (ps : List (String × Value)) : jsonEntries (named ps) =
      ps.map fun p => Text.jsonString p.1.toList ++ [':', ' '] ++ p.2.json := by
    induction ps with
    | nil => rfl
    | cons p ps ih => rw [named_cons, jsonEntries, ih, List.map_cons, Key.plain]
  rw [orderedJson, ordered_object, object, json, hentries, List.map_map]
  rfl

theorem orderedJson_scalar {v : Value} (h : v.IsScalar) :
  v.orderedJson = v.json
  := by
  cases v with
  | null | bool _ | int _ | float _ => rfl
  | _ => contradiction

/-- The mark with which the text of a value starts; none for tokens. -/
def mark? : Value → Option Char
  | .text _ => some '\"'
  | .list _ => some '['
  | .dict _ => some '\x7b'
  | _ => none

/-- A character as a mark; none for one of a token. -/
def asMark? (c : Char) : Option Char := if isTokenChar c then none else some c

theorem exists_mark {v : Value} (h : IsJson v) :
  ∃ c cs, v.orderedJson = c :: cs ∧ asMark? c = v.mark?
  := by
  have hscalar {v : Value} (hv : v.IsScalar) : ∃ c cs, v.json = c :: cs ∧ asMark? c = none := by
    obtain ⟨hne, htoken⟩ := isToken_json hv
    obtain ⟨c, cs, hcs⟩ := List.exists_cons_of_ne_nil hne
    exact ⟨c, cs, hcs, if_pos (htoken c (by simp [hcs]))⟩
  cases v with
  | null => exact hscalar (v := .null) trivial
  | bool b => exact hscalar (v := .bool b) trivial
  | int i => exact hscalar (v := .int i) trivial
  | float x => exact hscalar (v := .float x) trivial
  | text s => exact ⟨_, _, rfl, rfl⟩
  | list vs => exact ⟨_, _, orderedJson_list vs, rfl⟩
  | dict entries =>
    obtain ⟨pairs, rfl⟩ := h.exists_object
    exact ⟨_, _, orderedJson_object pairs, rfl⟩
  | tuple vs => contradiction
  | record kind attrs => contradiction

/-- Values whose texts start the same text start with the same mark. -/
theorem mark?_eq {v w : Value} (hv : IsJson v) (hw : IsJson w) {rest rest' : List Char}
    (h : v.orderedJson ++ rest = w.orderedJson ++ rest') :
  v.mark? = w.mark?
  := by
  obtain ⟨c, cs, hcs, hc⟩ := exists_mark hv
  obtain ⟨d, ds, hds, hd⟩ := exists_mark hw
  rw [hcs, hds] at h
  rw [← hc, ← hd, (List.cons.inj h).1]

/-- No text of a value starts with the bracket that closes a list. -/
theorem orderedJson_ne_close {v : Value} (h : IsJson v) (s s' : List Char) :
  v.orderedJson ++ s ≠ ']' :: s'
  := by
  obtain ⟨c, cs, hcs, hc⟩ := exists_mark h
  rw [hcs]
  intro heq
  obtain rfl := (List.cons.inj heq).1
  have hclose : asMark? ']' = some ']' := rfl
  rw [hclose] at hc
  cases v <;> simp [mark?] at hc

theorem IsScalar.isJson {v : Value} (h : v.IsScalar) :
  IsJson v
  := by
  cases v with
  | null | bool _ | int _ | float _ => trivial
  | _ => contradiction

/-- No mark starts the text of a scalar. -/
theorem IsScalar.mark?_eq_none {v : Value} (h : v.IsScalar) :
  v.mark? = none
  := by
  cases v with
  | null | bool _ | int _ | float _ => rfl
  | _ => contradiction

/-- What no mark starts is a scalar. -/
theorem isScalar_of_mark? {v : Value} (h : IsJson v) (hmark : v.mark? = none) :
  v.IsScalar
  := by
  cases v with
  | null | bool _ | int _ | float _ => trivial
  | text _ | list _ | dict _ => simp [mark?] at hmark
  | tuple _ | record _ _ => contradiction

/-- Scalars can be cut off from what follows them. -/
theorem scalar_append_injective {v w : Value} (hv : v.IsScalar) (hw : IsJson w)
    {rest rest' : List Char} (hrest : Stops rest) (hrest' : Stops rest')
    (h : v.orderedJson ++ rest = w.orderedJson ++ rest') :
  Alike v w ∧ rest = rest'
  := by
  have hmark := mark?_eq hv.isJson hw h
  rw [hv.mark?_eq_none] at hmark
  have hscalar : w.IsScalar := isScalar_of_mark? hw hmark.symm
  rw [orderedJson_scalar hv, orderedJson_scalar hscalar] at h
  obtain ⟨heq, hend⟩ :=
    token_append_injective (isToken_json hv).2 (isToken_json hscalar).2 hrest hrest' h
  exact ⟨alike_of_json_eq hv hscalar heq, hend⟩

/-- The text of a value with sorted names can be cut off from what follows it, and determines
the value up to the order of entries. -/
theorem orderedJson_append_injective {v w : Value} (hv : IsJson v) (hw : IsJson w)
    {rest rest' : List Char} (hrest : Stops rest) (hrest' : Stops rest')
    (h : v.orderedJson ++ rest = w.orderedJson ++ rest') :
  Alike v w ∧ rest = rest'
  := by
  induction v, hv using jsonInduction generalizing w rest rest' with
  | onNull => exact scalar_append_injective (v := .null) trivial hw hrest hrest' h
  | onBool b => exact scalar_append_injective (v := .bool b) trivial hw hrest hrest' h
  | onInt i => exact scalar_append_injective (v := .int i) trivial hw hrest hrest' h
  | onFloat x => exact scalar_append_injective (v := .float x) trivial hw hrest hrest' h
  | onText s =>
    have hmark := mark?_eq (v := .text s) trivial hw h
    cases w with
    | text t =>
      obtain ⟨heq, hend⟩ := Text.jsonString_append_injective h
      obtain rfl := String.toList_inj.mp heq
      exact ⟨.text s, hend⟩
    | tuple _ | record _ _ => contradiction
    | _ => simp [mark?] at hmark
  | onList vs hvs ih =>
    have hmark := mark?_eq ((isJson_list vs).mpr hvs) hw h
    cases w with
    | list ws =>
      have hws := (isJson_list ws).mp hw
      rw [orderedJson_list, orderedJson_list] at h
      simp only [List.cons_append, List.append_assoc, List.nil_append, List.cons.injEq,
        true_and] at h
      have hboth : List.Forall₂ Alike vs ws ∧ rest = rest' :=
        separated_append_injective rfl (by decide)
          (fun v hv w hw s s' hs hs' => ih v hv (hws w hw) hs hs')
          (fun v hv => orderedJson_ne_close (hvs v hv))
          (fun w hw => orderedJson_ne_close (hws w hw)) h
      obtain ⟨hall, hend⟩ := hboth
      exact ⟨.list (allAlike_iff.mpr hall), hend⟩
    | tuple _ | record _ _ => contradiction
    | _ => simp [mark?] at hmark
  | onObject pairs distinct hpairs ih =>
    have hmark := mark?_eq ((isJson_object pairs).mpr ⟨distinct, hpairs⟩) hw h
    cases w with
    | dict entries =>
      obtain ⟨others, rfl⟩ := hw.exists_object
      obtain ⟨-, hothers⟩ := (isJson_object others).mp hw
      rw [← object, orderedJson_object, orderedJson_object] at h
      simp only [List.cons_append, List.append_assoc, List.nil_append, List.cons.injEq,
        true_and] at h
      have hcut : ∀ p ∈ sortByText pairs, ∀ q ∈ sortByText others, ∀ s s', Stops s → Stops s' →
          memberJson p ++ s = memberJson q ++ s' →
            (p.1 = q.1 ∧ Alike p.2 q.2) ∧ s = s' := by
        intro p hp q hq s s' hs hs' heq
        simp only [memberJson, List.append_assoc] at heq
        obtain ⟨hname, heq⟩ := Text.jsonString_append_injective heq
        obtain ⟨halike, hend⟩ := ih p ((sortByText_perm pairs).mem_iff.mp hp)
          (hothers q ((sortByText_perm others).mem_iff.mp hq)) hs hs' (by simpa using heq)
        exact ⟨⟨String.toList_inj.mp hname, halike⟩, hend⟩
      have hopen (p : String × Value) (s s' : List Char) :
          memberJson p ++ s ≠ '\x7d' :: s' := by
        simp [memberJson, Text.jsonString]
      obtain ⟨hall, hend⟩ := separated_append_injective rfl (by decide) hcut
        (fun p _ => hopen p) (fun q _ => hopen q) h
      obtain ⟨middle, hforall, hperm⟩ :=
        List.perm_comp_forall₂ (sortByText_perm pairs).symm hall
      refine ⟨alike_object.mpr ⟨middle, others, rfl, hforall, ?_⟩, hend⟩
      exact hperm.trans (sortByText_perm others)
    | tuple _ | record _ _ => contradiction
    | _ => simp [mark?, object] at hmark

/-- Values that are alike have the same text once their names are sorted. -/
theorem Alike.orderedJson_eq {v w : Value} (hv : IsJson v) (h : Alike v w) :
  v.orderedJson = w.orderedJson
  := by
  induction v, hv using jsonInduction generalizing w with
  | onNull | onBool | onInt | onText =>
    cases h
    rfl
  | onFloat x =>
    cases h with
    | float h => exact Binary64.write_jsonNumbers_eq_iff.mpr h
  | onList vs hvs ih =>
    cases h with
    | @list _ ws hall =>
      rw [orderedJson_list, orderedJson_list]
      have hmap : vs.map orderedJson = ws.map orderedJson := by
        have hforall := allAlike_iff.mp hall
        clear hall hvs
        induction hforall with
        | nil => rfl
        | cons h _ ihs =>
          rw [List.map_cons, List.map_cons, ih _ (by simp) h, ihs fun v hv => ih v (by simp [hv])]
      rw [hmap]
  | onObject pairs distinct hpairs ih =>
    obtain ⟨others, swapped, rfl, halike, hperm⟩ := alike_object.mp h
    have distinct' : (others.map Prod.fst).Nodup := by
      rw [← halike.names_eq]
      exact distinct
    have hmembers : (sortByText pairs).map memberJson = (sortByText swapped).map memberJson := by
      have htexts : pairs.map (fun p => (p.1, p.2.orderedJson)) =
          others.map fun p => (p.1, p.2.orderedJson) := by
        clear distinct distinct' hpairs hperm h
        induction halike with
        | nil => rfl
        | cons h _ ihs =>
          rw [List.map_cons, List.map_cons, h.1, ih _ (by simp) h.2,
            ihs fun p hp => ih p (by simp [hp])]
      have hmember (ps : List (String × Value)) : (sortByText ps).map memberJson =
          (sortByText (ps.map fun p => (p.1, p.2.orderedJson))).map fun p =>
            Text.jsonString p.1.toList ++ [':', ' '] ++ p.2 := by
        rw [sortByText_map, List.map_map]
        rfl
      rw [← sortByText_eq_of_perm distinct' hperm, hmember, hmember, htexts]
    rw [orderedJson_object, orderedJson_object, hmembers]

/-- Two JSON values have canonical texts, and they have the same one exactly when what is shown
of them differs at most in the order of entries. -/
theorem canonical_eq_iff {v w : Value} (hv : IsJson v) (hw : IsJson w) :
  ∃ cs ds, canonical v = .ok cs ∧ canonical w = .ok ds ∧ (cs = ds ↔ Alike v.shown w.shown)
  := by
  refine ⟨v.shown.orderedJson, w.shown.orderedJson, canonical_eq hv, canonical_eq hw, ?_⟩
  have hstops : Stops [] := by simp [Stops]
  constructor
  · intro h
    have happend : v.shown.orderedJson ++ [] = w.shown.orderedJson ++ [] := by rw [h]
    exact (orderedJson_append_injective hv.shown hw.shown hstops hstops happend).1
  · exact Alike.orderedJson_eq hv.shown

/-- The order of names and a reserved name make no difference. -/
theorem canonical_eq_iff_swapped :
  IsJson (object [("a", .int 1), ("b", .list [.null])]) ∧
  IsJson (object [("py/id", .int 7), ("b", .list [.null]), ("a", .int 1)]) ∧
  canonical (object [("a", .int 1), ("b", .list [.null])]) =
    canonical (object [("py/id", .int 7), ("b", .list [.null]), ("a", .int 1)])
  := by
  have hv : IsJson (object [("a", .int 1), ("b", .list [.null])]) := by
    simp [isJson_object, IsJson, AreJson]
  have hw : IsJson (object [("py/id", .int 7), ("b", .list [.null]), ("a", .int 1)]) := by
    simp [isJson_object, IsJson, AreJson]
  refine ⟨hv, hw, ?_⟩
  obtain ⟨cs, ds, hcs, hds, hiff⟩ := canonical_eq_iff hv hw
  have hpairs : PairsAlike [("a", .int 1), ("b", .list [.null])]
      [("a", .int 1), ("b", .list [.null])] :=
    .cons ⟨rfl, .int 1⟩ (.cons ⟨rfl, .list (.cons .null .nil)⟩ .nil)
  rw [hcs, hds, hiff.mpr (alike_object.mpr ⟨_, _, rfl, hpairs, .swap _ _ _⟩)]

end Value

end Installation

import Installation.Condition.Memory
import Installation.Proofs.Reconcile.Condition
import Mathlib.Data.List.Induction

/-!
# Conditions over a run

What becomes of conditions into which new ones are merged one after the other.  A `Notice` is
a new condition with a type and a status, and the time at which it is merged in.  Each of them
replaces the first condition of its type or comes last, `Notice.Step`; over a run that starts
without conditions there is one of each type, which has the entries of all notices of that type
laid over each other and the time at which their last streak of equal statuses has begun:
`run_notices`.
-/

namespace Installation

open Value

/-- A new condition, with its type and its status, and the time at which it is merged in. -/
structure Notice where
  pairs : List (String × Value)
  type : String
  status : String
  now : String
  distinct : (pairs.map Prod.fst).Nodup
  typed : pairs.lookup "type" = some (.text type)
  stated : pairs.lookup "status" = some (.text status)
  timed : now ≠ ""

namespace Notice

/-- The new condition. -/
def condition (n : Notice) : Value := object n.pairs

/-- Conditions with the new one merged in. -/
def merge (n : Notice) (conditions : List Value) : Except Fault (List Value) :=
  Condition.upsert n.now (.list conditions) n.condition

/-- The named values of the new condition where there is none of its type. -/
def firstPairs (n : Notice) : List (String × Value) :=
  Assoc.insert "lastTransitionTime" (.text n.now) n.pairs

/-- The entries of a condition that takes over those of the new one. -/
def renewed (n : Notice) (entries : List (Key × Value)) : List (Key × Value) :=
  Condition.stamp (Condition.transitionTime n.now (.text n.status) entries)
    (Assoc.overlay entries (named n.pairs))

end Notice

/-- Whether a condition is of a type. -/
def Value.isOfType (type c : Value) : Bool := c.under "type" == type

/-! ### One notice -/

/-- Conditions before the first one of a type are passed over. -/
theorem Condition.merge_passedOver (now : String) {entries : List (Key × Value)} {type : Value}
    (htype : entryAt? "type" entries = some type) {front : List Value}
    (hobjects : ∀ c ∈ front, ∃ es, c = .dict es)
    (hother : ∀ c ∈ front, type.isOfType c = false) (back : List Value) :
  merge now (.dict entries) (front ++ back) =
    (merge now (.dict entries) back).map fun merged => front ++ merged
  := by
  have hitem : (Value.dict entries).item "type" = .ok type := by
    rw [item, htype]
  induction front with
  | nil =>
    rw [List.nil_append]
    cases merge now (.dict entries) back <;> rfl
  | cons c front ih =>
    rw [List.forall_mem_cons] at hobjects hother
    obtain ⟨⟨es, rfl⟩, hfront⟩ := hobjects
    have hne : ((entryAt? "type" es).getD .null == type) = false := hother.1
    rw [List.cons_append, merge, hitem, ih hfront hother.2]
    simp only [bind, Except.bind, hne]
    cases merge now (.dict entries) back <;> rfl

namespace Notice

variable (n : Notice)

theorem entryAt?_type :
  entryAt? "type" (named n.pairs) = some (.text n.type)
  := by
  rw [entryAt?_named, n.typed]

theorem merge_list (conditions : List Value) :
  n.merge conditions = Condition.merge n.now n.condition conditions
  := by
  have hlist : Condition.ofValue (.list conditions) = .ok conditions := by
    rw [Condition.ofValue]
    cases conditions <;> rfl
  rw [merge, Condition.upsert, hlist]
  rfl

/-- The first condition of a type is of that type. -/
theorem under_type_firstPairs :
  (object n.firstPairs).under "type" = .text n.type
  := by
  rw [under_object, firstPairs, Assoc.lookup_insert, n.typed]
  rfl

/-- A condition that takes over the entries of a new one is of its type. -/
theorem under_type_renewed (entries : List (Key × Value)) :
  (Value.dict (n.renewed entries)).under "type" = .text n.type
  := by
  have hne : ("type" == "lastTransitionTime") = false := by decide
  rw [under, renewed, Condition.stamp, Condition.transitionKey, entryAt?_insert, hne,
    entryAt?_overlay_named entries n.distinct, n.typed]
  rfl

section Merge

variable {front : List Value} (hobjects : ∀ c ∈ front, ∃ es, c = .dict es)
  (hother : ∀ c ∈ front, (Value.text n.type).isOfType c = false)

include hobjects hother

/-- The first condition of a type comes last. -/
theorem merge_absent :
  n.merge front = .ok (front ++ [object n.firstPairs])
  := by
  have hlast := Condition.merge_passedOver n.now n.entryAt?_type hobjects hother []
  rw [List.append_nil] at hlast
  rw [merge_list, condition, object, hlast, firstPairs, object, ← insert_named]
  rfl

/-- A condition takes over the entries of the first notice of its type. -/
theorem merge_present {entries : List (Key × Value)}
    (htype : (Value.text n.type).isOfType (.dict entries)) (back : List Value) :
  n.merge (front ++ .dict entries :: back) = .ok (front ++ .dict (n.renewed entries) :: back)
  := by
  have hitem (name : String) {v : Value} (h : n.pairs.lookup name = some v) :
      (Value.dict (named n.pairs)).item name = .ok v := by
    rw [item, entryAt?_named, h]
  have hrenew : Condition.renew n.now entries (.dict (named n.pairs)) =
      .ok (.dict (n.renewed entries)) := by
    rw [Condition.renew, hitem _ n.stated, spread_dict]
    rfl
  rw [merge_list, condition, object,
    Condition.merge_passedOver n.now n.entryAt?_type hobjects hother, Condition.merge,
    hitem _ n.typed, hrenew]
  change Except.map _ (if (Value.text n.type).isOfType (.dict entries) = true then _ else _) = _
  rw [if_pos htype]
  rfl

end Merge

/-- Conditions of which one was replaced by a new one of its type, or to which a new one was
added where there was none of its type. -/
inductive Merges : List Value → List Value → Prop
  | append {conditions : List Value} {entries : List (Key × Value)}
    (absent : ∀ c ∈ conditions, (Value.text n.type).isOfType c = false)
    (typed : (Value.dict entries).under "type" = .text n.type) :
    Merges conditions (conditions ++ [.dict entries])
  | replace {front back : List Value} {old : Value} {entries : List (Key × Value)}
    (first : ∀ c ∈ front, (Value.text n.type).isOfType c = false)
    (present : (Value.text n.type).isOfType old)
    (typed : (Value.dict entries).under "type" = .text n.type) :
    Merges (front ++ old :: back) (front ++ .dict entries :: back)

variable {n}

/-- Of a type that was there, there are no more conditions than before. -/
theorem Merges.countP_le {conditions merged : List Value} (h : n.Merges conditions merged)
    {type : Value} (hthere : ∃ c ∈ conditions, type.isOfType c) :
  merged.countP type.isOfType ≤ conditions.countP type.isOfType
  := by
  cases h with
  | @append _ entries absent typed =>
    have hother : type.isOfType (.dict entries) = false := by
      rw [Bool.eq_false_iff, isOfType, typed]
      intro hequal
      obtain rfl := eq_of_text_equal hequal
      obtain ⟨c, hc, hpresent⟩ := hthere
      rw [absent c hc] at hpresent
      contradiction
    simp [hother]
  | @replace front back old entries first present typed =>
    have hsame : type.isOfType (.dict entries) = type.isOfType old := by
      rw [isOfType, isOfType, typed, eq_of_equal_text present]
    simp [List.countP_cons, hsame]

variable (n) in
/-- What merging a new condition into conditions does: it replaces the first condition of its
type in its place or comes last, and where the conditions are held in memory all lists there
stay as they are, that of the conditions included. -/
structure Step (conditions merged : List Value) : Prop where
  result : n.merge conditions = .ok merged
  merges : n.Merges conditions merged
  count : ∀ type : Value, (∃ c ∈ conditions, type.isOfType c) →
    merged.countP type.isOfType ≤ conditions.countP type.isOfType
  memory : ∀ (m : Memory Value) (passed : Address), m.read passed = conditions →
    ∃ m', Condition.upsertAt n.now n.condition passed m = .ok (m.next, m') ∧
      m'.read m.next = merged ∧ ∀ a < m.next, m'.read a = m.read a

/-- A new condition goes into all conditions that are dictionaries. -/
theorem exists_step (n : Notice) {conditions : List Value}
    (hobjects : ∀ c ∈ conditions, ∃ es, c = .dict es) :
  ∃ merged, n.Step conditions merged ∧ ∀ c ∈ merged, ∃ es, c = .dict es
  := by
  have hstep {merged : List Value} (hresult : n.merge conditions = .ok merged)
      (hmerges : n.Merges conditions merged) : n.Step conditions merged := by
    constructor
    · exact hresult
    · exact hmerges
    · exact fun type => hmerges.countP_le
    · rintro m passed rfl
      use m.create merged
      rw [Condition.upsertAt_eq]
      constructor
      · rw [merge] at hresult
        rw [hresult]
        rfl
      · exact ⟨Memory.read_next merged m, fun a ha => Memory.read_create ha merged⟩
  cases hfound : conditions.find? (Value.text n.type).isOfType with
  | none =>
    have habsent : ∀ c ∈ conditions, (Value.text n.type).isOfType c = false := by
      simpa using hfound
    use conditions ++ [object n.firstPairs]
    constructor
    · apply hstep (n.merge_absent hobjects habsent)
      exact .append habsent n.under_type_firstPairs
    · simp only [List.forall_mem_append, List.forall_mem_singleton]
      exact ⟨hobjects, _, rfl⟩
  | some c =>
    obtain ⟨hpresent, front, back, rfl, hfront⟩ := List.find?_eq_some_iff_append.mp hfound
    simp only [Bool.not_eq_true'] at hfront
    simp only [List.forall_mem_append, List.forall_mem_cons] at hobjects
    obtain ⟨hfrontObjects, ⟨entries, rfl⟩, hbackObjects⟩ := hobjects
    use front ++ .dict (n.renewed entries) :: back
    constructor
    · apply hstep
      · exact n.merge_present hfrontObjects hfront hpresent back
      · exact .replace hfront hpresent (n.under_type_renewed entries)
    · simp only [List.forall_mem_append, List.forall_mem_cons]
      exact ⟨hfrontObjects, ⟨_, rfl⟩, hbackObjects⟩

end Notice

/-! ### Notices of one type -/

/-- The named values of notices laid over each other, one after the other. -/
def overlaid (notices : List Notice) : List (String × Value) :=
  Assoc.ofPairs (notices.flatMap Notice.pairs)

/-- What the condition of a type has after notices of this type: their named values laid over
each other, and as the time of its last transition that of the first notice of the last streak
of equal statuses. -/
structure Sums (notices : List Notice) (pairs : List (String × Value)) : Prop where
  distinct : (pairs.map Prod.fst).Nodup
  fields : ∀ name, name ≠ "lastTransitionTime" →
    pairs.lookup name = (overlaid notices).lookup name
  streak : ∃ earlier first later, notices = earlier ++ first :: later ∧
    (∀ n ∈ later, n.status = first.status) ∧ (∀ n ∈ earlier.getLast?, n.status ≠ first.status) ∧
    pairs.lookup "lastTransitionTime" = some (.text first.now)

theorem lookup_overlaid_append (notices : List Notice) (n : Notice) (name : String) :
  (overlaid (notices ++ [n])).lookup name =
    (n.pairs.lookup name).or ((overlaid notices).lookup name)
  := by
  rw [overlaid, Assoc.ofPairs, List.flatMap_append, List.flatMap_singleton, Assoc.overlay_append,
    Assoc.lookup_overlay _ n.distinct, overlaid, Assoc.ofPairs]

namespace Notice

variable (n : Notice)

/-- The named values of a condition that takes over those of the new one. -/
def renewedPairs (pairs : List (String × Value)) : List (String × Value) :=
  Assoc.insert "lastTransitionTime"
    (Condition.transitionTime n.now (.text n.status) (named pairs)) (Assoc.overlay pairs n.pairs)

theorem renewed_named (pairs : List (String × Value)) :
  n.renewed (named pairs) = named (n.renewedPairs pairs)
  := by
  rw [renewed, Condition.stamp, Condition.transitionKey, overlay_named, insert_named,
    renewedPairs]

/-- The first notice of a type. -/
theorem sums_firstPairs :
  Sums [n] n.firstPairs
  := by
  constructor
  · exact Assoc.nodup_insert _ _ n.distinct
  · intro name hname
    have hne : (name == "lastTransitionTime") = false := by simpa using hname
    have hsingle := lookup_overlaid_append [] n name
    rw [List.nil_append] at hsingle
    rw [firstPairs, Assoc.lookup_insert, hne, hsingle]
    cases n.pairs.lookup name <;> rfl
  · use [], n, []
    refine ⟨rfl, by simp, by simp, ?_⟩
    rw [firstPairs, Assoc.lookup_insert, beq_self_eq_true]
    rfl

end Notice

namespace Sums

variable {notices : List Notice} {pairs : List (String × Value)}

/-- What all notices name is in the condition as the last one has it. -/
theorem lookup_last {last : Notice} (h : Sums (notices ++ [last]) pairs) {name : String}
    (hname : name ≠ "lastTransitionTime") {v : Value} (hlast : last.pairs.lookup name = some v) :
  pairs.lookup name = some v
  := by
  rw [h.fields name hname, lookup_overlaid_append, hlast, Option.some_or]

/-- The last notice is of the last streak of equal statuses. -/
theorem exists_last (earlier : List Notice) {first : Notice} {later : List Notice}
    (hsame : ∀ n ∈ later, n.status = first.status) :
  ∃ init last, earlier ++ first :: later = init ++ [last] ∧ last.status = first.status
  := by
  use earlier ++ (first :: later).dropLast, (first :: later).getLast (by simp)
  constructor
  · rw [List.append_assoc, List.dropLast_append_getLast]
  · have hmem : (first :: later).getLast (by simp) ∈ first :: later := List.getLast_mem _
    obtain hfirst | hlater := List.mem_cons.mp hmem
    · rw [hfirst]
    · exact hsame _ hlater

variable (h : Sums notices pairs)

include h

/-- The condition of a type is of that type. -/
theorem under_type {type : String} (htype : ∀ n ∈ notices, n.type = type) :
  (object pairs).under "type" = .text type
  := by
  obtain ⟨earlier, first, later, rfl, hsame, -, -⟩ := h.streak
  obtain ⟨init, last, heq, -⟩ := exists_last earlier hsame
  rw [heq] at h htype
  have hlast : last.type = type := htype last (by simp)
  rw [under_object, h.lookup_last (by decide) last.typed, hlast]
  rfl

/-- The time of the last transition stays as long as the status does. -/
theorem transitionTime {earlier later : List Notice} {first : Notice}
    (hnotices : notices = earlier ++ first :: later)
    (hsame : ∀ n ∈ later, n.status = first.status)
    (htime : pairs.lookup "lastTransitionTime" = some (.text first.now)) (now status : String) :
  Condition.transitionTime now (.text status) (named pairs) =
    .text (if first.status = status then first.now else now)
  := by
  obtain ⟨init, last, heq, hlast⟩ := exists_last earlier hsame
  rw [hnotices, heq] at h
  have hstatus := h.lookup_last (by decide) last.stated
  have hgiven : (Value.text first.now).orElse (.text now) = .text first.now := by
    simp [Value.orElse, Value.truthy, first.timed]
  rw [Condition.transitionTime, entryAt?_named, entryAt?_named, hstatus, htime, hlast,
    Option.getD_some, Option.getD_some, text_beq_text, hgiven]
  by_cases heq : first.status = status
  · simp [heq]
  · simp [heq]

/-- One more notice of the type. -/
theorem append (n : Notice) :
  Sums (notices ++ [n]) (n.renewedPairs pairs)
  := by
  obtain ⟨earlier, first, later, hnotices, hsame, hmaximal, htime⟩ := h.streak
  have htransition := h.transitionTime hnotices hsame htime n.now n.status
  constructor
  · exact Assoc.nodup_insert _ _ (Assoc.nodup_overlay h.distinct n.pairs)
  · intro name hname
    have hne : (name == "lastTransitionTime") = false := by simpa using hname
    rw [Notice.renewedPairs, Assoc.lookup_insert, hne, lookup_overlaid_append]
    simp only [Bool.false_eq_true, if_false]
    rw [Assoc.lookup_overlay _ n.distinct, h.fields name hname]
  · rw [Notice.renewedPairs, htransition, Assoc.lookup_insert, beq_self_eq_true]
    by_cases hstatus : first.status = n.status
    · use earlier, first, later ++ [n]
      refine ⟨by simp [hnotices], ?_, hmaximal, by simp [hstatus]⟩
      simp only [List.forall_mem_append, List.forall_mem_singleton]
      exact ⟨hsame, hstatus.symm⟩
    · use notices, n, []
      refine ⟨rfl, by simp, ?_, by simp [hstatus]⟩
      obtain ⟨init, last, heq, hlast⟩ := exists_last earlier hsame
      rw [hnotices, heq]
      simpa [hlast] using hstatus

end Sums

/-! ### Runs -/

namespace Notice

/-- Conditions with new ones merged in one after the other. -/
def run (conditions : List Value) : List Notice → Except Fault (List Value)
  | [] => .ok conditions
  | n :: notices => (n.merge conditions).bind fun merged => run merged notices

/-- The types of notices, in the order in which they appear. -/
def types (notices : List Notice) : List String := (notices.map Notice.type).eraseDups

/-- The notices of a type. -/
def ofType (type : String) (notices : List Notice) : List Notice :=
  notices.filter fun n => n.type == type

/-- A run goes on from where an earlier one has ended. -/
theorem run_append (conditions : List Value) (earlier later : List Notice) :
  run conditions (earlier ++ later) =
    (run conditions earlier).bind fun merged => run merged later
  := by
  induction earlier generalizing conditions with
  | nil => rfl
  | cons n earlier ih =>
    rw [List.cons_append, run, run]
    cases n.merge conditions with
    | error fault => rfl
    | ok merged => exact ih merged

/-- A run that starts with dictionaries comes to its end, and has dictionaries there. -/
theorem exists_run {conditions : List Value} (hobjects : ∀ c ∈ conditions, ∃ es, c = .dict es)
    (notices : List Notice) :
  ∃ last, run conditions notices = .ok last ∧ ∀ c ∈ last, ∃ es, c = .dict es
  := by
  induction notices generalizing conditions with
  | nil => exact ⟨conditions, rfl, hobjects⟩
  | cons n notices ih =>
    obtain ⟨merged, hstep, hmerged⟩ := n.exists_step hobjects
    rw [run, hstep.result]
    exact ih hmerged

/-- A type is new, or has appeared before. -/
theorem types_append (notices : List Notice) (n : Notice) :
  types (notices ++ [n]) =
    if n.type ∈ types notices then types notices else types notices ++ [n.type]
  := by
  rw [types, List.map_append, List.map_singleton, List.eraseDups_append, ← types]
  by_cases hmem : n.type ∈ types notices
  · have hnone : [n.type].removeAll (notices.map Notice.type) = [] := by
      simpa [List.removeAll, types] using hmem
    rw [hnone, if_pos hmem, List.eraseDups_nil, List.append_nil]
  · have hone : [n.type].removeAll (notices.map Notice.type) = [n.type] := by
      simpa [List.removeAll, types] using hmem
    rw [hone, if_neg hmem]
    rfl

theorem nodup_types (notices : List Notice) :
  (types notices).Nodup
  := by
  induction notices using List.reverseRecOn with
  | nil => exact .nil
  | append_singleton notices n ih =>
    rw [types_append]
    split
    · exact ih
    · rename_i hnew
      rw [List.nodup_append]
      refine ⟨ih, by simp, ?_⟩
      rintro type htype other hother rfl
      rw [List.mem_singleton] at hother
      exact hnew (hother ▸ htype)

theorem mem_types {type : String} {notices : List Notice} :
  type ∈ types notices ↔ ∃ n ∈ notices, n.type = type
  := by
  rw [types, List.mem_eraseDups, List.mem_map]

section Types

variable {notices : List Notice} {pairs : String → List (String × Value)}
  (hsums : ∀ type ∈ types notices, Sums (ofType type notices) (pairs type))

include hsums

/-- The conditions of other types are not of a type. -/
theorem isOfType_other {type : String} {others : List String} (hsub : others ⊆ types notices)
    (hnew : type ∉ others) :
  ∀ c ∈ others.map fun type => object (pairs type), (Value.text type).isOfType c = false
  := by
  rw [List.forall_mem_map]
  intro other hother
  have hne : other ≠ type := by
    rintro rfl
    exact hnew hother
  have hunder : (object (pairs other)).under "type" = .text other := by
    apply (hsums other (hsub hother)).under_type
    simp [ofType]
  rw [isOfType, hunder, text_beq_text]
  simpa using hne

/-- A notice changes the condition of its type alone. -/
theorem merge_types (n : Notice) :
  ∃ new, Sums (ofType n.type notices ++ [n]) new ∧
    n.merge ((types notices).map fun type => object (pairs type)) =
      .ok ((types (notices ++ [n])).map fun type => object (Function.update pairs n.type new type))
  := by
  have hobjects (types : List String) :
      ∀ c ∈ types.map fun type => object (pairs type), ∃ es, c = .dict es := by
    simp [object]
  have hsame {others : List String} (hnew : n.type ∉ others) (new : List (String × Value)) :
      (others.map fun type => object (Function.update pairs n.type new type)) =
        others.map fun type => object (pairs type) := by
    apply List.map_congr_left
    intro type htype
    rw [Function.update_of_ne]
    rintro rfl
    exact hnew htype
  rw [types_append]
  by_cases hmem : n.type ∈ types notices
  · have hold := hsums n.type hmem
    use n.renewedPairs (pairs n.type)
    constructor
    · exact hold.append n
    · obtain ⟨front, back, hsplit⟩ := List.append_of_mem hmem
      have distinct := nodup_types notices
      rw [hsplit, List.nodup_append, List.nodup_cons] at distinct
      obtain ⟨-, ⟨hback, -⟩, hapart⟩ := distinct
      have hfront : n.type ∉ front := fun h => hapart _ h _ (List.mem_cons_self ..) rfl
      have hother : ∀ c ∈ front.map fun type => object (pairs type),
          (Value.text n.type).isOfType c = false := by
        apply isOfType_other hsums _ hfront
        simp [hsplit]
      have hunder : (object (pairs n.type)).under "type" = .text n.type := by
        apply hold.under_type
        simp [ofType]
      have hpresent : (Value.text n.type).isOfType (.dict (named (pairs n.type))) := by
        rw [isOfType, ← object, hunder]
        simp
      have hmerge := n.merge_present (hobjects front) hother hpresent
        (back.map fun type => object (pairs type))
      rw [renewed_named] at hmerge
      rw [if_pos hmem, hsplit, List.map_append, List.map_cons, List.map_append, List.map_cons,
        hsame hfront, hsame hback, Function.update_self]
      exact hmerge
  · use n.firstPairs
    constructor
    · have hnone : ofType n.type notices = [] := by
        simpa [ofType, mem_types] using hmem
      rw [hnone]
      exact n.sums_firstPairs
    · rw [if_neg hmem, List.map_append, hsame hmem, List.map_singleton, Function.update_self]
      exact n.merge_absent (hobjects _) (isOfType_other hsums (List.Subset.refl _) hmem)

end Types

/-- What the conditions are after notices, where there were none before: one for each type, in
the order in which the types appear. -/
theorem exists_pairs_of_run (notices : List Notice) :
  ∃ pairs : String → List (String × Value),
    run [] notices = .ok ((types notices).map fun type => object (pairs type)) ∧
    ∀ type ∈ types notices, Sums (ofType type notices) (pairs type)
  := by
  induction notices using List.reverseRecOn with
  | nil =>
    use fun _ => []
    exact ⟨rfl, by simp [types]⟩
  | append_singleton notices n ih =>
    obtain ⟨pairs, hrun, hsums⟩ := ih
    obtain ⟨new, hnew, hmerge⟩ := merge_types hsums n
    use Function.update pairs n.type new
    constructor
    · rw [run_append, hrun]
      change (n.merge _).bind _ = _
      rw [hmerge]
      rfl
    · intro type htype
      rw [ofType, List.filter_append, ← ofType]
      by_cases heq : type = n.type
      · subst heq
        simpa using hnew
      · have hold : type ∈ types notices := by
          rw [mem_types] at htype ⊢
          obtain ⟨m, hm, rfl⟩ := htype
          rw [List.mem_append, List.mem_singleton] at hm
          obtain hm | rfl := hm
          · exact ⟨m, hm, rfl⟩
          · contradiction
        have hne : (n.type == type) = false := by simpa using Ne.symm heq
        simpa [Function.update_of_ne heq, hne] using hsums type hold

end Notice

/-- Over a run of notices, each of them replaces the first condition of its type or comes last,
and the list of conditions that it finds stays as it was.  A run that starts without conditions
ends with one for each type, in the order in which the types appear, that has what all notices
of the type have said. -/
theorem run_notices {initial : List Value} (hobjects : ∀ c ∈ initial, ∃ es, c = .dict es)
    (notices : List Notice) :
  (∀ earlier n later, notices = earlier ++ n :: later →
    ∃ conditions merged, Notice.run initial earlier = .ok conditions ∧ n.Step conditions merged) ∧
  (Notice.types notices).Nodup ∧
  ∃ pairs : String → List (String × Value),
    Notice.run [] notices = .ok ((Notice.types notices).map fun type => object (pairs type)) ∧
    ∀ type ∈ Notice.types notices, Sums (Notice.ofType type notices) (pairs type)
  := by
  refine ⟨?_, Notice.nodup_types notices, Notice.exists_pairs_of_run notices⟩
  intro earlier n later _
  obtain ⟨conditions, hrun, hconditions⟩ := Notice.exists_run hobjects earlier
  obtain ⟨merged, hstep, -⟩ := n.exists_step hconditions
  exact ⟨conditions, merged, hrun, hstep⟩

/-- A notice that a resource is ready or is not, with a time of its own that does not count. -/
def Notice.ready (status now : String) (timed : now ≠ "") : Notice where
  pairs :=
    [("type", .text "Ready"), ("status", .text status), ("lastTransitionTime", .text "never")]
  type := "Ready"
  status := status
  now := now
  distinct := by simp
  typed := rfl
  stated := rfl
  timed := timed

/-- Notices of a resource that is not ready twice and then is. -/
def repairNotices : List Notice :=
  [.ready "False" "morning" (by decide), .ready "False" "noon" (by decide),
   .ready "True" "evening" (by decide)]

/-- Conditions without a type, and with the same type twice. -/
def strayConditions : List Value :=
  [object [("status", .text "True")], object [("type", .text "Ready")],
   object [("type", .text "Ready"), ("status", .text "True")]]

theorem run_notices_repaired :
  (∀ c ∈ strayConditions, ∃ es, c = .dict es) ∧
  (∀ earlier n later, repairNotices = earlier ++ n :: later →
    ∃ conditions merged, Notice.run strayConditions earlier = .ok conditions ∧
      n.Step conditions merged) ∧
  ∃ pairs : String → List (String × Value),
    Notice.run [] repairNotices = .ok [object (pairs "Ready")] ∧
    Sums repairNotices (pairs "Ready")
  := by
  have hobjects : ∀ c ∈ strayConditions, ∃ es, c = .dict es := by
    simp [strayConditions, object]
  obtain ⟨hsteps, -, pairs, hrun, hsums⟩ := run_notices hobjects repairNotices
  have htypes : Notice.types repairNotices = ["Ready"] := by decide
  rw [htypes] at hrun hsums
  refine ⟨hobjects, hsteps, pairs, hrun, ?_⟩
  exact hsums "Ready" (by simp)

end Installation

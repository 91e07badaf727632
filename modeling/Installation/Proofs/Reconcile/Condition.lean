import Installation.Proofs.Reconcile.Data
import Installation.Proofs.Value.Same

/-!
# The condition of a resource

A status that only reconciling has written to holds one condition, `readyData`, or none yet.
The condition keeps the time of its last transition as long as its status stays the same:
`upsert_readyData`.  From this follows what an event adds to such a status, when its spec was
resolved and when its configuration is invalid.
-/

namespace Installation

open Value

/-- The condition of a resource after it was merged into a status. -/
def readyData (ready : Bool) (reason message : String) (generation : Value) (time : String) :
    Value :=
  object
    [("type", .text "Ready"), ("status", .text (if ready then "True" else "False")),
     ("reason", .text reason), ("message", .text message), ("observedGeneration", generation),
     ("lastTransitionTime", .text time)]

/-- What a status holds about whether the spec could be resolved, with the time of the last
transition. -/
def Holds (pairs : List (String × Value)) : Option (Bool × String) → Prop
  | none => pairs.lookup "conditions" = none
  | some (ready, time) => time ≠ "" ∧ ∃ reason message generation,
      pairs.lookup "conditions" = some (.list [readyData ready reason message generation time])

/-- The time of the last transition after an event. -/
def transition (held : Option (Bool × String)) (ready : Bool) (now : String) : String :=
  match held with
  | none => now
  | some (before, time) => if before = ready then time else now

/-- The first condition is stamped with the time of the event. -/
theorem upsert_empty (now : String) (ready : Bool) (reason message : String)
    (generation : Value) :
  Condition.upsert now (.list []) (Event.readyCondition ready reason message generation) =
    .ok [readyData ready reason message generation now]
  := rfl

/-- The entries of a condition take over those of a new one. -/
theorem renew_readyData {now time : String} (htime : time ≠ "") (before ready : Bool)
    (reason reason' message message' : String) (generation generation' : Value) :
  Condition.renew now (readyData before reason message generation time).entries
      (Event.readyCondition ready reason' message' generation') =
    .ok (readyData ready reason' message' generation' (transition (some (before, time)) ready now))
  := by
  have hstatus : Condition.transitionTime now (.text (if ready then "True" else "False"))
      (readyData before reason message generation time).entries =
      .text (transition (some (before, time)) ready now) := by
    have hgiven : (Value.text time).orElse (.text now) = .text time := by
      simp [Value.orElse, Value.truthy, htime]
    have hfound : (entryAt? "status"
        (readyData before reason message generation time).entries).getD .null =
        .text (if before then "True" else "False") := rfl
    have hlast : (entryAt? "lastTransitionTime"
        (readyData before reason message generation time).entries).getD .null = .text time := rfl
    rw [Condition.transitionTime, hfound, hlast, hgiven, transition]
    cases before <;> cases ready <;> simp
  change Except.ok (Value.dict (Condition.stamp (Condition.transitionTime now
    (.text (if ready then "True" else "False"))
    (readyData before reason message generation time).entries) _)) = _
  rw [hstatus]
  rfl

/-- The condition takes over what is new, and moves its time when its status changes. -/
theorem upsert_readyData {now time : String} (htime : time ≠ "") (before ready : Bool)
    (reason reason' message message' : String) (generation generation' : Value) :
  Condition.upsert now (.list [readyData before reason message generation time])
      (Event.readyCondition ready reason' message' generation') =
    .ok [readyData ready reason' message' generation'
      (transition (some (before, time)) ready now)]
  := by
  have htype : ((entryAt? "type" (readyData before reason message generation time).entries).getD
      .null == Value.text "Ready") = true := by
    change (Value.text "Ready" == Value.text "Ready") = true
    simp
  change Condition.merge now (Event.readyCondition ready reason' message' generation')
    [.dict (readyData before reason message generation time).entries] = _
  rw [Condition.merge]
  change (if ((entryAt? "type" (readyData before reason message generation time).entries).getD
      .null == Value.text "Ready") = true
    then (Condition.renew now (readyData before reason message generation time).entries
      (Event.readyCondition ready reason' message' generation')).bind fun renewed =>
        Except.ok [renewed]
    else _) = _
  rw [if_pos htype, renew_readyData htime]
  rfl

/-! ### What events add to a status -/

/-- The generation in metadata, or zero. -/
def generationOf : Value → Value
  | .dict es => (entryAt? "generation" es).getD (.int 0)
  | _ => .int 0

/-- The entries of a status about whether the spec could be resolved. -/
def outcomePairs (ready : Bool) (reason message : String) (error generation : Value)
    (time : String) : List (String × Value) :=
  [("conditions", .list [readyData ready reason message generation time]), ("error", error),
   ("observedGeneration", generation)]

section Event

variable {event : Event} {pairs : List (String × Value)} {metadata : List (Key × Value)}
  {held : Option (Bool × String)}

theorem upsert_holds (hstatus : event.status = object pairs) (hheld : Holds pairs held)
    (ready : Bool) (reason message : String) (generation : Value) :
  ∃ conditions, event.conditions = .ok conditions ∧
    Condition.upsert event.now conditions
        (Event.readyCondition ready reason message generation) =
      .ok [readyData ready reason message generation (transition held ready event.now)]
  := by
  have hconditions : event.conditions =
      .ok ((pairs.lookup "conditions").getD (.list [])) := by
    rw [Event.conditions, hstatus]
    cases pairs with
    | nil => rfl
    | cons p pairs =>
      change (object (p :: pairs)).getOr "conditions" (.list []) = _
      rw [object, getOr_dict, entryAt?_named]
  refine ⟨_, hconditions, ?_⟩
  cases held with
  | none =>
    rw [show pairs.lookup "conditions" = none from hheld]
    exact upsert_empty event.now ready reason message generation
  | some before =>
    obtain ⟨htime, reason', message', generation', hlookup⟩ := hheld
    rw [hlookup]
    exact upsert_readyData htime before.1 ready reason' reason message' message generation'
      generation

theorem generation_eq (hmetadata : event.metadata = .dict metadata) :
  event.generation = .ok (generationOf event.metadata)
  := by
  rw [Event.generation, hmetadata, getOr_dict]
  rfl

/-- The entries that an event adds to a status. -/
theorem statusEntries_holds (hstatus : event.status = object pairs)
    (hmetadata : event.metadata = .dict metadata) (hheld : Holds pairs held) (ready : Bool)
    (reason message : String) (error : Value) (about : List (Key × Value)) :
  event.statusEntries ready reason message error (.ok about) =
    .ok (about ++ named (outcomePairs ready reason message error (generationOf event.metadata)
      (transition held ready event.now)))
  := by
  obtain ⟨conditions, hconditions, hupsert⟩ :=
    upsert_holds hstatus hheld ready reason message (generationOf event.metadata)
  unfold Event.statusEntries
  rw [generation_eq hmetadata, hconditions]
  simp only [bind, Except.bind]
  rw [hupsert]
  rfl

/-- What an event adds to a status, if it comes to that. -/
theorem exists_conditions_of_statusEntries {ready : Bool} {reason message : String}
    {error : Value} {about es : List (Key × Value)}
    (h : event.statusEntries ready reason message error (.ok about) = .ok es) :
  ∃ conditions generation, es = about ++ named
    [("conditions", .list conditions), ("error", error), ("observedGeneration", generation)]
  := by
  unfold Event.statusEntries at h
  cases hgeneration : event.generation with
  | error fault => simp [hgeneration, bind, Except.bind] at h
  | ok generation =>
    cases hconditions : event.conditions with
    | error fault => simp [hgeneration, hconditions, bind, Except.bind] at h
    | ok conditions =>
      simp only [hgeneration, hconditions, bind, Except.bind] at h
      split at h
      · contradiction
      · exact ⟨_, _, (Except.ok.inj h).symm⟩

/-- What an event adds to a status starts with what is published about the resource. -/
theorem exists_of_statusEntries {ready : Bool} {reason message : String} {error : Value}
    {about es : List (Key × Value)}
    (h : event.statusEntries ready reason message error (.ok about) = .ok es) :
  ∃ rest, es = about ++ rest
  := by
  obtain ⟨conditions, generation, rfl⟩ := exists_conditions_of_statusEntries h
  exact ⟨_, rfl⟩

/-- What comes of an invalid configuration. -/
theorem reject_holds (hstatus : event.status = object pairs)
    (hmetadata : event.metadata = .dict metadata) (hheld : Holds pairs held) :
  event.reject.fault? = some (.permanent Fault.hostRequired.text) ∧
  event.reject.patch = ⟨none, some (named (outcomePairs false Event.invalidReason
    Fault.hostRequired.text (.text Fault.hostRequired.text) (generationOf event.metadata)
    (transition held false event.now)))⟩
  := by
  rw [Event.reject, statusEntries_holds hstatus hmetadata hheld]
  exact ⟨rfl, rfl⟩

/-- What comes of a spec that was resolved. -/
theorem publish_holds (hstatus : event.status = object pairs)
    (hmetadata : event.metadata = .dict metadata) (hheld : Holds pairs held) {r : Resource}
    {about : List (Key × Value)} (habout : r.status = .ok about) :
  (event.publish r).fault? = none ∧
  (event.publish r).patch = ⟨event.writeBack? r, some (about ++ named (outcomePairs true
    Event.resolvedReason s!"{resourceKind} {r.name} spec resolved" .null
    (generationOf event.metadata) (transition held true event.now)))⟩
  := by
  rw [Event.publish, habout, statusEntries_holds hstatus hmetadata hheld]
  exact ⟨rfl, rfl⟩

/-! ### Well-formed statuses -/

/-- A list of dictionaries, which may be left out. -/
def IsConditions (v : Value) : Prop :=
  v = .null ∨ ∃ conditions, v = .list conditions ∧ ∀ c ∈ conditions, ∃ es, c = .dict es

/-- A status with conditions that are well formed; both may be left out. -/
def WellFormedStatus (status : Value) : Prop :=
  status = .null ∨ ∃ es, status = .dict es ∧ ∀ v ∈ entryAt? "conditions" es, IsConditions v

theorem merge_readyCondition (now : String) (ready : Bool) (reason message : String)
    (generation : Value) {conditions : List Value}
    (h : ∀ c ∈ conditions, ∃ es, c = .dict es) :
  ∃ merged, Condition.merge now (Event.readyCondition ready reason message generation)
    conditions = .ok merged
  := by
  induction conditions with
  | nil => exact ⟨_, rfl⟩
  | cons c conditions ih =>
    rw [List.forall_mem_cons] at h
    obtain ⟨⟨es, rfl⟩, hrest⟩ := h
    obtain ⟨merged, hmerged⟩ := ih hrest
    rw [Condition.merge, hmerged]
    change ∃ merged, (if ((entryAt? "type" es).getD .null == Value.text "Ready") = true
      then _ else _) = Except.ok merged
    split
    · exact ⟨_, rfl⟩
    · exact ⟨_, rfl⟩

/-- The condition of a resource goes into all conditions that are well formed. -/
theorem upsert_wellFormed (now : String) (ready : Bool) (reason message : String)
    (generation : Value) {v : Value} (h : IsConditions v) :
  ∃ merged, Condition.upsert now v (Event.readyCondition ready reason message generation) =
    .ok merged
  := by
  obtain rfl | ⟨conditions, rfl, hdicts⟩ := h
  · exact ⟨_, rfl⟩
  · have hof : Condition.ofValue (.list conditions) = .ok conditions := by
      cases conditions with
      | nil => rfl
      | cons c conditions => rfl
    rw [Condition.upsert, hof]
    exact merge_readyCondition now ready reason message generation hdicts

/-- What an event adds to a status that is well formed. -/
theorem statusEntries_conditions (hstatus : WellFormedStatus event.status)
    (hmetadata : event.metadata = .dict metadata) (ready : Bool) (reason message : String)
    (error : Value) (about : List (Key × Value)) :
  ∃ merged, event.statusEntries ready reason message error (.ok about) =
    .ok (about ++ named [("conditions", .list merged), ("error", error),
      ("observedGeneration", generationOf event.metadata)])
  := by
  have hconditions : ∃ v, event.conditions = .ok v ∧ IsConditions v := by
    rw [Event.conditions]
    obtain hnull | ⟨es, hes, hall⟩ := hstatus
    · rw [hnull]
      exact ⟨.list [], rfl, .inr ⟨[], rfl, by simp⟩⟩
    · rw [hes]
      cases es with
      | nil => exact ⟨.list [], rfl, .inr ⟨[], rfl, by simp⟩⟩
      | cons e es =>
        change ∃ v, (Value.dict (e :: es)).getOr "conditions" (.list []) = .ok v ∧ _
        rw [getOr_dict]
        cases hfound : entryAt? "conditions" (e :: es) with
        | none => exact ⟨_, rfl, .inr ⟨[], rfl, by simp⟩⟩
        | some v => exact ⟨v, rfl, hall v hfound⟩
  obtain ⟨v, hv, hwellFormed⟩ := hconditions
  obtain ⟨merged, hmerged⟩ := upsert_wellFormed event.now ready reason message
    (generationOf event.metadata) hwellFormed
  unfold Event.statusEntries
  rw [generation_eq hmetadata, hv]
  simp only [bind, Except.bind]
  rw [hmerged]
  exact ⟨merged, rfl⟩

/-- An event adds to each status that is well formed. -/
theorem statusEntries_wellFormed (hstatus : WellFormedStatus event.status)
    (hmetadata : event.metadata = .dict metadata) (ready : Bool) (reason message : String)
    (error : Value) (about : List (Key × Value)) :
  ∃ rest, event.statusEntries ready reason message error (.ok about) = .ok (about ++ rest)
  := by
  obtain ⟨merged, hentries⟩ :=
    statusEntries_conditions hstatus hmetadata ready reason message error about
  exact ⟨_, hentries⟩

end Event

end Installation

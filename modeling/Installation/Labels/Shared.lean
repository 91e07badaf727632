import Installation.Labels.Basic

/-!
# Labels that share a dictionary

Labels are made from a dictionary of their maker's, and `SharedLabels` keeps account of
both.  Labels that are made from a dictionary with entries are that dictionary, so that a
change of one is a change of the other; those that are made from an empty one, or from
none, are on their own.
-/

namespace Installation

/-- Labels and the dictionary that they were made from. -/
inductive SharedLabels where
  /-- Labels that are the dictionary itself. -/
  | shared (both : Labels)
  /-- Labels on their own, next to the dictionary, if there is one. -/
  | apart (source? : Option Labels) (own : Labels)

namespace SharedLabels

/-- Labels made from a dictionary, if there is one. -/
def make : Option Labels → SharedLabels
  | some ⟨e :: es⟩ => .shared ⟨e :: es⟩
  | source? => .apart source? .empty

/-- The labels. -/
def labels : SharedLabels → Labels
  | .shared both => both
  | .apart _ own => own

/-- The dictionary that the labels were made from, if there is one. -/
def source? : SharedLabels → Option Labels
  | .shared both => some both
  | .apart source? _ => source?

/-- Other labels in the place of the present ones, which the dictionary follows where it
is shared. -/
def modify (labels : Labels) : SharedLabels → SharedLabels
  | .shared _ => .shared labels
  | .apart source? _ => .apart source? labels

/-- Labels on their own next to the same dictionary. -/
def replace (labels : Labels) (s : SharedLabels) : SharedLabels := .apart s.source? labels

/-- Other entries in the dictionary, if there is one, which the labels follow where it is
shared. -/
def setSource (source : Labels) : SharedLabels → SharedLabels
  | .shared _ => .shared source
  | .apart (some _) own => .apart (some source) own
  | .apart none own => .apart none own

/-- The dictionary with one more entry, or one of them replaced. -/
def putSource (label v : Value) : SharedLabels → Except Fault SharedLabels
  | .shared both => label.toKey.map fun label => .shared (both.put label v)
  | .apart (some source) own =>
    label.toKey.map fun label => .apart (some (source.put label v)) own
  | .apart none _ => .error (.notAssignable Value.null.typeName)

/-- One more label, or one of the labels replaced. -/
def put (label : Key) (v : Value) (s : SharedLabels) : SharedLabels :=
  s.modify (s.labels.put label v)

/-- The labels with those on top that a value stands for. -/
def update (v : Value) (s : SharedLabels) : Except Fault SharedLabels :=
  (s.labels.update v).map fun labels => s.modify labels

@[simp]
theorem update_dict (entries : List (Key × Value)) (s : SharedLabels) :
  s.update (.dict entries) = .ok (s.modify (s.labels.overlay ⟨entries⟩))
  := rfl

/-- An entry is put into a dictionary that is there. -/
theorem putSource_eq {s : SharedLabels} {source : Labels} (h : s.source? = some source)
    (label v : Value) :
  s.putSource label v = label.toKey.map fun label => s.setSource (source.put label v)
  := by
  cases s with
  | shared both =>
    obtain rfl : both = source := Option.some.inj h
    rfl
  | apart source? own =>
    obtain rfl : source? = some source := h
    rfl

theorem labels_make (source? : Option Labels) :
  (make source?).labels = source?.getD .empty
  := by
  obtain _ | ⟨_ | _⟩ := source? <;> rfl

@[simp]
theorem source?_make (source? : Option Labels) :
  (make source?).source? = source?
  := by
  obtain _ | ⟨_ | _⟩ := source? <;> rfl

@[simp]
theorem labels_modify (labels : Labels) (s : SharedLabels) :
  (s.modify labels).labels = labels
  := by
  cases s <;> rfl

@[simp]
theorem labels_replace (labels : Labels) (s : SharedLabels) :
  (s.replace labels).labels = labels
  := rfl

@[simp]
theorem source?_replace (labels : Labels) (s : SharedLabels) :
  (s.replace labels).source? = s.source?
  := rfl

end SharedLabels

end Installation

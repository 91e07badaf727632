import Installation.Labels.Basic
import Installation.Memory

/-!
# Labels in memory

How labels come about where dictionaries are held in memory.  `Labels.updateAt` writes the
entries of a dictionary to that of the labels, and reads them from a copy.  Labels that are made
from a dictionary with entries are that dictionary, `Labels.makeAt`.  The labels of an
installation's objects, `Labels.allAt`, are written to a dictionary of their own, which then is
what `Labels.all` gives, and the dictionaries that were there stay as they are, that of the
custom labels included.
-/

namespace Installation

namespace Labels

/-- Make labels from the dictionary at an address, if there is one, and give the address of the
labels.  A dictionary with entries becomes that of the labels. -/
def makeAt (source? : Option Address) (m : Memory (Key × Value)) :
    Address × Memory (Key × Value) :=
  match source? with
  | some source => if (m.read source).isEmpty then (m.next, m.create []) else (source, m)
  | none => (m.next, m.create [])

/-- Put the entries of the dictionary at an address on top of labels. -/
def updateAt (own given : Address) (m : Memory (Key × Value)) : Memory (Key × Value) :=
  let copied := m.create (m.read given)
  copied.write own (Assoc.overlay (copied.read own) (copied.read m.next))

/-- Put one label on top of labels. -/
def putAt (own : Address) (label : Key) (v : Value) (m : Memory (Key × Value)) :
    Memory (Key × Value) :=
  updateAt own m.next (m.create [(label, v)])

/-- Copy labels to a dictionary, and give its address. -/
def copyAt (own : Address) (m : Memory (Key × Value)) : Address × Memory (Key × Value) :=
  (m.next, m.create (m.read own))

/-- Whether all of the labels at another address, which are copied, are among these. -/
def containsAt (own others : Address) (m : Memory (Key × Value)) :
    Bool × Memory (Key × Value) :=
  let (copied, m) := copyAt others m
  (contains ⟨m.read own⟩ ⟨m.read copied⟩, m)

/-- Make the labels that pick the pods that run an installation. -/
def selectorAt (name : Value) (m : Memory (Key × Value)) : Memory (Key × Value) :=
  let own := m.next
  let created := m.create []
  let marked := putAt own (.text resourceLabel) name created
  let placed := putAt own (.text installationLabel) name marked
  putAt own (.text appLabel) (.text appName) placed

/-- Make the labels of an installation's objects, where custom ones may be held at an address.
The new labels are at the next one. -/
def allAt (custom : Option Address) (name : Value) (m : Memory (Key × Value)) :
    Memory (Key × Value) :=
  let own := m.next
  let selected := selectorAt name m
  match custom with
  | some held =>
    if (selected.read held).isEmpty then updateAt own selected.next (selected.create [])
    else updateAt own held selected
  | none => updateAt own selected.next (selected.create [])

/-- Other dictionaries stay as they are when entries are put on top of labels. -/
theorem read_updateAt {own a : Address} {m : Memory (Key × Value)} (ha : a < m.next)
    (hne : a ≠ own) (given : Address) :
  (updateAt own given m).read a = m.read a
  := by
  rw [updateAt, Memory.read_write_ne hne, Memory.read_create ha]

/-- Other dictionaries stay as they are when a label is put on top of labels. -/
theorem read_putAt {own a : Address} {m : Memory (Key × Value)} (ha : a < m.next) (hne : a ≠ own)
    (label : Key) (v : Value) :
  (putAt own label v m).read a = m.read a
  := by
  have hgrows := Memory.next_le_create [(label, v)] m
  rw [putAt, read_updateAt (Nat.lt_of_lt_of_le ha hgrows) hne, Memory.read_create ha]

/-- What somebody does who has labels at an address: only there does a dictionary change that
was there before. -/
structure Writes (own : Address) (entries : List (Key × Value)) (m m' : Memory (Key × Value)) :
    Prop where
  grows : m.next ≤ m'.next
  result : m'.read own = entries
  frame : ∀ a < m.next, a ≠ own → m'.read a = m.read a

/-- The labels take over the entries of the dictionary. -/
theorem updateAt_writes {own : Address} {m : Memory (Key × Value)} (h : own < m.next)
    (given : Address) :
  Writes own (Assoc.overlay (m.read own) (m.read given)) m (updateAt own given m)
  := by
  have hgrows := Memory.next_le_create (m.read given) m
  constructor
  · rw [updateAt, Memory.next_write]
    exact hgrows
  · rw [updateAt, Memory.read_write (Nat.lt_of_lt_of_le h hgrows), Memory.read_create h,
      Memory.read_next]
  · intro a ha hne
    exact read_updateAt ha hne given

/-- The labels take over the entries of a dictionary that was just created. -/
theorem updateAt_created_writes {own : Address} {m : Memory (Key × Value)} (h : own < m.next)
    (given : List (Key × Value)) :
  Writes own (Assoc.overlay (m.read own) given) m (updateAt own m.next (m.create given))
  := by
  have hgrows := Memory.next_le_create given m
  have hupdate := updateAt_writes (Nat.lt_of_lt_of_le h hgrows) m.next
  rw [Memory.read_create h, Memory.read_next] at hupdate
  constructor
  · exact Nat.le_trans hgrows hupdate.grows
  · exact hupdate.result
  · intro a ha hne
    rw [hupdate.frame a (Nat.lt_of_lt_of_le ha hgrows) hne, Memory.read_create ha]

theorem Writes.trans {own : Address} {entries others : List (Key × Value)}
    {m m' m'' : Memory (Key × Value)} (first : Writes own entries m m')
    (second : Writes own others m' m'') :
  Writes own others m m''
  := by
  constructor
  · exact Nat.le_trans first.grows second.grows
  · exact second.result
  · intro a ha hne
    rw [second.frame a (Nat.lt_of_lt_of_le ha first.grows) hne, first.frame a ha hne]

/-- One more label is put on top. -/
theorem Writes.putAt {own : Address} {labels : Labels} {m m' : Memory (Key × Value)}
    (h : Writes own labels.entries m m') (hown : own < m.next) (label : Key) (v : Value) :
  Writes own (labels.put label v).entries m (Labels.putAt own label v m')
  := by
  apply h.trans
  have hput := updateAt_created_writes (Nat.lt_of_lt_of_le hown h.grows) [(label, v)]
  rw [h.result] at hput
  exact hput

/-- What is at an address that was just created is not what was there before. -/
theorem Writes.ofCreated {entries : List (Key × Value)} {m m' : Memory (Key × Value)}
    (h : Writes m.next entries (m.create []) m') :
  Writes m.next entries m m'
  := by
  have hgrows := Memory.next_le_create [] m
  constructor
  · exact Nat.le_trans hgrows h.grows
  · exact h.result
  · intro a ha hne
    rw [h.frame a (Nat.lt_of_lt_of_le ha hgrows) hne, Memory.read_create ha]

/-- The selector is made at the next address. -/
theorem selectorAt_writes (name : Value) (m : Memory (Key × Value)) :
  Writes m.next (selector name).entries (m.create []) (selectorAt name m)
  := by
  have hown : m.next < (m.create []).next := by simp [Memory.create, Memory.next]
  have hstart : Writes m.next empty.entries (m.create []) (m.create []) := by
    constructor
    · exact Nat.le_refl _
    · exact Memory.read_next [] m
    · intros
      rfl
  exact ((hstart.putAt hown _ _).putAt hown _ _).putAt hown _ _

/-- The labels of an installation's objects are made at the next address, from what was held
before. -/
theorem allAt_writes {custom : Option Address} {m : Memory (Key × Value)}
    (hheld : ∀ held ∈ custom, held < m.next) (name : Value) :
  ∃ full, all ((custom.map fun held => .dict (m.read held)).getD .null) name = .ok full ∧
    Writes m.next full.entries m (allAt custom name m)
  := by
  have hown : m.next < (m.create []).next := by simp [Memory.create, Memory.next]
  have hselector := selectorAt_writes name m
  have hselected : m.next < (selectorAt name m).next := Nat.lt_of_lt_of_le hown hselector.grows
  have hnone : Writes m.next (selector name).entries m
      (updateAt m.next (selectorAt name m).next ((selectorAt name m).create [])) := by
    have hupdate := updateAt_created_writes hselected []
    rw [hselector.result] at hupdate
    exact (hselector.trans hupdate).ofCreated
  cases custom with
  | none => exact ⟨selector name, rfl, hnone⟩
  | some held =>
    have hlt := hheld held rfl
    have hread := hselector.ofCreated.frame held hlt (Nat.ne_of_lt hlt)
    rw [allAt, Option.map_some, Option.getD_some]
    simp only [hread]
    cases hentries : m.read held with
    | nil => exact ⟨selector name, rfl, hnone⟩
    | cons e entries =>
      refine ⟨(selector name).overlay ⟨e :: entries⟩, rfl, ?_⟩
      have hupdate := updateAt_writes hselected held
      rw [hselector.result, hread, hentries] at hupdate
      exact (hselector.trans hupdate).ofCreated

end Labels

end Installation

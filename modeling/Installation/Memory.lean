/-!
# Memory

Lists that are changed in place.  A `Memory` holds a list at each of its addresses, and
whoever has the address of a list sees what others write there.  A list that is created gets
an address of its own, so that what is written to it leaves all lists alone that were there
before.
-/

namespace Installation

/-- Where a list is held. -/
abbrev Address := Nat

/-- The lists that are held, in the order in which they were created. -/
structure Memory (α : Type) where
  cells : List (List α)

namespace Memory

variable {α : Type}

/-- The list at an address; nothing is in a list that is not there. -/
def read (m : Memory α) (a : Address) : List α := m.cells[a]?.getD []

/-- The memory with another list at an address. -/
def write (a : Address) (xs : List α) (m : Memory α) : Memory α := ⟨m.cells.set a xs⟩

/-- The address of the list that is created next. -/
def next (m : Memory α) : Address := m.cells.length

/-- The memory with one more list. -/
def create (xs : List α) (m : Memory α) : Memory α := ⟨m.cells ++ [xs]⟩

@[simp]
theorem read_next (xs : List α) (m : Memory α) :
  (m.create xs).read m.next = xs
  := by
  simp [read, create, next]

/-- What is written to a list that was created could have been there from the start. -/
@[simp]
theorem write_next (xs ys : List α) (m : Memory α) :
  (m.create xs).write m.next ys = m.create ys
  := by
  simp [write, create, next]

/-- Lists that are there stay as they are when another one is created. -/
theorem read_create {a : Address} {m : Memory α} (h : a < m.next) (xs : List α) :
  (m.create xs).read a = m.read a
  := by
  rw [read, create, List.getElem?_append_left h, read]

theorem next_le_create (xs : List α) (m : Memory α) :
  m.next ≤ (m.create xs).next
  := by
  simp [create, next]

@[simp]
theorem next_write (a : Address) (xs : List α) (m : Memory α) :
  (m.write a xs).next = m.next
  := by
  simp [write, next]

/-- What is written to a list that is there is in it. -/
theorem read_write {a : Address} {m : Memory α} (h : a < m.next) (xs : List α) :
  (m.write a xs).read a = xs
  := by
  rw [next] at h
  simp [read, write, h]

/-- Other lists stay as they are when something is written to one. -/
theorem read_write_ne {a b : Address} (h : b ≠ a) (xs : List α) (m : Memory α) :
  (m.write a xs).read b = m.read b
  := by
  rw [read, write, List.getElem?_set_ne h.symm, read]

end Memory

end Installation

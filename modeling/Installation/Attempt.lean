import Installation.Fault

/-!
# Attempts

An update that can stop half way leaves behind what it has done so far.  An `Attempt` is
the state that was reached, together with the fault that stopped the update, if one did.
`Attempt.andThen` goes on from the state of an attempt that was not stopped.
-/

namespace Installation

/-- The state that an update reached, and the fault that stopped it, if one did. -/
structure Attempt (σ : Type) where
  state : σ
  fault? : Option Fault

namespace Attempt

variable {σ τ : Type}

/-- An update that came to its end. -/
def done (s : σ) : Attempt σ := ⟨s, none⟩

/-- An update that was stopped. -/
def failed (s : σ) (fault : Fault) : Attempt σ := ⟨s, some fault⟩

/-- A further update, unless the first one was stopped. -/
def andThen (a : Attempt σ) (next : σ → Attempt σ) : Attempt σ :=
  match a.fault? with
  | none => next a.state
  | some _ => a

/-- An attempt on a part as an attempt on the whole. -/
def map (f : σ → τ) (a : Attempt σ) : Attempt τ := ⟨f a.state, a.fault?⟩

@[simp]
theorem andThen_done (s : σ) (next : σ → Attempt σ) :
  (done s).andThen next = next s
  := rfl

@[simp]
theorem andThen_failed (s : σ) (fault : Fault) (next : σ → Attempt σ) :
  (failed s fault).andThen next = failed s fault
  := rfl

@[simp]
theorem map_done (f : σ → τ) (s : σ) :
  (done s).map f = done (f s)
  := rfl

@[simp]
theorem map_failed (f : σ → τ) (s : σ) (fault : Fault) :
  (failed s fault).map f = failed (f s) fault
  := rfl

@[simp]
theorem done_inj {s t : σ} :
  done s = done t ↔ s = t
  := by
  simp [done]

/-- What was stopped did not come to its end. -/
@[simp]
theorem failed_ne_done (s t : σ) (fault : Fault) :
  failed s fault ≠ done t
  := by
  simp [failed, done]

@[simp]
theorem fault?_map (f : σ → τ) (a : Attempt σ) :
  (a.map f).fault? = a.fault?
  := rfl

/-- What was not stopped came to its end. -/
theorem eq_done {a : Attempt σ} (h : a.fault? = none) :
  a = done a.state
  := by
  obtain ⟨s, fault⟩ := a
  obtain rfl : fault = none := h
  rfl

/-- Updates one after the other can be grouped in either way. -/
theorem andThen_assoc (a : Attempt σ) (f g : σ → Attempt σ) :
  (a.andThen f).andThen g = a.andThen fun s => (f s).andThen g
  := by
  obtain ⟨s, fault⟩ := a
  cases fault with
  | none => rfl
  | some fault => rfl

end Attempt

end Installation

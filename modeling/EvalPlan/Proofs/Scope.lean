import EvalPlan.Scope

/-!
# Scopes as tables

What beginning, registering and ending do to the tasks of every scope, the others' included. A scope
that was begun keeps its number, and only the scope that is named changes.
-/

namespace EvalPlan.Scopes

variable {τ : Type} (s : Scopes τ)

theorem open?_lt {id : Nat} {tasks : List τ} (h : s.open? id = some tasks) : id < s.tasks.size := by
  rw [open?, Option.bind_eq_some_iff] at h
  obtain ⟨entry, hentry, -⟩ := h
  exact (Array.getElem?_eq_some_iff.mp hentry).1

theorem isOpen_iff {id : Nat} : s.isOpen id = true ↔ ∃ tasks, s.open? id = some tasks := by
  rw [isOpen, Option.isSome_iff_exists]

/-! ## Beginning a scope -/

@[simp] theorem start_fst : s.start.1 = s.tasks.size := rfl

@[simp] theorem size_start : s.start.2.tasks.size = s.tasks.size + 1 := by
  simp [start]

/-- A new scope is open and empty, and the others are as before. -/
theorem open?_start (id : Nat) :
    s.start.2.open? id = if id = s.tasks.size then some [] else s.open? id := by
  simp only [start, open?, Array.getElem?_push]
  split <;> rfl

/-! ## Registering a task -/

@[simp] theorem size_register (id : Nat) (task : τ) :
    (s.register id task).2.tasks.size = s.tasks.size := by
  unfold register
  split <;> simp

theorem register_fst (id : Nat) (task : τ) : (s.register id task).1 = s.isOpen id := by
  unfold register isOpen
  split
  next h => rw [h]; rfl
  next h => rw [h]; rfl

/-- A task goes to the end of the scope it is offered to, if that is open. -/
theorem open?_register (id other : Nat) (task : τ) :
    (s.register id task).2.open? other =
      if other = id then (s.open? id).map (· ++ [task]) else s.open? other := by
  unfold register
  split
  next tasks h =>
    have hlt := s.open?_lt h
    -- the entry of the scope is replaced, and no other one
    by_cases hother : other = id
    · subst hother
      have hentry : s.tasks[other] = some tasks := by simpa [open?, hlt] using h
      simp [open?, hlt, hentry]
    · have hne : ¬ id = other := fun h => hother h.symm
      simp [open?, hother, hne]
  next h =>
    split
    next hother => rw [hother, h]; rfl
    next => rfl

theorem current?_eq_some {binding : Option Nat} {id : Nat} :
    s.current? binding = some id ↔ binding = some id ∧ s.isOpen id = true := by
  constructor
  · intro h
    obtain ⟨other, hbinding, hother⟩ := Option.bind_eq_some_iff.mp h
    split at hother
    next hopen =>
      cases hother
      exact ⟨hbinding, hopen⟩
    next => cases hother
  · rintro ⟨rfl, hopen⟩
    exact if_pos hopen

/-- Offering a task to the run that is bound is offering it to that run's scope; the scopes of other
runs never take its place. -/
theorem registerCurrent_some (id : Nat) (task : τ) :
    s.registerCurrent (some id) task = s.register id task := by
  unfold registerCurrent current? register isOpen
  simp only [Option.bind_some]
  -- a closed scope takes nothing in either way
  cases h : s.open? id <;> simp [h]

/-- A task is taken where a run is current. -/
theorem registerCurrent_fst (binding : Option Nat) (task : τ) :
    (s.registerCurrent binding task).1 = (s.current? binding).isSome := by
  unfold registerCurrent
  split
  next id h =>
    rw [register_fst, h, (s.current?_eq_some.mp h).2]
    rfl
  next h =>
    rw [h]
    rfl

@[simp] theorem registerCurrent_none (task : τ) : s.registerCurrent none task = (false, s) := rfl

@[simp] theorem size_registerCurrent (binding : Option Nat) (task : τ) :
    (s.registerCurrent binding task).2.tasks.size = s.tasks.size := by
  cases binding with
  | none => rfl
  | some id => rw [registerCurrent_some, size_register]

/-! ## Ending a scope -/

@[simp] theorem size_finish (id : Nat) : (s.finish id).2.tasks.size = s.tasks.size := by
  simp [finish]

@[simp] theorem finish_fst (id : Nat) : (s.finish id).1 = (s.open? id).getD [] := rfl

/-- An ended scope has no tasks left, and the others are as before. -/
theorem open?_finish (id other : Nat) :
    (s.finish id).2.open? other = if other = id then none else s.open? other := by
  by_cases hother : other = id
  · subst hother
    -- ending a scope that was never begun changes nothing
    by_cases hlt : other < s.tasks.size
    · simp [finish, open?, hlt]
    · simp [finish, open?, hlt]
  · have hne : ¬ id = other := fun h => hother h.symm
    simp [finish, open?, hother, hne]

end EvalPlan.Scopes

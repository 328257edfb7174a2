/-!
# Run scopes

Every run collects the tasks that are declared during it in a scope of its own. A scope is open
until the run ends; then its tasks are handed over and it takes no more.

Code that declares tasks without holding a scope uses the run that is bound to it. The binding
counts only while that run's scope is open: the scope of an enclosing run never takes its place.
-/

namespace EvalPlan

/-- The scopes that were begun so far, by number. An open scope holds its tasks in order. -/
structure Scopes (τ : Type) where
  /-- The tasks of each scope, none once it has ended. -/
  tasks : Array (Option (List τ))

namespace Scopes

variable {τ : Type}

/-- No scope was begun. -/
def empty : Scopes τ := ⟨#[]⟩

instance : Inhabited (Scopes τ) := ⟨empty⟩

/-- Begins a scope. -/
def start (s : Scopes τ) : Nat × Scopes τ := (s.tasks.size, ⟨s.tasks.push (some [])⟩)

/-- The tasks of a scope that is open. -/
def open? (s : Scopes τ) (id : Nat) : Option (List τ) := (s.tasks[id]?).bind fun x => x

/-- The scope takes tasks. -/
def isOpen (s : Scopes τ) (id : Nat) : Bool := (s.open? id).isSome

/-- The number of tasks in a scope; an ended one has none. -/
def size (s : Scopes τ) (id : Nat) : Nat := ((s.open? id).getD []).length

/-- Offers a task to a scope; says whether it was taken. -/
def register (s : Scopes τ) (id : Nat) (task : τ) : Bool × Scopes τ :=
  match s.open? id with
  | some tasks => (true, ⟨s.tasks.setIfInBounds id (some (tasks ++ [task]))⟩)
  | none => (false, s)

/-- Ends a scope and hands its tasks over; an ended scope has none left. -/
def finish (s : Scopes τ) (id : Nat) : List τ × Scopes τ :=
  ((s.open? id).getD [], ⟨s.tasks.setIfInBounds id none⟩)

/-- The run that is current where a binding holds. -/
def current? (s : Scopes τ) (binding : Option Nat) : Option Nat :=
  binding.bind fun id => if s.isOpen id then some id else none

/-- Offers a task to the current run; says whether it was taken. -/
def registerCurrent (s : Scopes τ) (binding : Option Nat) (task : τ) : Bool × Scopes τ :=
  match s.current? binding with
  | some id => s.register id task
  | none => (false, s)

end Scopes

end EvalPlan

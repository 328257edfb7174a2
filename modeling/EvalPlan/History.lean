import EvalPlan.Bus
import EvalPlan.Value

/-!
# The history of a world

What happened in a world, mark by mark: runs that began and ended, tasks that were declared, events
that subscribers were told, builders that were registered. Scripts cannot read the history, and
nothing that is carried out depends on it: it is there so that what a world has become can be
compared with how it came about.
-/

namespace EvalPlan

/-- Something that happened. -/
inductive Mark
  /-- The scope of a run was opened. -/
  | began (run : RunId) (script : Text)
  /-- A run was given up before its script began. Its scope stays open, but nothing declares tasks
  in it. -/
  | abandoned (run : RunId)
  /-- Code began to execute with a run bound, or with none. -/
  | entered (binding : Option RunId)
  /-- The code that was entered last came out of it. -/
  | left
  /-- The `task` verb of a run was called with a task, which the run took if it still could. The
  name is what the task held as its name. -/
  | declared (run : RunId) (task : Value) (name : Option Value) (taken : Bool)
  /-- A task was declared without naming a run: to the run that was bound, if one was. -/
  | offered (run : Option RunId) (task : Value) (name : Option Value) (taken : Bool)
  /-- The script of a run failed, and the tasks that this discards were counted. -/
  | counted (run : RunId) (discarded : Nat)
  /-- The script of a run threw a value that has no description. -/
  | undescribed (run : RunId)
  /-- It was announced that a run failed. -/
  | failed (run : RunId) (script message : Text)
  /-- The scope of a run was closed. If its script ended well, its tasks were handed over. -/
  | ended (run : RunId) (script : Text) (tasks : Option (List Value))
  /-- A subscriber was told an event. -/
  | told (subscriber : Nat) (event : Event)
  /-- A builder was given for a type. -/
  | registered (type builder : Value) (accepted : Bool)
  /-- A type was marked with a builder. -/
  | marked (type builder : Value)
  /-- One of the objects was changed by which the engine reaches its own parts. -/
  | altered (ref : Ref)

end EvalPlan

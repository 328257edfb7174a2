import EvalPlan.Text

/-!
# Log levels

How urgent a log entry is, and from which urgency on entries are written.
-/

namespace EvalPlan

/-- The levels of a log entry, from the least to the most urgent. -/
inductive Level
  /-- What only a developer wants to know. -/
  | debug
  /-- What happens. -/
  | info
  /-- What was skipped. -/
  | warn
  /-- What went wrong. -/
  | error
deriving DecidableEq, Inhabited

namespace Level

/-- The levels in order of urgency. -/
def all : List Level := [debug, info, warn, error]

/-- The name of a level. -/
def name : Level → Text
  | debug => "debug"
  | info => "info"
  | warn => "warn"
  | error => "error"

/-- The level of a name. -/
def ofName? (name : Text) : Option Level := all.find? (·.name == name)

/-- The urgency of a level. -/
def rank : Level → Nat
  | debug => 10
  | info => 20
  | warn => 30
  | error => 40

end Level

/-- The least urgent level that is written, or that nothing is. -/
inductive Threshold
  /-- Everything from a level on. -/
  | from (level : Level)
  /-- Nothing. -/
  | silent
deriving DecidableEq, Inhabited

namespace Threshold

/-- The name of a threshold. -/
def name : Threshold → Text
  | .from level => level.name
  | silent => "silent"

/-- The urgency that an entry needs. -/
def rank : Threshold → Nat
  | .from level => level.rank
  | silent => 100

/-- The threshold of a name. -/
def ofName? (name : Text) : Option Threshold :=
  if name = "silent" then some .silent else (Level.ofName? name).map .from

/-- Entries of a level are written. -/
def admits (t : Threshold) (level : Level) : Bool := t.rank ≤ level.rank

end Threshold

end EvalPlan

import EvalPlan.Runner
import EvalPlan.Script.Quoted

/-!
# Script sources

Scripts come from a file, from a stream or with their text at hand. A script from a file is known
by its path as given; one from a stream by the last segment of the stream's path, if it has one.
-/

namespace EvalPlan

open Script (Program)

/-- Where a script comes from. -/
inductive Source
  /-- Its text is at hand. -/
  | inline (name : Text) (program : Program)
  /-- A file. -/
  | file (path : Text)
  /-- A stream with its path, if it has one; a failing one throws a value at its end. -/
  | stream (path : Option Text) (program : Program) (failure : Option Value)

namespace Source

/-- What a stream is called that has no path. -/
def streamName : Text := "<stream>"

/-- How late the text of the script is there: at once, as soon as files are read, or when a stream
has ended. -/
def delay : Source → Nat
  | .inline _ _ => 0
  | .file _ => 1
  | .stream _ _ _ => 2

/-- How the log refers to a source before it is read. -/
def label (files : Files) : Source → Text
  | .inline name _ => name
  | .file path => files.absolute path
  | .stream _ _ _ => streamName

/-- The name of the script that a source holds. -/
def scriptName : Source → Text
  | .inline name _ => name
  | .file path => path
  | .stream (some path) _ _ => Path.basename path
  | .stream none _ _ => streamName

end Source

namespace Action

/-- Refuses a source that cannot be read. -/
def refuseSource {α : Type} (ev : Evaluator) (name : Text) (thrown : Value) : Action α := do
  let c ← cause ev thrown
  refuse (.unreadable name c)

/-- The program that a file holds. -/
def readProgramFile (ev : Evaluator) (path : Text) : Action Program := do
  match (← get).files.read path with
  | .error fault => do
    let cause ← alloc (errorObject .general .main (some fault.message))
    refuseSource ev path cause
  | .ok (.script program) => return program
  | .ok (.text t) => return Program.ofText t
  | .ok _ => return .invalid []

/-- The program that a source holds. -/
def readSource (ev : Evaluator) (source : Source) : Action Program := do
  match source with
  | .inline _ program => return program
  | .file path => readProgramFile ev path
  | .stream _ program none => return program
  | .stream _ _ (some failure) => refuseSource ev source.scriptName failure

/-- Reads and compiles a script. -/
def loadScript (host : Host) (ev : Evaluator) (source : Source) : Action CompiledScript := do
  let program ← readSource ev source
  compile host ev source.scriptName program

/-- Says in the log that a script is being loaded. -/
def logLoading (host : Host) (ev : Evaluator) (source : Source) : Action Unit := do
  log ev host.loggers.engine .debug "Loading script"
    [("source", Value.text (source.label (← get).files))]

/-- Loads and runs a script within the engine. -/
def load (host : Host) (ev : Evaluator) (source : Source) : Action Environment := do
  logLoading host ev source
  let script ← loadScript host ev source
  executeScript host ev script

end Action

end EvalPlan

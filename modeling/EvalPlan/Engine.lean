import EvalPlan.Continuation
import EvalPlan.Plugin
import EvalPlan.Script.Source

/-!
# The engine

An engine resolves builders and runs configuration scripts. Starting one registers the default
builders of every manifest that is found. Where module directories are given, their types are
defined first.
-/

namespace EvalPlan

/-- A listener that turns the moments of runs into events. -/
def Listener.emitting : Listener := ⟨.emit, .emit, .emit, .emit⟩

/-- A listener that nobody listens to. -/
def Listener.absent : Listener := ⟨.absent, .absent, .absent, .absent⟩

/-- The host of an engine that logs to a logger, which its scripts hold too. The bus has a logger of
its own. -/
def Host.engine (logger bus : Logger) (imports : List Text) : Host :=
  { role := .engine
    loggers := Loggers.ofEngine logger.expose bus
    listener := Listener.emitting
    onRegister := .emit
    imports }

/-- The host of an engine whose bus belongs to it. -/
def Host.engineWithBus (logger : Logger) (imports : List Text) : Host :=
  Host.engine logger (logger.expose.forPart "EventBus") imports

namespace Action

/-- Gives the object of the engine the namespaces that type names may leave out. -/
def provideImports (host : Host) (imports : Value) : Action Unit :=
  modify fun w => { w with heap := w.heap.update (.ref host.role.facade) (Object.put "imports" imports) }

/-- Starts an engine: registers the default builders and says how many there are. -/
def startEngine (host : Host) (ev : Evaluator) : Action Unit := do
  provideImports host (← newList .main (host.imports.map Value.text))
  let registered ← loadDefaults host ev
  emit host ev "defaults:loaded" [("registered", Value.ofNat registered)] none

/-- Starts an engine over directories: defines the types of its modules, and searches its manifests
below its roots. -/
def createEngine (host : Host) (ev : Evaluator) (roots : Option (List Text))
    (dirs : List ModuleDir) : Action Unit := do
  let _ ← loadModuleDirs host ev dirs
  modify fun w => { w with
    resources := .roots ((roots.getD [w.files.cwd]).map w.files.absolute) }
  startEngine host ev

/-! ### Requests

Whoever asks the engine for something reaches it by the properties of its object. -/

/-- The environment that a value shows by its properties, and whether it is fixed. -/
def environmentOf (ev : Evaluator) (v : Value) : Action (Environment × Bool) := do
  let tasks ← property ev .main v "tasks"
  let result ← property ev .main v "result"
  let h ← heap
  match h.list? tasks with
  | some items =>
    return (⟨items, result⟩, [v, tasks].all fun x => (h.object? x).any (·.frozen))
  | none => typeError "the tasks are no list"

/-- Asks the engine to carry an operation out, which is done in the given way unless a script put
something else in its place. -/
def request (host : Host) (ev : Evaluator) (o : Operation) (arguments : List Value)
    (act : Action Environment) : Action (Environment × Bool) := do
  let engine : Value := .ref host.role.facade
  let callee ← property ev .main engine o.name
  match (← heap).callable? callee with
  | some (.operation found) =>
    if found = o then return (← act, true)
    else environmentOf ev (← callProperty ev .main callee engine arguments)
  | _ => environmentOf ev (← callProperty ev .main callee engine arguments)

/-- Asks the engine to run a program. -/
def requestRun (host : Host) (ev : Evaluator) (name : Text) (program : Script.Program) :
    Action (Environment × Bool) :=
  request host ev .run [.text name] (runProgram host ev name program)

/-- Asks the engine to load a script. -/
def requestLoad (host : Host) (ev : Evaluator) (source : Source) : Action (Environment × Bool) :=
  request host ev .load [] (load host ev source)

/-! ### Loads at once

Loads that were started together go on side by side. Each of them says so in the log when it is started.
The texts that are at hand are there for all of them at the same moment: all are compiled before the first
one is executed, and the continuations of one wait until the others were executed too. A file or a stream
is there later, when nothing waits anymore. -/

/-- How far each of several loads came, with its place among them, or what it threw. -/
abbrev Loads (α : Type) := List (Nat × Except Value α)

namespace Loads

/-- The loads of sources that are about to be started. -/
def ofSources (sources : List Source) : Loads Source :=
  sources.zipIdx.map fun (source, place) => (place, .ok source)

/-- The loads whose texts are there with a delay. One that threw waits for none. -/
def delayed (delay : Nat) (loads : Loads Source) : Loads Source :=
  loads.filter fun (_, source) => (source.toOption.elim 0 Source.delay) == delay

/-- The loads whose texts are there at the same moment, in the order of these moments: those with
their text at hand are together, then comes each file by itself, then each stream. -/
def groups (loads : Loads Source) : List (Loads Source) :=
  loads.delayed 0 :: (loads.delayed 1 ++ loads.delayed 2).map fun load => [load]

end Loads

/-- Takes each load that has not thrown a step further, in order. -/
def advance {α β : Type} (step : α → Action β) : Loads α → Action (Loads β)
  | [] => return []
  | (place, .error thrown) :: rest => do return (place, .error thrown) :: (← advance step rest)
  | (place, .ok a) :: rest => do
    let outcome ← tryCatch (do return .ok (← step a)) fun thrown => return .error thrown
    return (place, outcome) :: (← advance step rest)

/-- Loads the scripts whose texts are there at the same moment. -/
def loadAbreast (host : Host) (ev : Evaluator) (loads : Loads Source) :
    Action (Loads Environment) := do
  let compiled ← advance (loadScript host ev) loads
  let executed ← advance (executeScript host ev) compiled
  runRound ev
  return executed

/-- Loads the scripts of one group after another. -/
def loadInTurn (host : Host) (ev : Evaluator) : List (Loads Source) → Action (Loads Environment)
  | [] => return []
  | group :: rest => do
    settle ev
    let outcomes ← loadAbreast host ev group
    return outcomes ++ (← loadInTurn host ev rest)

/-- Starts to load the scripts of sources at once; answers how each came out. -/
def loadTogether (host : Host) (ev : Evaluator) (sources : List Source) :
    Action (List (Except Value Environment)) := do
  let started ← advance (fun source => do
    logLoading host ev source
    return source) (Loads.ofSources sources)
  let outcomes ← loadInTurn host ev started.groups
  return (List.range sources.length).filterMap fun place => outcomes.lookup place

end Action

end EvalPlan

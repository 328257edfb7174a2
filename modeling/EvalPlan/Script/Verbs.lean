import EvalPlan.Domain
import EvalPlan.Runner
import EvalPlan.Script.Quoted

/-!
# What scripts can ask for

The names of a run's global object: `type`, `build` and `task`, and the operations of the engine.
The verbs reach the engine by its object, so that a script that replaces an operation replaces what
they do; the operations themselves want a receiver that is the engine or inherits from it.
-/

namespace EvalPlan.Action

open Script (Scene Answer Program)

/-! ### Verbs -/

/-- Calls an operation of the engine by its object. -/
def askEngine (host : Host) (ev : Evaluator) (o : Operation) (arguments : List Value) :
    Action Value :=
  invoke ev .main (.ref host.role.facade) o.name arguments

/-- The builder for what is to be built. -/
def builderFor (host : Host) (ev : Evaluator) (target : Value) : Action Value := do
  match target with
  | .text name => do
    let builder ← askEngine host ev .getBuilder [target]
    if builder.isTruthy then return builder else refuse (.noBuilderForName name)
  | _ =>
    if (← heap).isType target then
      let builder ← askEngine host ev .getBuilderForType [target]
      -- the name is put into text even if it is not needed
      let name ← words ev .main (← nameOf ev target)
      if builder.isTruthy then return builder else refuse (.noBuilderForType name)
    else refuse .badTarget

/-- Applies a configuration to a builder: a function is called with it, and the properties of an
object are set on it. -/
def configure (ev : Evaluator) (builder configuration : Value) : Action Unit := do
  let h ← heap
  if configuration.isNullish then return
  -- a function is called with the builder, and what it answers is dropped
  else if h.isCallable configuration then
    let _ ← ev.call configuration .undefined [builder]
  else if h.isObject configuration then assignAll ev builder (h.members configuration)
  else refuse .badConfiguration

/-- Builds what a script asks for. -/
def buildVerb (host : Host) (ev : Evaluator) (target configuration : Value) : Action Value := do
  let builder ← ev.construct .main (← builderFor host ev target)
  configure ev builder configuration
  invoke ev .main builder "build" []

/-- Declares a task in the run that a `task` verb belongs to. -/
def taskVerb (host : Host) (ev : Evaluator) (id : RunId) (onTask task : Value) : Action Value := do
  if (← heap).isTask task then
    -- a task that comes after the run ended is answered all the same
    if ← declareIn id task then announceTask host ev id onTask task
    return task
  else refuse .notTask

/-- Calls one of the verbs of a run. -/
def callVerb (host : Host) (ev : Evaluator) (v : Verb) (id : RunId) (onTask : Value)
    (arguments : List Value) : Action Value :=
  match v with
  | .type => askEngine host ev .loadType [argument arguments 0]
  | .build => buildVerb host ev (argument arguments 0) (argument arguments 1)
  | .task => taskVerb host ev id onTask (argument arguments 0)

/-! ### Operations -/

/-- Logs that a task is to be declared. -/
def logRegistering (host : Host) (ev : Evaluator) (task : Value) : Action Unit := do
  log ev host.loggers.engine .debug "Registering task" [("task", ← nameOf ev task)]

/-- Announces that a run took a task, or logs that there was none to take it. -/
def announceOffered (host : Host) (ev : Evaluator) (task : Value) (taken : Option RunId) :
    Action Unit := do
  match taken with
  | some id => emit host ev "task:registered" [("task", ← nameOf ev task)] (some id)
  | none => log ev host.loggers.engine .debug "No active run, task ignored" [("task", ← nameOf ev task)]

/-- Declares a task in the run that is bound to the executing code. -/
def registerTask (host : Host) (ev : Evaluator) (task : Value) : Action Unit := do
  if task.isNullish then refuse .taskMissing
  else
    logRegistering host ev task
    announceOffered host ev task (← offer task)

/-- Declares a task in the current run without a word; says whether there was one. -/
def registerSilently (task : Value) : Action Bool := do return (← offer task).isSome

/-- Compiles a program and runs it within the engine. -/
def runProgram (host : Host) (ev : Evaluator) (name : Text) (program : Program) :
    Action Environment := do
  log ev host.loggers.engine .debug "Running inline script" [("source", Value.text name)]
  let script ← compile host ev name program
  executeScript host ev script

/-- The receiver is an object or inherits from it. -/
def reaches (h : Heap) (this : Value) (r : Ref) : Bool := this == .ref r || h.inherits this r

/-- The receiver is the engine or inherits from it. -/
def reachesEngine (h : Heap) (this : Value) : Bool := reaches h this Fixture.engine.ref

/-- The receiver is what an operation belongs to. The engine does not say whether a run is
current. -/
def isAtHome (h : Heap) (o : Operation) (this : Value) : Bool :=
  match o with
  | .publish => reaches h this Fixture.bus.ref
  | .current => false
  | _ => reachesEngine h this

/-- Publishes the event that a value describes. -/
def publishValue (host : Host) (ev : Evaluator) (event : Value) : Action Unit := do
  let type ← property ev .main event "type"
  let data ← property ev .main event "data"
  publish host ev (type.text?.getD []) (some ((← heap).portrait data)) none

/-- Carries an operation out on the engine. A script that asks it to load another one gets the
object that stands for an outcome which is not there yet; the load itself, which would begin when
the script is over, is left out. -/
def operate (host : Host) (ev : Evaluator) (o : Operation) (arguments : List Value) :
    Action Value := do
  let first := argument arguments 0
  let second := argument arguments 1
  match o with
  | .load => record .main []
  | .run => do
    let name ← words ev .main first
    ev.run name (Program.ofText (← words ev .main second))
  | .getBuilder => return (← findNamedBy host ev first).getD .undefined
  | .getBuilderForType => return (← resolve first).getD .undefined
  | .registerBuilder => do
    register host ev first second
    return .undefined
  | .registerTask =>
    match host.role with
    | .engine => do
      registerTask host ev first
      return .undefined
    | .bench => return .bool (← registerSilently first)
  | .loadType => loadNamedType host ev first
  | .emit => invoke ev .main (← property ev .main (.ref host.role.facade) "eventBus") "emit" [first]
  | .publish => do
    publishValue host ev first
    return .undefined
  | .current => do
    let w ← get
    return .bool (w.scopes.current? w.binding).isSome

/-- Calls an operation on a receiver. The engine's own want the engine as theirs; that a task is
missing is found before. -/
def callOperation (host : Host) (ev : Evaluator) (o : Operation) (this : Value)
    (arguments : List Value) : Action Value := do
  if host.role == .bench || isAtHome (← heap) o this then operate host ev o arguments
  -- a missing task is found before the receiver is looked at
  else if o == .registerTask && (argument arguments 0).isNullish then refuse .taskMissing
  else typeError "the receiver is not the engine"

/-- Writes to the log as a script asks. -/
def callLogging (host : Host) (ev : Evaluator) (level : Level) (arguments : List Value) :
    Action Value := do
  let data := argument arguments 1
  let h ← heap
  deposit ev host.loggers.engine.sink level (argument arguments 0)
    (if data.isNullish then none else some (h.account data))
  return .undefined

/-! ### Methods -/

/-- Carries out a fixed answer. -/
def giveAnswer (ev : Evaluator) (scene : Scene) (a : Answer) : Action Value := do
  match a with
  | .returns e => ev.expr scene e
  | .throws e => throw (← ev.expr scene e)
  | .value _ => typeError "a value is called"

/-- The text of one piece of what an instance says about itself. -/
def pieceText (ev : Evaluator) (this : Value) : Part → Action Text
  | .words t => return t
  | .field name => do addedWords ev .main (← property ev .main this name)

/-- Copies properties of one object to another. -/
def copyFields (ev : Evaluator) (source target : Value) : List Text → Action Unit
  | [] => return
  | name :: rest => do
    assign ev .main true target name (← property ev .main source name)
    copyFields ev source target rest

/-- Calls a method that instances share. -/
def callMethod (host : Host) (ev : Evaluator) (m : Method) (this : Value) : Action Value := do
  match m with
  | .answer scene a => giveAnswer ev scene a
  | .produces cls copied declares => do
    let product ← ev.construct .main cls
    copyFields ev this product copied
    if declares then
      let _ ← askEngine host ev .registerTask [product]
    return product
  | .parts pieces => do
    let texts ← pieces.mapM (pieceText ev this)
    return .text texts.flatten
  | .domain m => Domain.method ev m this

end EvalPlan.Action

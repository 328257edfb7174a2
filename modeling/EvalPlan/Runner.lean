import EvalPlan.Catalog
import EvalPlan.Script.Machine

/-!
# Running scripts

A run opens a scope, carries out its script with the scope bound, and closes the scope however the
script comes out. A script that throws makes the run fail with an error that keeps the thrown value
as its cause; otherwise the tasks and the completion value become the run's environment.
-/

namespace EvalPlan

open Script (Expr Stmt Program)

/-- What a run that ended well leaves. -/
structure Environment where
  /-- The tasks in the order in which they were declared. -/
  tasks : List Value
  /-- The completion value. -/
  result : Value

namespace Environment

/-- The tasks of an environment as a script sees them: a list that cannot be changed. -/
def listObject (e : Environment) : Object :=
  { Object.empty (.ofItems e.tasks) (some (Realm.main.template .list)) with frozen := true }

/-- An environment as a script sees it: an object that cannot be changed and holds the list of
tasks. -/
def object (e : Environment) (tasks : Value) : Object :=
  { Object.holding .plain (some (Realm.main.template .object)) [("tasks", tasks), ("result", e.result)] with
    frozen := true }

end Environment

/-- A script that compiles. -/
structure CompiledScript where
  /-- The name it is known by. -/
  name : Text
  /-- Its statements. -/
  body : List Stmt
  /-- The expression for its completion value. -/
  result : Option Expr

namespace World

/-- The world as code enters that a run is bound to. -/
def enter (w : World) (binding : Option RunId) : World :=
  { w with binding, history := w.history ++ [.entered binding] }

/-- The world as that code leaves, with the run bound that was bound around it. -/
def leave (w : World) (binding : Option RunId) : World :=
  { w with binding, history := w.history ++ [.left] }

/-- The world with a scope begun for a script. -/
def beginRun (w : World) (script : Text) : World :=
  { w with scopes := w.scopes.start.2, history := w.history ++ [.began w.scopes.start.1 script] }

/-- The world with the scope of a run ended. If its script ended well, its tasks are handed over. -/
def endRun (w : World) (id : RunId) (script : Text) (well : Bool) : World :=
  let (tasks, scopes) := w.scopes.finish id
  { w with scopes, history := w.history ++ [.ended id script (if well then some tasks else none)] }

end World

namespace Action

/-- Carries an action out with a run bound; afterwards the binding is as before. -/
def withBinding {α : Type} (binding : Option RunId) (act : Action α) : Action α :=
  ExceptT.mk fun w =>
    let (r, w') := act.run (w.enter binding)
    (r, w'.leave w.binding)

/-- Carries an action out and ends the scope of a script, however the action comes out; answers the
tasks of the scope too. -/
def endingScope {α : Type} (id : RunId) (script : Text) (act : Action α) :
    Action (α × List Value) :=
  ExceptT.mk fun w =>
    let (r, w') := act.run w
    (r.map fun a => (a, (w'.scopes.finish id).1), w'.endRun id script r.toBool)

/-- Begins a scope for a script. -/
def beginScope (script : Text) : Action RunId :=
  modifyGet fun w => (w.scopes.start.1, w.beginRun script)

/-- Offers a task to the scope of a run; says whether it was taken. -/
def declareIn (id : RunId) (task : Value) : Action Bool :=
  modifyGet fun w =>
    let (taken, scopes) := w.scopes.register id task
    -- the name is kept as it is held now; a task may take another one later
    (taken, { w with scopes, history := w.history ++ [.declared id task (w.heap.heldName? task) taken] })

/-- Offers a task to the current run; answers the run if it took the task. -/
def offer (task : Value) : Action (Option RunId) :=
  modifyGet fun w =>
    let (taken, scopes) := w.scopes.registerCurrent w.binding task
    (w.scopes.current? w.binding,
      { w with scopes, history := w.history ++ [.offered w.binding task (w.heap.heldName? task) taken] })

/-- Notes a moment of a run with the state of its scope. -/
def noteMoment (moment : Text) (subject : Portrait) (id : RunId) (more : List Portrait) :
    Action Unit := do
  let s := (← get).scopes
  note (.moment moment
    ([subject, .bool (s.isOpen id)] ++ more))

/-- The size of a scope as a portrait. -/
def sizePortrait (id : RunId) : Action Portrait := do
  return .number (Float.ofNat ((← get).scopes.size id))

/-- A script as a listener sees it. -/
def scriptObject (script : Text) : Action Value := do
  record .main [("name", .text script), ("program", ← record .main [])]

/-- The scope of a run as a listener sees it: an object that says whether the scope takes tasks. -/
def scopeObject (id : RunId) : Action Value := do
  let isActive ← alloc (Object.function .main (.scopeState id) "get active" 0)
  alloc { Object.empty .plain (some (Realm.main.template .object)) with
    slots := [("id", .ordinary (.text "run")), ("active", .computed isActive .undefined)] }

/-- An environment as a script sees it. -/
def environmentValue (e : Environment) : Action Value := do
  let tasks ← alloc e.listObject
  alloc (e.object tasks)

/-- What stands in the place of a callback that a listener does not have. A listener is an object
like any other, so that this is what a script gave to all objects under the name. -/
def inheritedCallback (ev : Evaluator) (name : Text) : Action Value :=
  property ev .main (.ref (Realm.main.template .object)) name

/-- Calls what stands in the place of a callback that a listener does not have. -/
def callInherited (ev : Evaluator) (name : Text) (arguments : Action (List Value)) :
    Action Unit := do
  let inherited ← inheritedCallback ev name
  if inherited.isNullish then return
  else
    let listener ← record .main []
    let _ ← callProperty ev .main inherited listener (← arguments)

/-- Announces that a run has begun. -/
def announceStarted (host : Host) (ev : Evaluator) (script : Text) (id : RunId) : Action Unit := do
  match host.listener.started with
  | .absent => callInherited ev "started" do return [← scriptObject script, ← scopeObject id]
  | .note => noteMoment "started" (.text script) id [← sizePortrait id]
  | .fail message => crash .general message
  | .noteThenFail message => crash .general message
  | .emit => emit host ev "run:started" [("script", Value.text script)] (some id)

/-- What the `task` verb of a run holds to be called when the run has taken a task. It is looked up
before the script begins, so that what the script does about it matters to later runs only. -/
def taskCallback (host : Host) (ev : Evaluator) : Action Value := do
  match host.listener.taskRegistered with
  | .absent => inheritedCallback ev "taskRegistered"
  | _ => return .undefined

/-- Announces that a run has taken a task. -/
def announceTask (host : Host) (ev : Evaluator) (id : RunId) (onTask task : Value) :
    Action Unit := do
  match host.listener.taskRegistered with
  | .absent =>
    if onTask.isNullish then return
    else
      let _ ← callProperty ev .main onTask .undefined [← scopeObject id, task]
  | .note => do
    let name ← nameOf ev task
    noteMoment "taskRegistered" ((← heap).portrait name) id [← sizePortrait id]
  | .fail message => crash .general message
  | .noteThenFail message => crash .general message
  | .emit => emit host ev "task:registered" [("task", ← nameOf ev task)] (some id)

/-- Announces that a run has ended well. -/
def announceCompleted (host : Host) (ev : Evaluator) (script : Text) (id : RunId)
    (e : Environment) : Action Unit := do
  match host.listener.completed with
  | .absent =>
    callInherited ev "completed" do
      return [← scriptObject script, ← scopeObject id, ← environmentValue e]
  | .note => noteMoment "completed" (.text script) id [.number (Float.ofNat e.tasks.length)]
  | .fail message => crash .general message
  | .noteThenFail message => crash .general message
  | .emit =>
    emit host ev "run:completed"
      [("script", Value.text script), ("taskCount", Value.ofNat e.tasks.length)] (some id)

/-- Announces that a run has failed; answers the error that says so. -/
def announceFailed (host : Host) (ev : Evaluator) (script : Text) (id : RunId) (problem : Problem) :
    Action Value := do
  match host.listener.failed with
  | .absent => do
    -- what is called is given the error itself, and may change it before it is thrown
    let error ← alloc (problemObject problem)
    callInherited ev "failed" do return [← scriptObject script, ← scopeObject id, error]
    return error
  | .note => do
    noteMoment "failed" (.text script) id [← sizePortrait id, .text problem.message]
    alloc (problemObject problem)
  | .fail message => crash .general message
  | .noteThenFail message => crash .general message
  | .emit => do
    emit host ev "run:failed"
      [("script", Value.text script), ("error", Value.text problem.message)] (some id)
    alloc (problemObject problem)

/-- The number of tasks that a failing run discards. -/
def countDiscarded (id : RunId) : Action Nat :=
  modifyGet fun w =>
    let discarded := w.scopes.size id
    (discarded, { w with history := w.history ++ [.counted id discarded] })

/-- Logs that a run failed. -/
def logFailed (host : Host) (ev : Evaluator) (script : Text) (id : RunId) (discarded : Nat)
    (error : Text) : Action Unit :=
  log ev host.loggers.runner .debug "Script failed"
    [("script", Value.text script), ("runId", .run id),
      ("discardedTasks", Value.ofNat discarded), ("error", Value.text error)]

/-- Logs that the script of a run threw a value. The value is described after the tasks that are
discarded were counted. -/
def logFailure (host : Host) (ev : Evaluator) (script : Text) (id : RunId) (thrown : Value) :
    Action Unit := do
  -- the scope is still open here, so that describing the value may add to it
  let discarded ← countDiscarded id
  let error ← markingThrow (.undescribed id) (describe ev thrown)
  logFailed host ev script id discarded error

/-- Reports that the script of a run threw a value, and throws the error that says so. The thrown
value is described twice: for the error and for the log. -/
def failRun {α : Type} (host : Host) (ev : Evaluator) (script : Text) (id : RunId)
    (thrown : Value) : Action α := do
  let c ← markingThrow (.undescribed id) (cause ev thrown)
  -- the error exists before anything is logged, so that its words are those of the first
  -- description
  let problem := Problem.scriptFailed script c
  logFailure host ev script id thrown
  mark (.failed id script problem.message)
  throw (← announceFailed host ev script id problem)

/-- Announces and logs that the script of a run begins. -/
def openRun (host : Host) (ev : Evaluator) (script : Text) (id : RunId) : Action Unit :=
  markingThrow (.abandoned id) do
    announceStarted host ev script id
    log ev host.loggers.runner .debug "Running script" [("script", Value.text script), ("runId", .run id)]

/-- Carries out what a script does with its run bound. If it throws, the run fails. -/
def carryOut (host : Host) (ev : Evaluator) (script : Text) (id : RunId) (body : Action Value) :
    Action Value :=
  -- the handler acts outside the binding of the run
  tryCatch (withBinding (some id) body) (failRun host ev script id)

/-- Carries out a script, given by what it does in its run, and packages what it declared. -/
def execute (host : Host) (ev : Evaluator) (script : Text) (body : RunId → Action Value) :
    Action Environment := do
  let id ← beginScope script
  openRun host ev script id
  -- a run that could not be opened never gets here, and its scope stays open
  let (result, tasks) ← endingScope id script (carryOut host ev script id (body id))
  -- the scope is ended by now; what throws here takes the environment with it
  announceCompleted host ev script id { tasks, result }
  return { tasks, result }

/-- What is said about a text that is no program. -/
def compilerWords : Text := "the text is no program"

/-- Refuses a program that does not compile. -/
def refuseProgram {α : Type} (name : Text) : Action α := do
  let cause ← alloc (errorObject .grammar .main (some compilerWords))
  refuse (.uncompilable name ⟨cause, compilerWords⟩)

/-- Compiles a program. -/
def compile (host : Host) (ev : Evaluator) (name : Text) (program : Program) :
    Action CompiledScript := do
  match program with
  | .block body result =>
    -- a name that is bound twice in one block is found before the script runs
    if program.bindsOnce then
      log ev host.loggers.runner .debug "Script compiled" [("script", Value.text name)]
      return { name, body, result }
    else refuseProgram name
  | .invalid _ => refuseProgram name

/-- Adds the objects of a new realm. -/
def newRealm : Action Realm := do
  let realm : Realm := ⟨(← heap).size⟩
  realm.objects.forM fun o => do
    let _ ← alloc o
  return realm

/-- The names that the global object of every run has, none of which enumeration shows. -/
def globalNames (realm : Realm) : List (Text × Slot) :=
  let constants : List (Text × Slot) :=
    [("undefined", .fixed .undefined), ("NaN", .fixed (.number (0.0 / 0.0))),
      ("Infinity", .fixed (.number (1.0 / 0.0)))]
  constants ++ (Family.all.filter Family.isGlobal).map fun f => (f.name, Slot.hidden (.ref (realm.maker f)))

/-- A verb of a run as an object. -/
def newVerb (v : Verb) (id : RunId) (onTask : Value) : Action Value :=
  alloc (Object.function .main (.verb v id onTask) v.name v.arity)

/-- The global object of a run, with the names by which its script declares its plan. -/
def globalObject (host : Host) (ev : Evaluator) (realm : Realm) (id : RunId) : Action Value := do
  let engine : Value := .ref host.role.facade
  let onTask ← taskCallback host ev
  let logger ← property ev .main engine "logger"
  let type ← newVerb .type id .undefined
  let build ← newVerb .build id .undefined
  let task ← newVerb .task id onTask
  -- the object that is about to be added holds itself
  let itself : Value := .ref (← heap).size
  let own : List (Text × Slot) :=
    [("engine", .ordinary engine), ("logger", .ordinary logger), (Verb.type.name, .ordinary type),
      (Verb.build.name, .ordinary build), (Verb.task.name, .ordinary task)]
  alloc { Object.empty .plain (some (realm.template .object)) with
    slots := own ++ globalNames realm ++ [(Text.ofString "globalThis", Slot.hidden itself)] }

/-- Carries out the statements of a script and evaluates its completion value. -/
def runBody (host : Host) (ev : Evaluator) (script : CompiledScript) (id : RunId) :
    Action Value := do
  let realm ← newRealm
  let global ← globalObject host ev realm id
  -- the names of the outermost block are there from the start, though without values
  let scene ← openBlock ⟨[], global.ref?, realm, false⟩ script.body
  ev.block scene script.body
  match script.result with
  | some e => ev.expr scene e
  | none => return .undefined

/-- Executes a compiled script. -/
def executeScript (host : Host) (ev : Evaluator) (script : CompiledScript) : Action Environment :=
  execute host ev script.name (runBody host ev script)

end Action

end EvalPlan

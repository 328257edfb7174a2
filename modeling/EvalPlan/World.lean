import EvalPlan.Bus
import EvalPlan.Clock
import EvalPlan.History
import EvalPlan.Log
import EvalPlan.Resource
import EvalPlan.Scope
import EvalPlan.Value.Foundation
import EvalPlan.Value.Guard

/-!
# The world of an engine

Everything that running scripts can read or change: the heap and the variables, the scopes of runs
and the run bound to the code that executes, the continuations that wait, the event bus, the
registered builders, the known types, the resources and files, and the notices left so far. Its
history says how it came about.

An `Action` changes the world and either answers or throws a value. Whatever an action did before
it throws stays done. An `Evaluator` says how scripts are carried out; whatever may come to run code
of a script, if only because a value is wanted as text, takes one.

`Host` holds what stays as it is for the life of an engine: its loggers, who listens to its runs
and registrations, and the namespaces that type names may leave out.
-/

namespace EvalPlan

open Script (Scene Expr Stmt Program)

/-- A continuation that waits to run. -/
structure Job where
  /-- Where it is evaluated. -/
  scene : Scene
  /-- What it does. -/
  body : List Stmt
  /-- The run that was bound when it was queued. -/
  binding : Option RunId

/-- What a subscriber does when it is called. -/
inductive Reaction
  /-- It notes the event. -/
  | observe
  /-- It throws a value. -/
  | fail (v : Value)
  /-- It logs that a script has finished. -/
  | logFinish (logger : Logger)

/-- A subscriber of the engine's bus; its number tells it from others. -/
structure Subscriber where
  /-- The number. -/
  id : Nat
  /-- What it does. -/
  reaction : Reaction

instance : BEq Subscriber := ⟨fun a b => a.id == b.id⟩

/-- Where types are looked up. -/
structure TypeSource where
  /-- The types by full name. -/
  table : Table Text Value
  /-- What every lookup throws instead, where the source is broken. -/
  broken : Option Value

/-- The world. -/
structure World where
  /-- The objects. -/
  heap : Heap
  /-- The variables; one that is not bound yet has no value. -/
  frames : Array (Table Text (Option Value))
  /-- The scopes of runs. -/
  scopes : Scopes Value
  /-- The run that is bound to the executing code. -/
  binding : Option RunId
  /-- The continuations that wait, in order. -/
  queue : List Job
  /-- The event bus. -/
  bus : Bus Subscriber
  /-- The registered builders by type. -/
  mappings : Table Value Value
  /-- The known types. -/
  types : TypeSource
  /-- Where manifests are found. -/
  resources : Resources
  /-- The files. -/
  files : Files
  /-- The exports of the modules that were imported, by path. -/
  modules : Table Text (Table Text Value)
  /-- The lists that are being put into text. -/
  joining : List Ref
  /-- The notices left so far, in order. -/
  notices : List Notice
  /-- The moment, in milliseconds. -/
  clock : Nat
  /-- What happened so far, in order. -/
  history : List Mark

/-- A world in which nothing has happened, with some objects made beforehand. -/
def World.initial (heap : Heap) : World :=
  { heap
    frames := #[]
    scopes := .empty
    binding := none
    queue := []
    bus := .empty
    mappings := []
    types := ⟨[], none⟩
    resources := .listed []
    files := ⟨[], "/"⟩
    modules := []
    joining := []
    notices := []
    clock := 0
    history := [] }

/-- A computation in the world that answers or throws a value. -/
abbrev Action (α : Type) := ExceptT Value (StateM World) α

/-- How the parts of scripts are carried out. -/
structure Evaluator where
  /-- Evaluates an expression. -/
  expr : Scene → Expr → Action Value
  /-- Runs the statements of a block in the frame that is innermost. -/
  block : Scene → List Stmt → Action Unit
  /-- Calls a callable on a receiver. -/
  call : Value → Value → List Value → Action Value
  /-- Makes a new instance of a class for the code of a realm. -/
  construct : Realm → Value → Action Value
  /-- The JSON text of a value under a key, if it has one, within that of the objects on the
  path. -/
  json : List Ref → Text → Value → Action (Option Text)
  /-- Compiles a program and runs it. -/
  run : Text → Program → Action Value

/-- What happens when something is announced to a listener. -/
inductive Callback
  /-- There is no callback. A listener inherits one then if a script gave all objects a property of
  this name. -/
  | absent
  /-- The announcement is noted. -/
  | note
  /-- The listener throws an error with this message. -/
  | fail (message : Text)
  /-- The announcement is noted, and then the listener throws an error with this message. -/
  | noteThenFail (message : Text)
  /-- An event is emitted. -/
  | emit
deriving DecidableEq

/-- What runs are announced to. -/
structure Listener where
  /-- A run has begun. -/
  started : Callback
  /-- A task was declared. -/
  taskRegistered : Callback
  /-- A run has ended well. -/
  completed : Callback
  /-- A run has failed. -/
  failed : Callback

/-- What scripts know as the engine. -/
inductive Role
  /-- An engine with everything. -/
  | engine
  /-- A stand-in that declares tasks without a word and knows the current run. -/
  | bench
deriving DecidableEq

/-- The object that scripts reach the engine by. -/
def Role.facade : Role → Ref
  | engine => Fixture.engine.ref
  | bench => Fixture.bench.ref

/-- The loggers of an engine's parts. -/
structure Loggers where
  /-- The engine's own, which scripts use too. -/
  engine : Logger
  /-- The registry's. -/
  registry : Logger
  /-- The catalog's. -/
  catalog : Logger
  /-- The runner's. -/
  runner : Logger
  /-- The module loader's. -/
  modules : Logger
  /-- The bus's. -/
  bus : Logger

/-- The loggers of an engine that write through its own. The engine itself asks for its logger each
time it writes. -/
def Loggers.ofEngine (l : Logger) (bus : Logger) : Loggers :=
  { engine := l.ofEngine
    registry := l.forPart "BuilderRegistry"
    catalog := l.forPart "NamedBuilderCatalog"
    runner := l.forPart "ScriptRunner"
    modules := l.forPart "ModuleLoader"
    bus }

/-- What stays as it is for the life of an engine. -/
structure Host where
  /-- What scripts know as the engine. -/
  role : Role
  /-- The loggers. -/
  loggers : Loggers
  /-- What runs are announced to. -/
  listener : Listener
  /-- What registrations are announced to. -/
  onRegister : Callback
  /-- The namespaces that type names may leave out, in order. -/
  imports : List Text

namespace Action

/-- Adds an object. -/
def alloc (o : Object) : Action Value :=
  modifyGet fun w => (.ref w.heap.size, { w with heap := w.heap.push o })

/-- Leaves a notice. -/
def note (n : Notice) : Action Unit := modify fun w => { w with notices := w.notices ++ [n] }

/-- Reads the heap. -/
def heap : Action Heap := do return (← get).heap

/-- Leaves a mark in the history. -/
def mark (m : Mark) : Action Unit := modify fun w => { w with history := w.history ++ [m] }

/-- Leaves a mark in the history if an action throws. -/
def markingThrow {α : Type} (m : Mark) (act : Action α) : Action α :=
  tryCatch act fun thrown => do
    mark m
    throw thrown

/-- What changing an object leaves in the history. -/
def alterations (v : Value) : List Mark :=
  match v with
  | .ref r => if Fixture.has r then [.altered r] else []
  | _ => []

/-- Changes an object, unless it is frozen. -/
def change (v : Value) (f : Object → Object) : Action Unit :=
  modify fun w => { w with heap := w.heap.update v f, history := w.history ++ alterations v }

/-- Adds an object of a realm with properties that enumeration shows. -/
def record (realm : Realm) (members : List (Text × Value)) : Action Value :=
  alloc (Object.holding .plain (some (realm.template .object)) members)

/-- Adds a list of a realm. -/
def newList (realm : Realm) (items : List Value) : Action Value :=
  alloc (Object.empty (.ofItems items) (some (realm.template .list)))

/-! ### Errors -/

/-- An error object of a realm with a message. -/
def errorObject (kind : ErrorKind) (realm : Realm) (message : Option Text) : Object :=
  let own : Table Text Slot := match message with
    | some m => [("message", .hidden (.text m))]
    | none => []
  let engine : Table Text Slot := if kind.isEngine then
      [("name", .ordinary (.text kind.name)), ("code", .ordinary (.text (kind.code?.getD [])))]
    else []
  { Object.empty (.error kind) (some (realm.template (.error kind))) with slots := own ++ engine }

/-- The error object that reports a problem. -/
def problemObject (p : Problem) : Object :=
  let message : Table Text Slot := [("message", .hidden (.text p.message))]
  let name : Table Text Slot := [("name", .ordinary (.text p.kind.name))]
  let code : Table Text Slot := [("code", .ordinary (.text (p.kind.code?.getD [])))]
  let cause : Table Text Slot := match p.cause? with
    | some v => [("cause", .hidden v)]
    | none => []
  let subject : Table Text Slot := match p.subject? with
    | some (key, v) => [(key, .ordinary v)]
    | none => []
  { Object.empty (.error p.kind) (some (Realm.main.template (.error p.kind))) with
    slots := message ++ cause ++ name ++ subject ++ code }

/-- Throws a problem. -/
def refuse {α : Type} (p : Problem) : Action α := do throw (← alloc (problemObject p))

/-- Throws an error that belongs to the code of a realm. -/
def crashIn {α : Type} (realm : Realm) (kind : ErrorKind) (message : Text) : Action α := do
  throw (← alloc (errorObject kind realm (some message)))

/-- Throws an error of the library that is no problem of its own. -/
def crash {α : Type} (kind : ErrorKind) (message : Text) : Action α := crashIn .main kind message

/-- Throws the error of a value that has the wrong type. -/
def typeError {α : Type} (message : Text) : Action α := crash .type message

end Action

end EvalPlan

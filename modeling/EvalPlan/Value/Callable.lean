import EvalPlan.Log.Level
import EvalPlan.Script.Program

/-!
# What can be called

Objects that can be called, by what calling them does: the classes and functions that programs and
requests describe, the names of a run's global object, the operations of the engine, the methods of
its logger, and the standard functions of a realm.
-/

namespace EvalPlan

/-- Names a run. -/
abbrev RunId := Nat

/-- How a described callable came about, which decides whether it can be instantiated and what its
instances share. -/
inductive Making
  /-- A class. -/
  | classDefinition
  /-- A function that can be instantiated. -/
  | function
  /-- A generator: it has a template for instances, but cannot be instantiated. -/
  | generator
  /-- A callable without template. -/
  | plain
  /-- A callable that stands for another one and has no template of its own. -/
  | bound (target : Ref)
  /-- A callable whose template is null. -/
  | nullTemplate
  /-- A callable whose template is itself callable. -/
  | callableTemplate
deriving DecidableEq, Inhabited

/-- The callable can be instantiated. -/
def Making.isConstructor : Making → Bool
  | .generator => false
  | .plain => false
  | _ => true

/-- A described class or function. -/
structure Blueprint where
  /-- The key under which a request knows it. -/
  key : Option Text
  /-- How it came about. -/
  making : Making
  /-- The fields that are set on every new instance, in order. -/
  fields : List (Text × Script.Expr)
  /-- Its declaration. -/
  source : Text
  /-- The realm it belongs to. -/
  realm : Realm

/-- The names that a script calls to declare its plan. -/
inductive Verb
  /-- Finds a type by name. -/
  | type
  /-- Builds an object. -/
  | build
  /-- Declares a task. -/
  | task
deriving DecidableEq, Inhabited

namespace Verb

/-- The name of a verb. -/
def name : Verb → Text
  | type => "type"
  | build => "build"
  | task => "task"

/-- The number of parameters of a verb. -/
def arity : Verb → Nat
  | build => 2
  | _ => 1

end Verb

/-- What the engine does for scripts. -/
inductive Operation
  /-- Loads a script and runs it. -/
  | load
  /-- Compiles a program and runs it. -/
  | run
  /-- Finds a builder by name. -/
  | getBuilder
  /-- Finds the builder of a type. -/
  | getBuilderForType
  /-- Registers a builder for a type. -/
  | registerBuilder
  /-- Declares a task. -/
  | registerTask
  /-- Finds a type by name. -/
  | loadType
  /-- Emits an event. -/
  | emit
  /-- Delivers an event to the subscribers. -/
  | publish
  /-- Says whether a run is current. -/
  | current
deriving DecidableEq, Inhabited

namespace Operation

/-- The name of an operation. -/
def name : Operation → Text
  | load => "load"
  | run => "run"
  | getBuilder => "getBuilder"
  | getBuilderForType => "getBuilderForType"
  | registerBuilder => "registerBuilder"
  | registerTask => "registerTask"
  | loadType => "loadType"
  | emit => "emit"
  | publish => "emit"
  | current => "current"

/-- The number of parameters of an operation. -/
def arity : Operation → Nat
  | run => 2
  | registerBuilder => 2
  | current => 0
  | _ => 1

end Operation

/-- The methods that instances of the domain's classes share. -/
inductive DomainMethod
  /-- Describes a delimited file. -/
  | describeFile
  /-- Builds a delimited file. -/
  | buildFile
  /-- Describes a task. -/
  | describeTask
  /-- The data source of a builder of tasks. -/
  | requireSource
  /-- The metrics of a builder of tasks. -/
  | requireMetrics
  /-- Builds a task that splits the ratings into folds. -/
  | buildCrossfold
  /-- Builds a task that holds a part of the ratings out. -/
  | buildHoldout
  /-- The label of a metric. -/
  | metricLabel
  /-- Builds a metric. -/
  | buildMetric
deriving DecidableEq, Inhabited

/-- One piece of a text that an instance says about itself. -/
inductive Part
  /-- A fixed text. -/
  | words (t : Text)
  /-- The value of a field. -/
  | field (name : Text)

/-- A method that instances share. -/
inductive Method
  /-- What calling it does is given by an expression. -/
  | answer (scene : Script.Scene) (a : Script.Answer)
  /-- It makes an instance of another class, copies fields to it and may declare it as a task. -/
  | produces (cls : Value) (copied : List Text) (declares : Bool)
  /-- It puts pieces together. -/
  | parts (pieces : List Part)
  /-- It belongs to a class of the domain. -/
  | domain (m : DomainMethod)

/-- What calling an object does. -/
inductive Callable
  /-- A described class or function. -/
  | blueprint (b : Blueprint)
  /-- A function written in a script. -/
  | closure (scene : Script.Scene) (param : Text) (body : List Script.Stmt) (result : Option Script.Expr)
  /-- A method. -/
  | method (m : Method)
  /-- One of the names that a run's global object offers. It holds what is called when the run has
  taken a task, where the listener has no callback of its own for that. -/
  | verb (v : Verb) (run : RunId) (onTask : Value)
  /-- An operation of the engine. -/
  | operation (o : Operation)
  /-- A method of the logger that scripts hold. -/
  | logging (level : Level)
  /-- A standard function of a realm. -/
  | standard (f : Standard) (realm : Realm)
  /-- The maker of a family of values. -/
  | maker (f : Family) (realm : Realm)
  /-- Another callable tied to a receiver and to its first arguments. -/
  | bound (target this : Value) (arguments : List Value)
  /-- Reads a property of its argument. -/
  | reader (name : Text) (realm : Realm)
  /-- Says whether its argument is a plain segment of a builder name. -/
  | segmentTest
  /-- Says whether the scope of a run takes tasks. -/
  | scopeState (run : RunId)

/-- The callable can be instantiated. -/
def Callable.isConstructor : Callable → Bool
  | .blueprint b => b.making.isConstructor
  | .maker .symbol _ => false
  | .maker .integer _ => false
  | .maker _ _ => true
  | .bound _ _ _ => true
  | _ => false

end EvalPlan

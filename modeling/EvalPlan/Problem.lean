import EvalPlan.Value

/-!
# Problems

Everything that the library itself refuses, by its cause. A problem has a kind, which fixes the
name and the code of the error object that reports it, and a message.

Where a problem has another failure as its cause, the problem carries the thrown value and the
words that describe it.
-/

namespace EvalPlan

/-- The kinds of error objects that programs and the library raise. -/
inductive ErrorKind
  /-- An error of no further kind. -/
  | general
  /-- A value has the wrong type. -/
  | type
  /-- A limit is exceeded. -/
  | range
  /-- A program does not compile. -/
  | grammar
  /-- A name is not bound. -/
  | reference
  /-- A configuration file is no YAML. -/
  | yaml
  /-- A script or manifest cannot be read. -/
  | resourceRead
  /-- A script does not compile. -/
  | scriptCompile
  /-- A script fails while it runs, or a configuration is refused. -/
  | configuration
  /-- An operation is called with an argument it does not take. -/
  | invalidArgument
  /-- A type name is not known. -/
  | typeLoad
deriving DecidableEq, Inhabited

namespace ErrorKind

/-- The name of errors of a kind. -/
def name : ErrorKind → Text
  | general => "Error"
  | type => "TypeError"
  | range => "RangeError"
  | grammar => "SyntaxError"
  | reference => "ReferenceError"
  | yaml => "YAMLParseError"
  | resourceRead => "ResourceReadError"
  | scriptCompile => "ScriptCompileError"
  | configuration => "ConfigurationError"
  | invalidArgument => "InvalidArgumentError"
  | typeLoad => "TypeLoadError"

/-- Every kind. -/
def all : List ErrorKind :=
  [general, type, range, grammar, reference, yaml, resourceRead, scriptCompile, configuration,
    invalidArgument, typeLoad]

/-- The kind of a name. -/
def ofName? (name : Text) : Option ErrorKind := all.find? (·.name == name)

/-- The stable code of the kinds that belong to the engine. -/
def code? : ErrorKind → Option Text
  | resourceRead => some "IO_ERROR"
  | scriptCompile => some "SCRIPT_COMPILE_ERROR"
  | configuration => some "CONFIGURATION_ERROR"
  | invalidArgument => some "INVALID_ARGUMENT"
  | typeLoad => some "TYPE_LOAD_ERROR"
  | _ => none

/-- The kind belongs to the engine. -/
def isEngine (k : ErrorKind) : Bool := k.code?.isSome

end ErrorKind

/-- Another failure that led to a problem. -/
structure Cause where
  /-- The thrown value. -/
  value : Value
  /-- The words that describe it. -/
  words : Text

/-- What the library refuses. -/
inductive Problem
  /-- A script or manifest cannot be read. -/
  | unreadable (resource : Text) (cause : Cause)
  /-- A script does not compile. -/
  | uncompilable (script : Text) (cause : Cause)
  /-- A script throws. -/
  | scriptFailed (script : Text) (cause : Cause)
  /-- The manifest of a named builder names none. -/
  | noBuilderEntry (origin name : Text)
  /-- The builder that a manifest names cannot be loaded. -/
  | builderNotFound (builder name : Text) (cause : Cause)
  /-- The class that a manifest names is no builder. -/
  | namedNotBuilder (builder origin : Text)
  /-- A builder name, as it is shown, that could leave the directory of manifests. -/
  | invalidBuilderName (shown : Text)
  /-- No type is given to register a builder for. -/
  | typeMissing
  /-- No builder is given to register. -/
  | builderMissing
  /-- What is given as a builder is none. -/
  | notBuilder (name : Text)
  /-- No task is given to register. -/
  | taskMissing
  /-- A type is defined under a blank name. -/
  | typeNameBlank
  /-- What is defined as a type is none. -/
  | notConstructor (name : Text)
  /-- No type has the name that was given; its words. -/
  | unknownType (given : Value) (words : Text)
  /-- What is to be built is neither a name nor a type. -/
  | badTarget
  /-- No builder has the name. -/
  | noBuilderForName (name : Text)
  /-- No builder is known for the type. -/
  | noBuilderForType (name : Text)
  /-- A configuration is neither a function nor an object. -/
  | badConfiguration
  /-- What is declared is no task. -/
  | notTask
  /-- The cutoff of a metric is no positive integer. -/
  | badCutoff (metric : Text)
  /-- A delimited file has no path. -/
  | pathMissing
  /-- The delimiter of a delimited file is not one unit long. -/
  | badDelimiter (delimiter : Text)
  /-- A task has no data source. -/
  | sourceMissing (task : Text)
  /-- The metrics of a task are no list. -/
  | metricsNotList (task : Text)
  /-- A metric of a task was not built as one. -/
  | metricsNotBuilt (task : Text)
  /-- The number of folds is no integer of at least two. -/
  | badFolds (task : Text)
  /-- The fraction of test data is not between zero and one. -/
  | badFraction (task : Text)

namespace Problem

/-- The kind of a problem. -/
def kind : Problem → ErrorKind
  | unreadable _ _ => .resourceRead
  | uncompilable _ _ => .scriptCompile
  | invalidBuilderName _ => .invalidArgument
  | typeMissing => .invalidArgument
  | builderMissing => .invalidArgument
  | notBuilder _ => .invalidArgument
  | taskMissing => .invalidArgument
  | typeNameBlank => .invalidArgument
  | notConstructor _ => .invalidArgument
  | unknownType _ _ => .typeLoad
  | _ => .configuration

/-- The message of a problem. -/
def message : Problem → Text
  | unreadable resource cause => "cannot read " ++ resource ++ ": " ++ cause.words
  | uncompilable script cause => "cannot compile script " ++ script ++ ": " ++ cause.words
  | scriptFailed script cause =>
    "error running configuration script " ++ script ++ ": " ++ cause.words
  | noBuilderEntry origin name =>
    "manifest " ++ origin ++ " for builder " ++ name ++ " has no 'builder' entry"
  | builderNotFound builder name cause =>
    "cannot find builder class " ++ builder ++ " for " ++ name ++ ": " ++ cause.words
  | namedNotBuilder builder origin =>
    "class " ++ builder ++ " named by " ++ origin ++ " is not a builder"
  | invalidBuilderName shown => "invalid builder name: " ++ shown
  | typeMissing => "type cannot be null"
  | builderMissing => "builder cannot be null"
  | notBuilder name => name ++ " is not a builder"
  | taskMissing => "task cannot be null"
  | typeNameBlank => "type name cannot be empty"
  | notConstructor name => "type " ++ name ++ " is not a constructor"
  | unknownType _ words => "unknown type " ++ words
  | badTarget => "build() expects a builder name or a type"
  | noBuilderForName name => "no builder found for name '" ++ name ++ "'"
  | noBuilderForType name => "no builder found for type " ++ name
  | badConfiguration => "build() configuration must be a function or an object"
  | notTask => "task() expects an object with a string 'name'"
  | badCutoff metric => "metric " ++ metric ++ ": cutoff must be a positive integer"
  | pathMissing => "csv data source needs a path"
  | badDelimiter delimiter => "csv delimiter must be one character, got '" ++ delimiter ++ "'"
  | sourceMissing task => "task " ++ task ++ " needs a data source"
  | metricsNotList task => "task " ++ task ++ ": metrics must be a list"
  | metricsNotBuilt task =>
    "task " ++ task ++ ": metrics must be built with build(type(\"Metric\"))"
  | badFolds task => "task " ++ task ++ ": folds must be an integer of at least 2"
  | badFraction task => "task " ++ task ++ ": testFraction must be between 0 and 1"

/-- The thrown value that led to a problem. -/
def cause? : Problem → Option Value
  | unreadable _ cause => some cause.value
  | uncompilable _ cause => some cause.value
  | scriptFailed _ cause => some cause.value
  | builderNotFound _ _ cause => some cause.value
  | _ => none

/-- What a problem is about, under the name that error objects give it. -/
def subject? : Problem → Option (Text × Value)
  | unreadable resource _ => some ("resource", .text resource)
  | uncompilable script _ => some ("script", .text script)
  | unknownType given _ => some ("typeName", given)
  | _ => none

end Problem

end EvalPlan

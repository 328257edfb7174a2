import EvalPlan.Script.Machine
import EvalPlan.Types
import EvalPlan.World.Definition

/-!
# The domain of evaluations

The classes that configuration scripts build their plans from: sources of ratings, tasks that train
and test on them, and measures of accuracy, each with its builder. Builders hold what a script
configured and refuse to build what is not valid.

The classes are among the objects that every world begins with: behind the fixtures the template and
the maker of each class, and behind those the methods.
-/

namespace EvalPlan

open Script (Expr)

/-- The classes of the domain of evaluations. -/
inductive Kin
  /-- A source of ratings. -/
  | dataSource
  /-- A source of ratings in a delimited file. -/
  | csvDataSource
  /-- A builder of delimited files. -/
  | csvDataSourceBuilder
  /-- A task that trains and tests. -/
  | trainTestTask
  /-- What the builders of tasks have in common. -/
  | taskBuilder
  /-- A builder of tasks that split the ratings into folds. -/
  | crossfoldTaskBuilder
  /-- A builder of tasks that hold a part of the ratings out. -/
  | holdoutTaskBuilder
  /-- A measure of accuracy. -/
  | metric
  /-- A builder of metrics. -/
  | metricBuilder
deriving DecidableEq, Inhabited

namespace DomainMethod

/-- Every method of the domain. -/
def all : List DomainMethod :=
  [describeFile, buildFile, describeTask, requireSource, requireMetrics, buildCrossfold, buildHoldout,
    metricLabel, buildMetric]

/-- The name of a method. -/
def name : DomainMethod → Text
  | describeFile => "describe"
  | buildFile => "build"
  | describeTask => "describe"
  | requireSource => "requireSource"
  | requireMetrics => "requireMetrics"
  | buildCrossfold => "build"
  | buildHoldout => "build"
  | metricLabel => "get label"
  | buildMetric => "build"

/-- A method as an object. -/
def object (m : DomainMethod) : Object := Object.function .main (.method (.domain m)) m.name 0

end DomainMethod

namespace Kin

/-- The classes in the order of their objects. -/
def all : List Kin :=
  [dataSource, csvDataSource, csvDataSourceBuilder, trainTestTask, taskBuilder, crossfoldTaskBuilder,
    holdoutTaskBuilder, metric, metricBuilder]

/-- The classes that requests and scripts know by name. -/
def named : List Kin := all.filter (· ≠ taskBuilder)

/-- The position of a class in the list of all of them. -/
def index : Kin → Nat
  | dataSource => 0
  | csvDataSource => 1
  | csvDataSourceBuilder => 2
  | trainTestTask => 3
  | taskBuilder => 4
  | crossfoldTaskBuilder => 5
  | holdoutTaskBuilder => 6
  | metric => 7
  | metricBuilder => 8

theorem all_index (k : Kin) : all[k.index]? = some k := by cases k <;> rfl

/-- What the instances of a class inherit from. -/
def template (k : Kin) : Ref := Fixture.bound + 2 * k.index

/-- The object that is a class. -/
def ref (k : Kin) : Ref := Fixture.bound + 2 * k.index + 1

/-- The object that is a method. -/
def methodRef (m : DomainMethod) : Ref := Fixture.bound + 2 * all.length + DomainMethod.all.idxOf m

/-- The name of a class. -/
def name : Kin → Text
  | dataSource => "DataSource"
  | csvDataSource => "CsvDataSource"
  | csvDataSourceBuilder => "CsvDataSourceBuilder"
  | trainTestTask => "TrainTestTask"
  | taskBuilder => "TrainTestTaskBuilder"
  | crossfoldTaskBuilder => "CrossfoldTaskBuilder"
  | holdoutTaskBuilder => "HoldoutTaskBuilder"
  | metric => "Metric"
  | metricBuilder => "MetricBuilder"

/-- The namespace of a class. -/
def space : Kin → Text
  | dataSource => "evalconf.data"
  | csvDataSource => "evalconf.data"
  | csvDataSourceBuilder => "evalconf.data"
  | trainTestTask => "evalconf.eval"
  | taskBuilder => "evalconf.eval"
  | crossfoldTaskBuilder => "evalconf.eval"
  | holdoutTaskBuilder => "evalconf.eval"
  | metric => "evalconf.metrics"
  | metricBuilder => "evalconf.metrics"

/-- The full name of a class. -/
def fullName (k : Kin) : Text := qualified k.space k.name

/-- The class that a class extends. -/
def base? : Kin → Option Kin
  | csvDataSource => some dataSource
  | crossfoldTaskBuilder => some taskBuilder
  | holdoutTaskBuilder => some taskBuilder
  | _ => none

/-- A field without a value. -/
def unset (name : String) : Text × Expr := (Text.ofString name, .const .undefined)

/-- A field with a value. -/
def preset (name : String) (v : Value) : Text × Expr := (Text.ofString name, .const v)

/-- The fields that a class adds to those of the class it extends. -/
def ownFields : Kin → List (Text × Expr)
  | dataSource => []
  | csvDataSource => [unset "path", unset "delimiter", unset "hasHeader"]
  | csvDataSourceBuilder => [preset "path" "", preset "delimiter" ",", preset "hasHeader" (.bool true)]
  | trainTestTask => [unset "name", unset "source", unset "split", unset "metrics"]
  | taskBuilder => [preset "source" .null, ("metrics", .list [])]
  | crossfoldTaskBuilder => [preset "name" "crossfold", preset "folds" (.number 5)]
  | holdoutTaskBuilder => [preset "name" "holdout", preset "testFraction" (.number 0.2)]
  | metric => [unset "name", unset "cutoff"]
  | metricBuilder => [preset "name" "rmse", preset "cutoff" .null]

/-- The fields of the instances of a class. -/
def fields (k : Kin) : List (Text × Expr) :=
  (match k.base? with
    | some base => base.ownFields
    | none => []) ++ k.ownFields

/-- The methods that the instances of a class share. -/
def methods : Kin → List DomainMethod
  | csvDataSource => [.describeFile]
  | csvDataSourceBuilder => [.buildFile]
  | trainTestTask => [.describeTask]
  | taskBuilder => [.requireSource, .requireMetrics]
  | crossfoldTaskBuilder => [.buildCrossfold]
  | holdoutTaskBuilder => [.buildHoldout]
  | metricBuilder => [.buildMetric]
  | _ => []

/-- The number of parameters of a class. -/
def arity : Kin → Nat
  | csvDataSource => 3
  | trainTestTask => 4
  | metric => 2
  | _ => 0

/-- The template of a class. The label of a metric is computed when it is read. -/
def templateObject (k : Kin) : Object :=
  let shared : Table Text Slot := k.methods.map fun m => (m.name, Slot.hidden (.ref (methodRef m)))
  let computed : Table Text Slot :=
    if k = metric then [("label", .computed (.ref (methodRef .metricLabel)) .undefined)] else []
  { Object.empty .plain (some ((k.base?.map template).getD (Realm.main.template .object))) with
    slots := (Text.ofString "constructor", Slot.hidden (.ref k.ref)) :: shared ++ computed }

/-- A class as an object. Metrics name their builder themselves. -/
def object (k : Kin) : Object :=
  let o := Object.constructor .main
    (.blueprint
      { key := if k = taskBuilder then none else some k.name, making := .classDefinition, fields := k.fields
        source := "class " ++ k.name, realm := .main })
    k.name k.arity (.ref k.template)
  { o with
    parent := some ((k.base?.map ref).getD (Realm.main.template .function))
    marker := if k = metric then some (.ref (ref metricBuilder)) else none }

end Kin

namespace Heap

/-- The value is an instance of a class of the domain. -/
def isKin (h : Heap) (v : Value) (k : Kin) : Bool := h.inherits v k.template

end Heap

namespace Domain

/-- The objects of the domain in the order of their references. -/
def objects : List Object :=
  (Kin.all.flatMap fun k => [k.templateObject, k.object]) ++ DomainMethod.all.map DomainMethod.object

/-- The heap that holds what every world begins with. -/
def heap : Heap := (Realm.main.objects ++ Fixture.objects ++ objects).toArray

/-- The classes under their full names. -/
def types : List (Text × Value) := Kin.named.map fun k => (k.fullName, .ref k.ref)

/-- The classes under their own names. -/
def classes : Table Text Value := Kin.named.map fun k => (k.name, .ref k.ref)

/-- The namespaces that scripts may leave out. -/
def imports : List Text := ["evalconf.data", "evalconf.eval", "evalconf.metrics"]

open EvalPlan.Action

/-- Reads a property for a method of the domain. -/
def read (ev : Evaluator) (v : Value) (name : Text) : Action Value := property ev .main v name

/-- The words of a value for a method of the domain. -/
def wordsOf (ev : Evaluator) (v : Value) : Action Text := words ev .main v

/-- Makes an instance of a class of the domain with its fields. -/
def make (k : Kin) (fields : List (Text × Value)) : Action Value :=
  alloc (Object.holding .plain (some k.template) fields)

/-- The number is an integer that is not below the least one allowed. -/
def isIntegerFrom (least : Nat) (v : Value) : Bool :=
  match v with
  | .number x => Decimal.isInteger x && !(x < Float.ofNat least)
  | _ => false

/-- Builds a delimited file: the path must not be blank, and the delimiter one unit long. -/
def buildFile (ev : Evaluator) (this : Value) : Action Value := do
  let trimmed ← invoke ev .main (← read ev this "path") "trim" []
  if (← read ev trimmed "length") == .number 0 then refuse .pathMissing
  else
    let delimiter ← read ev this "delimiter"
    let width ← read ev delimiter "length"
    if !(width == .number 1) then refuse (.badDelimiter (← wordsOf ev delimiter))
    else
      make .csvDataSource [("path", ← read ev this "path"), ("delimiter", delimiter),
        ("hasHeader", ← read ev this "hasHeader")]

/-- Describes a delimited file. -/
def describeFile (ev : Evaluator) (this : Value) : Action Value := do
  let delimiter ← read ev this "delimiter"
  let shown : Value := if delimiter == .text [Text.tab] then "\\t" else delimiter
  let path ← wordsOf ev (← read ev this "path")
  let mark ← wordsOf ev shown
  let header ← read ev this "hasHeader"
  let note : Text := if header.isTruthy then ", header" else []
  return .text ("csv " ++ path ++ " (delimiter '" ++ mark ++ "'" ++ note ++ ")")

/-- The data source of a builder of tasks. -/
def requireSource (ev : Evaluator) (this : Value) : Action Value := do
  let source ← read ev this "source"
  if (← Action.heap).isKin source .dataSource then return source
  else refuse (.sourceMissing (← wordsOf ev (← read ev this "name")))

/-- The metrics that going through a list gives, if it gives nothing else. The characters of a text
are no metrics, and a list that inherits no way to be gone through gives nothing at all. -/
def metricsOf (ev : Evaluator) (list : Value) (length : Nat) : Action (Option (List Value)) := do
  let h ← Action.heap
  match h.walk? list with
  | some .byItems => return h.itemsIf (h.isKin · .metric) list length 0
  | some (.byText realm) => return if (← words ev realm list).isEmpty then some [] else none
  | none => typeError "the list cannot be gone through"

/-- The metrics of a builder of tasks, as a new list. -/
def requireMetrics (ev : Evaluator) (this : Value) : Action Value := do
  let metrics ← read ev this "metrics"
  match (← Action.heap).shape? metrics with
  | some (.list _ length) =>
    match ← metricsOf ev metrics length with
    | some items => newList .main items
    | none => refuse (.metricsNotBuilt (← wordsOf ev (← read ev this "name")))
  | _ => refuse (.metricsNotList (← wordsOf ev (← read ev this "name")))

/-- Makes a task of a builder, which splits the ratings in the way of a kind that a field says more
about. -/
def makeTask (ev : Evaluator) (this : Value) (kind field : Text) : Action Value := do
  let name ← read ev this "name"
  let source ← invoke ev .main this "requireSource" []
  let split ← record .main [("kind", .text kind), (field, ← read ev this field)]
  let metrics ← invoke ev .main this "requireMetrics" []
  make .trainTestTask [("name", name), ("source", source), ("split", split), ("metrics", metrics)]

/-- Builds a task that splits the ratings into folds. -/
def buildCrossfold (ev : Evaluator) (this : Value) : Action Value := do
  if isIntegerFrom 2 (← read ev this "folds") then makeTask ev this "crossfold" "folds"
  else refuse (.badFolds (← wordsOf ev (← read ev this "name")))

/-- What a builder holds as its fraction of test data, taken for a number, lies between zero and
one. For each of the two it is read and taken for a number anew. -/
def isFraction (ev : Evaluator) (this : Value) : Action Bool := do
  if 0 < (← magnitude ev .main (← read ev this "testFraction")) then
    return (← magnitude ev .main (← read ev this "testFraction")) < 1
  else return false

/-- Builds a task that holds a part of the ratings out. -/
def buildHoldout (ev : Evaluator) (this : Value) : Action Value := do
  if ← isFraction ev this then makeTask ev this "holdout" "testFraction"
  else refuse (.badFraction (← wordsOf ev (← read ev this "name")))

/-- Describes how a task splits the ratings. -/
def describeSplit (ev : Evaluator) (split : Value) : Action Text := do
  if (← read ev split "kind") == .text "crossfold" then
    return (← wordsOf ev (← read ev split "folds")) ++ "-fold crossfold"
  else
    let x ← toNumber ev .main (← read ev split "testFraction")
    return "holdout " ++ Decimal.text (Decimal.round (x * 100)) ++ "%"

/-- Describes the metrics of a task: their labels, joined by commas. -/
def describeMetrics (ev : Evaluator) (metrics : Value) : Action Value := do
  if 0 < (← magnitude ev .main (← read ev metrics "length")) then
    let labelOf ← alloc (Object.function .main (.reader "label" .main) [] 1)
    let labels ← invoke ev .main metrics "map" [labelOf]
    invoke ev .main labels "join" [", "]
  else return "none"

/-- Describes a task. -/
def describeTask (ev : Evaluator) (this : Value) : Action Value := do
  let split ← describeSplit ev (← read ev this "split")
  let metrics ← describeMetrics ev (← read ev this "metrics")
  let name ← wordsOf ev (← read ev this "name")
  let source ← wordsOf ev (← invoke ev .main (← read ev this "source") "describe" [])
  let metrics ← wordsOf ev metrics
  return .text (name ++ ": " ++ split ++ " on " ++ source ++ "; metrics " ++ metrics)

/-- Builds a metric. -/
def buildMetric (ev : Evaluator) (this : Value) : Action Value := do
  let cutoff ← read ev this "cutoff"
  let valid := match cutoff with
    | .null => true
    | _ => isIntegerFrom 1 cutoff
  if valid then make .metric [("name", ← read ev this "name"), ("cutoff", cutoff)]
  else refuse (.badCutoff (← wordsOf ev (← read ev this "name")))

/-- The label of a metric: its name, behind it the cutoff if there is one. -/
def metricLabel (ev : Evaluator) (this : Value) : Action Value := do
  match ← read ev this "cutoff" with
  | .null => read ev this "name"
  | cutoff => do
    let name ← wordsOf ev (← read ev this "name")
    return .text (name ++ "@" ++ (← wordsOf ev cutoff))

/-- Carries a method of the domain out. -/
def method (ev : Evaluator) (m : DomainMethod) (this : Value) : Action Value :=
  match m with
  | .describeFile => describeFile ev this
  | .buildFile => buildFile ev this
  | .describeTask => describeTask ev this
  | .requireSource => requireSource ev this
  | .requireMetrics => requireMetrics ev this
  | .buildCrossfold => buildCrossfold ev this
  | .buildHoldout => buildHoldout ev this
  | .metricLabel => metricLabel ev this
  | .buildMetric => buildMetric ev this

/-- A new data source of a class of its own that describes itself with a fixed text. -/
def sourceSaying (ev : Evaluator) (words : Text) : Action Value := do
  let describe ← newMethod .main "describe" (.answer .outside (.returns (.const (.text words))))
  let cls ← newClass .main
    { key := none, name := [], making := fun _ => .classDefinition, base := some (.ref (Kin.ref .dataSource))
      fields := [("path", .const "custom")], shared := [("describe", describe)], source := "class " }
  ev.construct .main cls

/-- Defines the classes under their full names. -/
def defineTypes : Action Unit := types.forM fun row => defineType row.1 row.2

end Domain

end EvalPlan

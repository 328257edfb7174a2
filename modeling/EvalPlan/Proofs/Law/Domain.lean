import EvalPlan.Proofs.Law.Standard

/-!
# Types, builders and the domain follow the rules

Looking types and builders up, registering builders, and what the methods of the domain of
evaluations do.
-/

namespace EvalPlan

open Script (Expr)

namespace Action

variable {T : Trait} {ev : Evaluator} {host : Host}

/-! ## Types -/

section types

variable (law : Stable T)

include law

/-- Looking a type up under its full name answers it or throws. -/
theorem loadExact_holds (name : Text) : T.holds (loadExact name) := by
  unfold loadExact
  refine law.read (fun _ => rfl) fun w => ?_
  split
  · exact law.throw _
  · split
    · exact law.pure _
    · exact law.refuse _

/-- Looking a type up tries the names that imports make of the given one. -/
theorem loadType_holds (imports : List Text) (name : Text) : T.holds (loadType imports name) := by
  unfold loadType
  refine law.read (fun _ => rfl) fun w => ?_
  split <;> exact loadExact_holds law _

/-- Reading the items of a list at once runs no code. -/
theorem itemsOf_holds (v : Value) : T.holds (itemsOf v) := by
  unfold itemsOf
  refine law.bind law.heap fun h => ?_
  split
  · exact law.pure _
  · exact law.pure _
  · exact law.typeError _

/-- Trying a name answers that there is no such type where looking it up throws. -/
theorem tryLoad_holds (name : Text) : T.holds (tryLoad name) := by
  refine law.tryCatch (law.bind (loadExact_holds law _) fun _ => law.pure _) fun thrown =>
    law.bind law.heap fun h => ?_
  split
  · exact law.pure _
  · exact law.throw _

variable (hev : ev.Meets T)

include hev

/-- The names that imports make of a name are tried one after another, each put into text first. -/
theorem qualifiedName?_holds (name : Value) (spaces : List Value) :
    T.holds (qualifiedName? ev name spaces) := by
  induction spaces with
  | nil => exact law.pure _
  | cons space rest ih =>
    refine law.bind (words_holds law hev _ _) fun _ => law.bind (words_holds law hev _ _) fun _ =>
      law.read (fun _ => rfl) fun w => ?_
    split
    · exact law.pure _
    · exact ih

/-- A type is looked up under its own name and then under the names that imports make of it. -/
theorem loadQualified_holds (imports : List Value) (name : Value) :
    T.holds (loadQualified ev imports name) := by
  unfold loadQualified
  refine law.bind (qualifiedName?_holds law hev _ _) fun full => ?_
  split
  · exact loadExact_holds law _
  · exact law.bind (words_holds law hev _ _) fun _ => law.refuse _

/-- The engine loads a type by what its object says the imports are. -/
theorem loadNamedType_holds (host : Host) (name : Value) :
    T.holds (loadNamedType host ev name) := by
  unfold loadNamedType
  split
  · exact loadExact_holds law _
  · exact loadQualified_holds law hev _ _
  · refine law.read (fun _ => rfl) fun w => ?_
    split
    · exact loadExact_holds law _
    · refine law.bind (property_holds law hev _ _ _) fun _ =>
        law.bind (itemsOf_holds law _) fun imports => ?_
      split
      · exact loadType_holds law _ _
      · exact loadQualified_holds law hev _ _
  · exact law.bind (property_holds law hev _ _ _) fun _ => law.bind (itemsOf_holds law _) fun _ =>
      loadQualified_holds law hev _ _

end types

/-! ## Resources and resolution -/

section resources

variable (law : Stable T)

include law

/-- Reading a resource answers its text or refuses it with the reason. -/
theorem readResource_holds (r : Resource) : T.holds (readResource r) := by
  unfold readResource
  refine law.read (fun w => by simp only [World.readable, w.files.alike_canonical.readResource])
    fun w => ?_
  split
  · exact law.pure _
  · exact law.bind (law.alloc (Object.holdsName_errorObject _ _ _)) fun _ => law.refuse _

/-- Looking for resources leaves at most a note of the lookup. -/
theorem findResources_holds (path : Text) : T.holds (findResources path) := by
  unfold findResources
  refine law.read (fun w => by
    simp only [World.readable, World.visible, w.files.alike_canonical.find]) fun w => ?_
  split
  · exact law.bind (law.note rfl rfl rfl) fun _ => law.pure _
  · exact law.pure _

/-- Looking the builder of a class up changes nothing. -/
theorem resolve_holds (type : Value) : T.holds (resolve type) := by
  unfold resolve
  refine law.read (fun _ => rfl) fun w => ?_
  split
  · exact law.typeError _
  · exact law.pure _

end resources

/-! ## Registrations -/

section registrations

variable (law : Rules host T) (hev : ev.Meets T)

include law hev

/-- Emitting an event that belongs to no run follows the rules of the host. -/
theorem emit_none_holds (type : Text) (fields : List (Text × Datum)) :
    T.holds (emit host ev type fields none) :=
  emit_holds law.toStable hev host type fields none fun data => law.publish hev type data

/-- A registration is announced by a note or an event, or its listener throws. -/
theorem announceRegistration_holds (type builder : Value) :
    T.holds (announceRegistration host ev type builder) := by
  unfold announceRegistration
  refine law.bind law.heap fun h => ?_
  split
  · exact law.pure _
  · exact law.note rfl rfl rfl
  · exact law.crash _ _
  · exact law.bind (law.note rfl rfl rfl) fun _ => law.crash _ _
  · exact law.bind (nameOf_holds law.toStable hev _) fun _ =>
      law.bind (nameOf_holds law.toStable hev _) fun _ => emit_none_holds law hev _ _

/-- The name of what was given as a builder is read and put into text. -/
theorem givenName_holds (v : Value) : T.holds (givenName ev v) := by
  unfold givenName
  refine law.bind (nameOf_holds law.toStable hev _) fun name => ?_
  split
  · exact words_holds law.toStable hev _ _
  · exact law.pure _

/-- Finding out what is wrong with a registration may ask for a name. -/
theorem registrationProblem_holds (type builder : Value) :
    T.holds (registrationProblem ev type builder) := by
  unfold registrationProblem
  split
  · exact law.pure _
  · split
    · exact law.pure _
    · exact law.bind (givenName_holds law hev _) fun _ => law.pure _

/-- Refusing a registration finds out what is wrong and throws an error that says so. -/
theorem refuseRegistration_holds (type builder : Value) :
    T.holds (refuseRegistration ev type builder) :=
  law.bind (registrationProblem_holds law hev _ _) fun _ => law.refuse _

/-- A registration is logged and then announced. -/
theorem reportRegistration_holds (type builder : Value) :
    T.holds (reportRegistration host ev type builder) :=
  law.bind (nameOf_holds law.toStable hev _) fun _ =>
    law.bind (nameOf_holds law.toStable hev _) fun _ =>
      law.bind (log_holds law.toStable hev law.loggers.registry _ _ _) fun _ =>
        announceRegistration_holds law hev _ _

/-- Registering a builder enrolls it, and reports or refuses that. -/
theorem register_holds (type builder : Value) : T.holds (register host ev type builder) := by
  unfold register
  -- the judgement comes first, and then it is reported or refused
  refine law.bind (law.enroll _ _) fun accepted => ?_
  split
  · exact reportRegistration_holds law hev _ _
  · exact refuseRegistration_holds law hev _ _

/-- Manifests are read in order, each of them announced in the log. -/
theorem readManifests_holds (found : List Resource) : T.holds (readManifests host ev found) := by
  induction found with
  | nil => exact law.pure _
  | cons r rest ih =>
    exact law.bind (log_holds law.toStable hev law.loggers.registry _ _ _) fun _ =>
      law.bind (readResource_holds law.toStable _) fun _ => law.bind ih fun _ => law.pure _

/-- A row of a manifest loads the classes that it names and registers one for the other; what fails
there is logged. -/
theorem registerRow_holds (typeName builderName : Text) :
    T.holds (registerRow host ev typeName builderName) := by
  unfold registerRow
  refine law.bind (tryLoad_holds law.toStable _) fun type => ?_
  split
  · -- a name that nothing can be loaded by is only logged
    exact law.bind (log_holds law.toStable hev law.loggers.registry _ _ _) fun _ => law.pure _
  · refine law.bind (tryLoad_holds law.toStable _) fun builder => ?_
    split
    · exact law.bind (log_holds law.toStable hev law.loggers.registry _ _ _) fun _ => law.pure _
    · refine law.bind law.heap fun h => ?_
      split
      · exact law.bind (register_holds law hev _ _) fun _ => law.pure _
      · exact law.bind (log_holds law.toStable hev law.loggers.registry _ _ _) fun _ => law.pure _

/-- The rows of a table are registered one by one, by induction on them. -/
theorem registerRows_holds (rows : List (Text × Text)) : T.holds (registerRows host ev rows) := by
  induction rows with
  | nil => exact law.pure _
  | cons row rest ih =>
    exact law.bind (registerRow_holds law hev _ _) fun _ => law.bind ih fun _ => law.pure _

/-- Loading the default builders looks for manifests, reads them and registers their rows. -/
theorem loadDefaults_holds : T.holds (loadDefaults host ev) :=
  law.bind (findResources_holds law.toStable _) fun _ =>
    law.bind (readManifests_holds law hev _) fun _ =>
      law.bind (registerRows_holds law hev _) fun _ =>
      law.bind (log_holds law.toStable hev law.loggers.registry _ _ _) fun _ => law.pure _

end registrations

/-! ## Named builders -/

section catalog

variable (law : Stable T) (hev : ev.Meets T)

include law hev

/-- Whether a value is a plain name is judged by its text. -/
theorem isPlainSegmentValue_holds (v : Value) : T.holds (isPlainSegmentValue ev v) := by
  unfold isPlainSegmentValue
  refine law.bind (property_holds law hev _ _ _) fun _ =>
    law.bind (magnitude_holds law hev _ _) fun x => ?_
  split <;> exact law.pure _

/-- A name for a builder is accepted or not, which may put it into text. -/
theorem namesBuilder_holds (name : Value) : T.holds (namesBuilder ev name) := by
  unfold namesBuilder
  refine law.bind (property_holds law hev _ _ _) fun _ => ?_
  split
  · exact law.pure _
  · -- what is no text is asked for its parts by its own methods
    refine law.bind (invoke_holds law hev _ _ _ _) fun _ => ?_
    split
    · exact law.pure _
    · exact law.bind (invoke_holds law hev _ _ _ _) fun _ =>
        law.bind (law.alloc (Object.holdsName_function _ _ _ _)) fun _ =>
          law.bind (invoke_holds law hev _ _ _ _) fun _ => law.pure _

/-- A name is put into text to be shown in a message. -/
theorem shownName_holds (name : Value) : T.holds (shownName ev name) :=
  law.bind (hev.json _ _ _) fun _ => law.pure _

/-- The class that a manifest names is loaded; one that is none, or no builder, is refused. -/
theorem loadNamed_holds (name : Value) (origin builderName : Text) :
    T.holds (loadNamed ev name origin builderName) := by
  unfold loadNamed
  -- what loading throws becomes the cause of another error
  refine law.bind (law.tryCatch (loadExact_holds law _) fun _ =>
    law.bind (words_holds law hev _ _) fun _ => law.bind (cause_holds law hev _) fun _ =>
      law.refuse _)
    fun builder => law.bind law.heap fun h => ?_
  split
  · exact law.pure _
  · exact law.refuse _

variable {host : Host} (hlog : T.Permits host.loggers.catalog.sink)

include hlog

/-- An accepted name is looked up, and the manifest that is found is read. -/
theorem findAccepted_holds (name : Value) (path : Text) :
    T.holds (findAccepted host ev name path) := by
  unfold findAccepted
  refine law.bind (log_holds law hev hlog _ _ _) fun _ =>
    law.bind (findResources_holds law _) fun found => ?_
  split
  · exact law.bind (log_holds law hev hlog _ _ _) fun _ => law.pure _
  · refine law.bind (readResource_holds law _) fun t => ?_
    split
    · exact law.bind (words_holds law hev _ _) fun _ => law.refuse _
    · exact law.bind (loadNamed_holds law hev _ _ _) fun _ => law.pure _

/-- Looking a builder up by a text that names it has a trait that reading resources and loading
types have. -/
theorem findNamed_holds (name : Text) : T.holds (findNamed host ev name) := by
  unfold findNamed
  split
  · exact findAccepted_holds law hev hlog _ _
  · exact law.refuse _

/-- So has looking it up by any value. -/
theorem findNamedBy_holds (name : Value) : T.holds (findNamedBy host ev name) := by
  unfold findNamedBy
  split
  · exact findNamed_holds law hev hlog _
  · refine law.bind (namesBuilder_holds law hev _) fun named => ?_
    split
    · exact law.bind (words_holds law hev _ _) fun _ => findAccepted_holds law hev hlog _ _
    · exact law.bind (shownName_holds law hev _) fun _ => law.refuse _

end catalog

end Action

/-! ## The domain of evaluations -/

namespace Domain

open EvalPlan.Action

variable {T : Trait} {ev : Evaluator} (law : Stable T)

include law

/-- Making an object of the domain adds an object with its fields. -/
theorem make_holds (k : Kin) (fields : List (Text × Value)) : T.holds (make k fields) :=
  law.alloc (Object.holdsName_holding _ _ _)

variable (hev : ev.Meets T)

include hev

/-- Reading a field of a builder is reading a property. -/
theorem read_holds (v : Value) (name : Text) :
    T.holds (read ev v name) := property_holds law hev _ _ _

/-- A field is put into text like any value. -/
theorem wordsOf_holds (v : Value) : T.holds (wordsOf ev v) := words_holds law hev _ _

/-- Refusing a builder by the name that it has. -/
theorem refuseNamed_holds (this : Value) (name : Text) {problem : Text → Problem} {α : Type} :
    T.holds (do refuse (problem (← wordsOf ev (← read ev this name))) : Action α) :=
  law.bind (read_holds law hev _ _) fun _ => law.bind (wordsOf_holds law hev _) fun _ =>
    law.refuse _

/-- Building a delimited file trims the path, measures the delimiter and refuses what does not
fit. -/
theorem buildFile_holds (this : Value) : T.holds (buildFile ev this) := by
  unfold buildFile
  refine law.bind (read_holds law hev _ _) fun _ => law.bind (invoke_holds law hev _ _ _ _) fun _ =>
    law.bind (read_holds law hev _ _) fun length => ?_
  split
  · exact law.refuse _
  · refine law.bind (read_holds law hev _ _) fun _ => law.bind (read_holds law hev _ _) fun width =>
      ?_
    split
    · exact law.bind (wordsOf_holds law hev _) fun _ => law.refuse _
    · exact law.bind (read_holds law hev _ _) fun _ => law.bind (read_holds law hev _ _) fun _ =>
        make_holds law _ _

/-- Describing a delimited file puts its fields into text. -/
theorem describeFile_holds (this : Value) : T.holds (describeFile ev this) :=
  law.bind (read_holds law hev _ _) fun _ => law.bind (read_holds law hev _ _) fun _ =>
    law.bind (wordsOf_holds law hev _) fun _ => law.bind (wordsOf_holds law hev _) fun _ =>
      law.bind (read_holds law hev _ _) fun _ => law.pure _

/-- A builder without a data source refuses to go on, which puts its name into text. -/
theorem requireSource_holds (this : Value) : T.holds (requireSource ev this) := by
  unfold requireSource
  refine law.bind (read_holds law hev _ _) fun source => law.bind law.heap fun h => ?_
  split
  · exact law.pure _
  · exact refuseNamed_holds law hev _ _

/-- The metrics of a task are gone through in the way that the list is. -/
theorem metricsOf_holds (list : Value) (length : Nat) : T.holds (metricsOf ev list length) := by
  unfold metricsOf
  refine law.bind law.heap fun h => ?_
  split
  · exact law.pure _
  · exact law.bind (words_holds law hev _ _) fun _ => law.pure _
  · exact law.typeError _

/-- A builder checks the list of its metrics and makes a new one of them. -/
theorem requireMetrics_holds (this : Value) : T.holds (requireMetrics ev this) := by
  unfold requireMetrics
  refine law.bind (read_holds law hev _ _) fun metrics => law.bind law.heap fun h => ?_
  split
  · refine law.bind (metricsOf_holds law hev _ _) fun items => ?_
    split
    · exact law.newList _ _
    · exact refuseNamed_holds law hev _ _
  · exact refuseNamed_holds law hev _ _

/-- Making a task asks the builder for its source and its metrics by their methods. -/
theorem makeTask_holds (this : Value) (kind field : Text) : T.holds (makeTask ev this kind field) :=
  law.bind (read_holds law hev _ _) fun _ => law.bind (invoke_holds law hev _ _ _ _) fun _ =>
    law.bind (read_holds law hev _ _) fun _ => law.bind (law.record _ _) fun _ =>
      law.bind (invoke_holds law hev _ _ _ _) fun _ => make_holds law _ _

/-- Building a crossfold checks the number of folds before it makes the task. -/
theorem buildCrossfold_holds (this : Value) : T.holds (buildCrossfold ev this) := by
  unfold buildCrossfold
  refine law.bind (read_holds law hev _ _) fun folds => ?_
  split
  · exact makeTask_holds law hev _ _ _
  · exact refuseNamed_holds law hev _ _

/-- Whether a field is a fraction takes it for a number, once for each comparison. -/
theorem isFraction_holds (this : Value) : T.holds (isFraction ev this) := by
  unfold isFraction
  refine law.bind (read_holds law hev _ _) fun _ =>
    law.bind (magnitude_holds law hev _ _) fun x => ?_
  split
  · exact law.bind (read_holds law hev _ _) fun _ =>
      law.bind (magnitude_holds law hev _ _) fun _ => law.pure _
  · exact law.pure _

/-- Building a holdout checks the fraction before it makes the task. -/
theorem buildHoldout_holds (this : Value) : T.holds (buildHoldout ev this) := by
  unfold buildHoldout
  refine law.bind (isFraction_holds law hev _) fun valid => ?_
  split
  · exact makeTask_holds law hev _ _ _
  · exact refuseNamed_holds law hev _ _

/-- Describing how a task splits the ratings reads fields and puts them into text. -/
theorem describeSplit_holds (split : Value) : T.holds (describeSplit ev split) := by
  unfold describeSplit
  refine law.bind (read_holds law hev _ _) fun kind => ?_
  split
  · exact law.bind (read_holds law hev _ _) fun _ => law.bind (wordsOf_holds law hev _) fun _ =>
      law.pure _
  · exact law.bind (read_holds law hev _ _) fun _ =>
      law.bind (toNumber_holds law hev _ _) fun _ => law.pure _

/-- Describing metrics joins their labels. -/
theorem describeMetrics_holds (metrics : Value) : T.holds (describeMetrics ev metrics) := by
  unfold describeMetrics
  refine law.bind (read_holds law hev _ _) fun _ =>
    law.bind (magnitude_holds law hev _ _) fun count => ?_
  split
  · exact law.bind (law.alloc (Object.holdsName_function _ _ _ _)) fun _ =>
      law.bind (invoke_holds law hev _ _ _ _) fun _ => invoke_holds law hev _ _ _ _
  · exact law.pure _

/-- Describing a task describes its source, its split and its metrics. -/
theorem describeTask_holds (this : Value) : T.holds (describeTask ev this) :=
  law.bind (read_holds law hev _ _) fun _ => law.bind (describeSplit_holds law hev _) fun _ =>
    law.bind (read_holds law hev _ _) fun _ => law.bind (describeMetrics_holds law hev _) fun _ =>
      law.bind (read_holds law hev _ _) fun _ => law.bind (wordsOf_holds law hev _) fun _ =>
        law.bind (read_holds law hev _ _) fun _ => law.bind (invoke_holds law hev _ _ _ _) fun _ =>
          law.bind (wordsOf_holds law hev _) fun _ => law.bind (wordsOf_holds law hev _) fun _ =>
            law.pure _

/-- Building a metric checks the cutoff before it makes the metric. -/
theorem buildMetric_holds (this : Value) : T.holds (buildMetric ev this) := by
  unfold buildMetric
  refine law.bind (read_holds law hev _ _) fun cutoff => ?_
  dsimp only
  -- a metric is made where there is no cutoff, or a whole one
  have hmake : T.holds (do make .metric [("name", ← read ev this "name"), ("cutoff", cutoff)]) :=
    law.bind (read_holds law hev _ _) fun _ => make_holds law _ _
  split
  · exact hmake
  · split
    · exact hmake
    · exact refuseNamed_holds law hev _ _

/-- The label of a metric is put together from its name and its cutoff. -/
theorem metricLabel_holds (this : Value) : T.holds (metricLabel ev this) := by
  unfold metricLabel
  refine law.bind (read_holds law hev _ _) fun cutoff => ?_
  split
  · exact read_holds law hev _ _
  · exact law.bind (read_holds law hev _ _) fun _ => law.bind (wordsOf_holds law hev _) fun _ =>
      law.bind (wordsOf_holds law hev _) fun _ => law.pure _

/-- Whatever a class of the domain does has a trait that reading, converting and making objects
have. -/
theorem method_holds (m : DomainMethod) (this : Value) : T.holds (method ev m this) := by
  cases m with
  | describeFile => exact describeFile_holds law hev _
  | buildFile => exact buildFile_holds law hev _
  | describeTask => exact describeTask_holds law hev _
  | requireSource => exact requireSource_holds law hev _
  | requireMetrics => exact requireMetrics_holds law hev _
  | buildCrossfold => exact buildCrossfold_holds law hev _
  | buildHoldout => exact buildHoldout_holds law hev _
  | metricLabel => exact metricLabel_holds law hev _
  | buildMetric => exact buildMetric_holds law hev _

end Domain

end EvalPlan

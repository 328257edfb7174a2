import EvalPlan.Proofs.Law.Domain

/-!
# Scripts follow the rules

Every form of the language has the traits that its parts have, so that one layer of the evaluator
has a trait if the layer below it does. `Rules.evaluator` concludes by induction on the layers that
scripts follow the rules of their host however deeply they are nested.
-/

namespace EvalPlan

open Script (Scene Expr Stmt Answer Program)

/-! ## Realms -/

namespace Family

/-- What the objects of a family inherit from holds its name, for the properties that are computed
have other names. -/
theorem holdsName_template (f : Family) (realm : Realm) : (f.template realm).HoldsName := by
  intro row hrow hname
  simp only [template, List.mem_append, List.mem_cons] at hrow
  rcases hrow with (rfl | hrow) | hrow
  · rfl
  · obtain ⟨m, -, rfl⟩ := List.mem_map.mp hrow
    rfl
  · -- the properties that a template computes have other names
    have hproto : Text.ofString "__proto__" ≠ Text.ofString "name" := by decide
    have harguments : Text.ofString "arguments" ≠ Text.ofString "name" := by decide
    have hcaller : Text.ofString "caller" ≠ Text.ofString "name" := by decide
    have hdescription : Text.ofString "description" ≠ Text.ofString "name" := by decide
    cases f with
    | object =>
      obtain rfl := List.mem_singleton.mp hrow
      exact absurd hname hproto
    | function =>
      simp only [traits, List.mem_cons, List.not_mem_nil, or_false] at hrow
      rcases hrow with rfl | rfl | rfl | rfl
      · rfl
      · rfl
      · exact absurd hname harguments
      · exact absurd hname hcaller
    | symbol =>
      obtain rfl := List.mem_singleton.mp hrow
      exact absurd hname hdescription
    | error kind =>
      simp only [traits] at hrow
      split at hrow
      · cases hrow
      · simp only [List.mem_cons, List.not_mem_nil, or_false] at hrow
        rcases hrow with rfl | rfl <;> rfl
    | _ => cases hrow

/-- The maker of a family holds its name. -/
theorem holdsName_maker (f : Family) (realm : Realm) : (f.maker realm).HoldsName := by
  have h : (Object.constructor realm (.maker f realm) f.name 1
      (.ref (realm.template f))).HoldsName :=
    (Object.holdsName_function _ _ _ _).put "prototype" rfl
  -- what a maker inherits from does not matter for its properties
  unfold maker
  dsimp only
  split <;> exact h

end Family

/-- Every object of a realm holds its name, if it has one. -/
theorem Realm.holdsName_objects (realm : Realm) : ∀ o ∈ realm.objects, o.HoldsName := by
  intro o ho
  rcases List.mem_append.mp ho with h | h
  · obtain ⟨f, -, hf⟩ := List.mem_flatMap.mp h
    simp only [List.mem_cons, List.not_mem_nil, or_false] at hf
    rcases hf with rfl | rfl
    · exact f.holdsName_template realm
    · exact f.holdsName_maker realm
  · obtain ⟨f, -, rfl⟩ := List.mem_map.mp h
    exact Object.holdsName_function _ _ _ _

namespace Action

variable {T : Trait} {ev : Evaluator} {host : Host}

/-! ## Compiling and preparing a run -/

section preparing

variable (law : Stable T)

include law

/-- Refusing a program makes the error of the compiler and one that tells of it. -/
theorem refuseProgram_holds {α : Type} (name : Text) : T.holds (refuseProgram name : Action α) :=
  law.bind (law.alloc (Object.holdsName_errorObject _ _ _)) fun _ => law.refuse _

/-- Making a realm adds its objects one by one. -/
theorem newRealm_holds : T.holds newRealm :=
  law.bind law.heap fun _ =>
    law.bind (law.forM fun o ho => law.bind (law.alloc (Realm.holdsName_objects _ o ho)) fun _ =>
      law.pure _)
      fun _ => law.pure _

omit law in
/-- The list of the tasks of an environment has no name. -/
theorem holdsName_listObject (e : Environment) : e.listObject.HoldsName := nofun

omit law in
/-- The object of an environment has no name either. -/
theorem holdsName_object (e : Environment) (tasks : Value) : (e.object tasks).HoldsName :=
  Object.holdsName_holding .plain (some (Realm.main.template .object))
    [("tasks", tasks), ("result", e.result)]

/-- Showing an environment to scripts adds two objects. -/
theorem environmentValue_holds (e : Environment) : T.holds (environmentValue e) :=
  law.bind (law.alloc (holdsName_listObject e)) fun _ => law.alloc (holdsName_object e _)

/-- Making a verb adds a function. -/
theorem newVerb_holds (v : Verb) (id : RunId) (onTask : Value) : T.holds (newVerb v id onTask) :=
  law.alloc (Object.holdsName_function _ _ _ _)

variable (hev : ev.Meets T)

include hev

/-- Compiling logs that it succeeded, or refuses the program. -/
theorem compile_holds (logs : T.PermitsAll host.loggers) (name : Text) (program : Program) :
    T.holds (compile host ev name program) := by
  unfold compile
  split
  · split
    · exact law.bind (log_holds law hev logs.runner _ _ _) fun _ => law.pure _
    · exact refuseProgram_holds law _
  · exact refuseProgram_holds law _

/-- What a script gave to all objects is read like a property of any object. -/
theorem inheritedCallback_holds (name : Text) :
    T.holds (inheritedCallback ev name) :=
  property_holds law hev _ _ _

/-- What the `task` verb of a run is to call is looked up, or is none. -/
theorem taskCallback_holds : T.holds (taskCallback host ev) := by
  unfold taskCallback
  split
  · exact inheritedCallback_holds law hev _
  · exact law.pure _

/-- Making the global object of a run looks the engine's logger up and adds the verbs, and all its
names are held. -/
theorem globalObject_holds (realm : Realm) (id : RunId) :
    T.holds (globalObject host ev realm id) := by
  unfold globalObject
  refine law.bind (taskCallback_holds law hev) fun onTask =>
    law.bind (property_holds law hev _ _ _) fun logger =>
    law.bind (newVerb_holds law _ _ _) fun type =>
    law.bind (newVerb_holds law _ _ _) fun build => law.bind (newVerb_holds law _ _ _) fun task =>
      law.bind law.heap fun h => law.alloc (Object.holdsName_of_held fun row hrow => ?_)
  -- constants and makers are held
  have hglobal : ∀ row ∈ globalNames realm, row.2.value?.isSome = true := by
    intro row hrow
    rcases List.mem_append.mp hrow with h | h
    · simp only [List.mem_cons, List.not_mem_nil, or_false] at h
      rcases h with rfl | rfl | rfl <;> rfl
    · obtain ⟨f, -, rfl⟩ := List.mem_map.mp h
      rfl
  simp only [List.mem_append, List.mem_cons, List.not_mem_nil, or_false] at hrow
  rcases hrow with ((rfl | rfl | rfl | rfl | rfl) | hrow) | rfl
  · rfl
  · rfl
  · rfl
  · rfl
  · rfl
  · exact hglobal row hrow
  · rfl

/-- Carrying the statements of a script out has a trait that evaluating blocks and expressions
has. -/
theorem runBody_holds (script : CompiledScript) (id : RunId) :
    T.holds (runBody host ev script id) := by
  unfold runBody
  refine law.bind (newRealm_holds law) fun realm =>
    law.bind (globalObject_holds law hev _ _) fun global =>
    law.bind (openBlock_holds law _ _) fun scene => law.bind (hev.block _ _) fun _ => ?_
  split
  · exact hev.expr _ _
  · exact law.pure _

end preparing

/-! ## Verbs and operations -/

section verbs

variable (law : Rules host T) (hev : ev.Meets T)

include law hev

/-- Asking the engine for something calls a method of its object. -/
theorem askEngine_holds (o : Operation) (arguments : List Value) :
    T.holds (askEngine host ev o arguments) :=
  invoke_holds law.toStable hev _ _ _ _

/-- The builder of what is to be built is asked for by its name or for its class, or refused. -/
theorem builderFor_holds (target : Value) : T.holds (builderFor host ev target) := by
  unfold builderFor
  split
  · refine law.bind (askEngine_holds law hev _ _) fun builder => ?_
    split
    · exact law.pure _
    · exact law.refuse _
  · refine law.bind law.heap fun h => ?_
    split
    · refine law.bind (askEngine_holds law hev _ _) fun builder =>
        law.bind (nameOf_holds law.toStable hev _) fun _ =>
          law.bind (words_holds law.toStable hev _ _) fun name => ?_
      split
      · exact law.pure _
      · exact law.refuse _
    · exact law.refuse _

/-- Configuring a builder calls a function with it or assigns properties of it. -/
theorem configure_holds (builder configuration : Value) :
    T.holds (configure ev builder configuration) := by
  unfold configure
  refine law.bind law.heap fun h => ?_
  split
  · exact law.pure _
  · split
    · exact law.bind (hev.call _ _ _) fun _ => law.pure _
    · split
      · exact assignAll_holds law.toStable hev _ _
      · exact law.refuse _

/-- Building finds the builder, makes an instance, configures it and calls its method. -/
theorem buildVerb_holds (target configuration : Value) :
    T.holds (buildVerb host ev target configuration) :=
  law.bind (builderFor_holds law hev _) fun _ => law.bind (hev.construct _ _) fun _ =>
    law.bind (configure_holds law hev _ _) fun _ => invoke_holds law.toStable hev _ _ _ _

/-- Calling any verb of a run has a trait that following the rules of the host gives. -/
theorem callVerb_holds (v : Verb) (id : RunId) (onTask : Value) (arguments : List Value) :
    T.holds (callVerb host ev v id onTask arguments) := by
  cases v with
  | type => exact askEngine_holds law hev _ _
  | build => exact buildVerb_holds law hev _ _
  | task => exact law.taskVerb hev _ _ _

/-- Running a program logs that, compiles the program and executes the script. -/
theorem runProgram_holds (name : Text) (program : Program) :
    T.holds (runProgram host ev name program) :=
  law.bind (log_holds law.toStable hev law.loggers.engine _ _ _) fun _ =>
    law.bind (compile_holds law.toStable hev law.loggers _ _) fun script =>
      law.execute hev _ fun id => runBody_holds law.toStable hev script id

/-- What scripts emit belongs to no run. -/
theorem publishValue_holds (event : Value) : T.holds (publishValue host ev event) :=
  law.bind (property_holds law.toStable hev _ _ _) fun _ =>
    law.bind (property_holds law.toStable hev _ _ _) fun _ => law.bind law.heap fun _ =>
      law.publish hev _ _

/-- Each operation of the engine follows the rules of its host. -/
theorem operate_holds (o : Operation) (arguments : List Value) :
    T.holds (operate host ev o arguments) := by
  unfold operate
  dsimp only
  -- one case for each operation that scripts may ask the engine for
  cases o with
  | load => exact law.record _ _
  | run =>
    exact law.bind (words_holds law.toStable hev _ _) fun _ =>
      law.bind (words_holds law.toStable hev _ _) fun _ => hev.run _ _
  | getBuilder =>
    exact law.bind (findNamedBy_holds law.toStable hev law.loggers.catalog _) fun _ => law.pure _
  | getBuilderForType => exact law.bind (resolve_holds law.toStable _) fun _ => law.pure _
  | registerBuilder => exact law.bind (register_holds law hev _ _) fun _ => law.pure _
  | registerTask =>
    dsimp only
    split
    · exact law.bind (law.registerTask hev _) fun _ => law.pure _
    -- a workbench registers tasks without telling anybody
    next hrole => exact law.bind (law.registerSilently hrole _) fun _ => law.pure _
  | loadType => exact loadNamedType_holds law.toStable hev _ _
  | emit =>
    exact law.bind (property_holds law.toStable hev _ _ _) fun _ =>
      invoke_holds law.toStable hev _ _ _ _
  | publish => exact law.bind (publishValue_holds law hev _) fun _ => law.pure _
  | current => exact law.read (fun _ => rfl) fun _ => law.pure _

/-- An operation is carried out, or refused for its receiver. -/
theorem callOperation_holds (o : Operation) (this : Value) (arguments : List Value) :
    T.holds (callOperation host ev o this arguments) := by
  unfold callOperation
  refine law.bind law.heap fun h => ?_
  split
  · exact operate_holds law hev _ _
  · split
    · exact law.refuse _
    · exact law.typeError _

/-- Logging as a script asks deposits an entry where the engine's logger does. -/
theorem callLogging_holds (level : Level) (arguments : List Value) :
    T.holds (callLogging host ev level arguments) :=
  law.bind law.heap fun _ => law.bind (deposit_holds law.toStable hev law.loggers.engine _ _ _)
    fun _ => law.pure _

end verbs

/-! ## Methods -/

section methods

variable (law : Rules host T) (hev : ev.Meets T)

include law hev

/-- A fixed answer evaluates an expression, and returns or throws its value. -/
theorem giveAnswer_holds (scene : Scene) (a : Answer) : T.holds (giveAnswer ev scene a) := by
  cases a with
  | returns e => exact hev.expr _ _
  | throws e => exact law.bind (hev.expr _ _) law.throw
  | value e => exact law.typeError _

/-- A piece of what an instance says is fixed, or a field that is put into text. -/
theorem pieceText_holds (this : Value) (part : Part) : T.holds (pieceText ev this part) := by
  cases part with
  | words t => exact law.pure _
  | field name =>
    exact law.bind (property_holds law.toStable hev _ _ _) fun _ =>
      addedWords_holds law.toStable hev _ _

/-- Copying fields reads and assigns them one by one. -/
theorem copyFields_holds (source target : Value) (names : List Text) :
    T.holds (copyFields ev source target names) := by
  induction names with
  | nil => exact law.pure _
  | cons name rest ih =>
    exact law.bind (property_holds law.toStable hev _ _ _) fun _ =>
      law.bind (assign_holds law.toStable hev _ _ _ _ _) fun _ => ih

/-- Calling a method of instances of script classes has a trait that its parts have. -/
theorem callMethod_holds (m : Method) (this : Value) : T.holds (callMethod host ev m this) := by
  cases m with
  | answer scene a => exact giveAnswer_holds law hev _ _
  | produces cls copied declares =>
    refine law.bind (hev.construct _ _) fun product =>
      law.bind (copyFields_holds law hev _ _ _) fun _ => ?_
    split
    · exact law.bind (askEngine_holds law hev _ _) fun _ => law.pure _
    · exact law.pure _
  | parts pieces =>
    exact law.bind (law.mapM fun _ => pieceText_holds law hev _ _) fun _ => law.pure _
  | domain m => exact Domain.method_holds law.toStable hev _ _

end methods

end Action

/-! ## Expressions -/

namespace Evaluator

open EvalPlan.Action

variable {T : Trait} {ev : Evaluator} {host : Host}

section expressions

variable (law : Stable T)

include law

/-- Making a function of a script adds an object. -/
theorem newClosure_holds (scene : Scene) (name param : Text) (body : List Stmt)
    (result : Option Expr) :
    T.holds (newClosure scene name param body result) :=
  law.alloc (Object.holdsName_function _ _ _ _)

/-- Making an object that holds itself adds an object. -/
theorem newCycle_holds (realm : Realm) : T.holds (newCycle realm) :=
  law.bind law.heap fun _ => law.record _ _

/-- Making a class of a script adds its method and the class. -/
theorem newScriptClass_holds (scene : Scene) (name : Text) (product : Option Expr) :
    T.holds (newScriptClass scene name product) := by
  refine law.bind ?_ fun _ => newClass_holds law _ _
  unfold buildMethods
  split
  · exact law.pure _
  · exact law.bind (newMethod_holds law _ _ _) fun _ => law.pure _

variable (hev : ev.Meets T)

include hev

/-- Evaluating expressions in order has a trait that evaluating each of them has. -/
theorem exprs_holds (scene : Scene) (es : List Expr) : T.holds (exprs ev scene es) := by
  induction es with
  | nil => exact law.pure _
  | cons e rest ih => exact law.bind (hev.expr _ _) fun _ => law.bind ih fun _ => law.pure _

/-- A function that is stored under a name is made with this name; any other expression is
evaluated. -/
theorem namedExpr_holds (scene : Scene) (name : Text) (e : Expr) :
    T.holds (namedExpr ev scene name e) := by
  unfold namedExpr
  split
  · exact newClosure_holds law _ _ _ _ _
  · exact hev.expr _ _

/-- Evaluating the properties of a new object has a trait that evaluating expressions has. -/
theorem members_holds (scene : Scene) (ms : List (Text × Expr)) :
    T.holds (members ev scene ms) := by
  induction ms with
  | nil => exact law.pure _
  | cons m rest ih =>
    exact law.bind (namedExpr_holds law hev _ _ _) fun _ => law.bind ih fun _ => law.pure _

/-- Putting texts together evaluates each expression and converts its value at once. -/
theorem concat_holds (scene : Scene) (es : List Expr) : T.holds (concat ev scene es) := by
  induction es with
  | nil => exact law.pure _
  | cons e rest ih =>
    exact law.bind (hev.expr _ _) fun _ => law.bind (addedWords_holds law hev _ _) fun _ =>
      law.bind ih fun _ => law.pure _

/-- Making an error object converts the message that is given, if any. -/
theorem newFault_holds (realm : Realm) (kind : ErrorKind) (message : Value) :
    T.holds (newFault ev realm kind message) :=
  law.bind (givenWords_holds law hev _ _) fun _ => law.alloc (Object.holdsName_errorObject _ _ _)

/-- Making an answering method adds an object, and a value in its place is evaluated. -/
theorem answering_holds (scene : Scene) (name : Text) (a : Answer) :
    T.holds (answering ev scene name a) := by
  unfold answering
  split
  · exact namedExpr_holds law hev _ _ _
  · exact newMethod_holds law _ _ _

/-- Joining the names of a list calls the methods `map` and `join` that it has. -/
theorem joinedNames_holds (realm : Realm) (list : Value) : T.holds (joinedNames ev realm list) :=
  law.bind (property_holds law hev _ _ _) fun _ =>
    law.bind (law.alloc (Object.holdsName_function _ _ _ _))
    fun _ => law.bind (callProperty_holds law hev _ _ _ _) fun _ => invoke_holds law hev _ _ _ _

/-- Calling what a variable holds reads the variable before the arguments are evaluated. -/
theorem callVariable_holds (scene : Scene) (name : Text) (arguments : List Expr) :
    T.holds (callVariable ev scene name arguments) :=
  law.bind (readVariable_holds law _ _) fun _ => law.bind (exprs_holds law hev _ _) fun _ =>
    callProperty_holds law hev _ _ _ _

/-- Calling a method on a variable reads the variable and the method before the arguments are
evaluated. -/
theorem callMember_holds (scene : Scene) (owner name : Text) (arguments : List Expr) :
    T.holds (callMember ev scene owner name arguments) :=
  law.bind (readVariable_holds law _ _) fun _ => law.bind (property_holds law hev _ _ _) fun _ =>
    law.bind (exprs_holds law hev _ _) fun _ => callProperty_holds law hev _ _ _ _

/-- Running a program within a script is the engine's own running, or calls what stands in its
place. -/
theorem runNested_holds (host : Host) (scene : Scene) (name : Text) (program : Program) :
    T.holds (runNested host ev scene name program) := by
  unfold runNested
  refine law.bind (readVariable_holds law _ _) fun engine =>
    law.bind (property_holds law hev _ _ _) fun callee => law.bind law.heap fun h => ?_
  -- the operation runs the program itself; anything else that stands in its place is called
  split
  · split
    · exact hev.run _ _
    · exact callProperty_holds law hev _ _ _ _
  · exact callProperty_holds law hev _ _ _ _

/-- Every form of expression has a trait that its parts have. -/
theorem evalExpr_holds (host : Host) (scene : Scene) (e : Expr) :
    T.holds (evalExpr host ev scene e) := by
  -- one case for each form of expressions
  cases e with
  | const v => exact law.pure _
  | symbol description =>
    exact law.bind (law.alloc (Object.holdsName_empty _ _)) fun _ => law.pure _
  | list items => exact law.bind (exprs_holds law hev _ _) fun _ => law.newList _ _
  | record ms => exact law.bind (members_holds law hev _ _) fun _ => law.record _ _
  | bareRecord ms =>
    exact law.bind (members_holds law hev _ _) fun _ => law.alloc (Object.holdsName_holding _ _ _)
  | cycle => exact newCycle_holds law _
  | fault kind message => exact law.bind (hev.expr _ _) fun _ => newFault_holds law hev _ _ _
  | construct cls => exact law.bind (hev.expr _ _) fun _ => hev.construct _ _
  | jsonAs a => exact law.bind (answering_holds law hev _ _ _) fun _ => law.record _ _
  | described name a =>
    exact law.bind (namedExpr_holds law hev _ _ _) fun _ =>
      law.bind (answering_holds law hev _ _ _) fun _ => law.record _ _
  | «variable» name => exact readVariable_holds law _ _
  | property o name => exact law.bind (hev.expr _ _) fun _ => property_holds law hev _ _ _
  | concat items => exact law.bind (concat_holds law hev _ _) fun _ => law.pure _
  | names list => exact law.bind (hev.expr _ _) fun _ => joinedNames_holds law hev _ _
  | type name => exact callVariable_holds law hev _ _ _
  | build target configuration => exact callVariable_holds law hev _ _ _
  | task task => exact callVariable_holds law hev _ _ _
  | engine operation arguments => exact callMember_holds law hev _ _ _ _
  | run name program => exact runNested_holds law hev _ _ _ _
  | function param body result => exact newClosure_holds law _ _ _ _ _
  | cls name product => exact newScriptClass_holds law _ _ _

end expressions

/-! ## Statements -/

section statements

variable (law : Stable T)

include law

variable (hev : ev.Meets T)

include hev

/-- A block within another one opens a frame and runs in it. -/
theorem innerBlock_holds (scene : Scene) (body : List Stmt) : T.holds (innerBlock ev scene body) :=
  law.bind (openBlock_holds law _ _) fun _ => hev.block _ _

/-- A loop runs its block as often as it says, by induction on how often that is. -/
theorem repeatBlock_holds (scene : Scene) (body : List Stmt) (n : Nat) :
    T.holds (repeatBlock ev scene body n) := by
  induction n with
  | zero => exact law.pure _
  | succ n ih => exact law.bind (innerBlock_holds law hev _ _) fun _ => ih

/-- Every form of statement has a trait that its parts have. -/
theorem evalStmt_holds (scene : Scene) (s : Stmt) : T.holds (evalStmt ev scene s) := by
  -- one case for each form of statements
  cases s with
  | bind name e =>
    exact law.bind (namedExpr_holds law hev _ _ _) fun _ => law.bindVariable _ _ _
  | assign o name e =>
    exact law.bind (hev.expr _ _) fun _ => law.bind (hev.expr _ _) fun _ =>
      assign_holds law hev _ _ _ _ _
  | perform e => exact law.bind (hev.expr _ _) fun _ => law.pure _
  | raise e => exact law.bind (hev.expr _ _) law.throw
  | attempt body name handler =>
    -- the handler runs with the thrown value bound
    exact law.tryCatch (innerBlock_holds law hev _ _) fun _ =>
      law.bind (law.openFrame _ _) fun _ => innerBlock_holds law hev _ _
  | loop count body => exact repeatBlock_holds law hev _ _ _
  | log level message data => exact law.bind (callMember_holds law hev _ _ _ _) fun _ => law.pure _
  | later body => exact law.postpone _ _

/-- The statements of a block run one after another. -/
theorem evalBlock_holds (scene : Scene) (body : List Stmt) : T.holds (evalBlock ev scene body) := by
  induction body with
  | nil => exact law.pure _
  | cons s rest ih => exact law.bind (evalStmt_holds law hev _ _) fun _ => ih

end statements

/-! ## Callables -/

section callables

variable (law : Stable T) (hev : ev.Meets T)

include law hev

/-- Calling a function of a script runs its body in a frame of its own. -/
theorem callClosure_holds (scene : Scene) (param : Text) (body : List Stmt) (result : Option Expr)
    (arguments : List Value) : T.holds (callClosure ev scene param body result arguments) := by
  refine law.bind (law.openFrame _ _) fun _ => law.bind (openBlock_holds law _ _) fun _ =>
    law.bind (hev.block _ _) fun _ => ?_
  split
  · exact hev.expr _ _
  · exact law.pure _

/-- Setting the fields of an instance evaluates and assigns each of them. -/
theorem setFields_holds (o : Value) (fields : List (Text × Expr)) :
    T.holds (setFields ev o fields) := by
  induction fields with
  | nil => exact law.pure _
  | cons field rest ih =>
    exact law.bind (hev.expr _ _) fun _ => law.bind (assign_holds law hev _ _ _ _ _) fun _ => ih

/-- Calling a class like a function throws; a function that makes instances sets fields of its
receiver. -/
theorem callBlueprint_holds (b : Blueprint) (this : Value) : T.holds (callBlueprint ev b this) := by
  unfold callBlueprint
  split
  · exact law.crashIn _ _ _
  · exact law.pure _
  · exact law.bind (setFields_holds law hev _ _) fun _ => law.pure _

/-- Making an instance adds an object and sets its fields, or throws. -/
theorem evalConstruct_holds (realm : Realm) (cls : Value) :
    T.holds (evalConstruct ev realm cls) := by
  unfold evalConstruct
  refine law.bind law.heap fun h => ?_
  split
  · split
    · exact law.bind (law.alloc (Object.holdsName_empty _ _)) fun _ =>
        law.bind (setFields_holds law hev _ _) fun _ => law.pure _
    · exact law.crashIn _ _ _
  · exact hev.construct _ _
  · split
    · exact make_holds law _ _
    · exact law.crashIn _ _ _
  · exact law.crashIn _ _ _

end callables

/-- Calling any value has a trait that all the ways of being called have. -/
theorem evalCall_holds (law : Rules host T) (hev : ev.Meets T) (callee this : Value)
    (arguments : List Value) :
    T.holds (evalCall host ev callee this arguments) := by
  have steady := law.toStable
  unfold evalCall
  refine law.bind law.heap fun h => ?_
  -- one case for each kind of callables
  split
  · exact law.typeError _
  · exact callClosure_holds steady hev _ _ _ _ _
  · exact callMethod_holds law hev _ _
  · exact callVerb_holds law hev _ _ _ _
  · exact callOperation_holds law hev _ _ _
  · exact callLogging_holds law hev _ _
  · exact callStandard_holds steady hev _ _ _ _
  · exact convert_holds steady hev _ _ _
  · exact hev.call _ _ _
  · exact property_holds steady hev _ _ _
  · exact law.bind (isPlainSegmentValue_holds steady hev _) fun _ => law.pure _
  · exact law.read (fun _ => rfl) fun _ => law.pure _
  · exact callBlueprint_holds steady hev _ _

/-! ## JSON text -/

section json

variable (law : Stable T) (hev : ev.Meets T)

include law hev

/-- The texts of the items of a list read and convert one item after another. -/
theorem jsonItems_holds (path : List Ref) (list : Value) (n i : Nat) :
    T.holds (jsonItems ev path list n i) := by
  induction n generalizing i with
  | zero => exact law.pure _
  | succ n ih =>
    exact law.bind (property_holds law hev _ _ _) fun _ => law.bind (hev.json _ _ _) fun _ =>
      law.bind (ih _) fun _ => law.pure _

/-- The texts of the properties of an object read and convert one property after another. -/
theorem jsonMembers_holds (path : List Ref) (o : Value) (names : List Text) :
    T.holds (jsonMembers ev path o names) := by
  induction names with
  | nil => exact law.pure _
  | cons name rest ih =>
    refine law.bind (property_holds law hev _ _ _) fun _ => law.bind (hev.json _ _ _) fun t =>
      law.bind ih fun _ => ?_
    split <;> exact law.pure _

/-- The form in which an object wants to be written is asked of its own method. -/
theorem ownForm_holds (key : Text) (v : Value) : T.holds (ownForm ev key v) := by
  refine law.bind (property_holds law hev _ _ _) fun form => law.bind law.heap fun h => ?_
  split
  · exact hev.call _ _ _
  · exact law.pure _

/-- Only objects and integers without bound are asked for such a form. -/
theorem jsonForm_holds (key : Text) (v : Value) : T.holds (jsonForm ev key v) := by
  unfold jsonForm
  split
  · exact ownForm_holds law hev _ _
  · exact ownForm_holds law hev _ _
  · exact law.pure _

/-- The text of an object is put together from those of what it holds, or a cycle is refused. -/
theorem jsonObject_holds (path : List Ref) (r : Ref) : T.holds (jsonObject ev path r) := by
  unfold jsonObject
  refine law.bind law.heap fun h => ?_
  dsimp only
  split
  · exact law.pure _
  · -- a list or an object that contains itself has no JSON text
    split
    · exact law.typeError _
    · exact law.bind (jsonItems_holds law hev _ _ _ _) fun _ => law.pure _
  · split
    · exact law.typeError _
    · exact law.bind (jsonMembers_holds law hev _ _ _) fun _ => law.pure _

/-- The text of any value asks for its form and writes that. -/
theorem evalJson_holds (path : List Ref) (key : Text) (v : Value) :
    T.holds (evalJson ev path key v) := by
  unfold evalJson
  refine law.bind (jsonForm_holds law hev _ _) fun form => ?_
  split
  · exact law.pure _
  · exact law.pure _
  · exact law.pure _
  · exact law.pure _
  · exact law.pure _
  · exact law.pure _
  · exact law.typeError _
  · exact law.pure _
  · exact jsonObject_holds law hev _ _

end json

/-! ## Layers -/

/-- An evaluator that carries nothing out only throws. -/
theorem exhausted_holds (law : Stable T) : exhausted.Meets T where
  expr _ _ := law.crash _ _
  block _ _ := law.crash _ _
  call _ _ _ := law.crash _ _
  construct _ _ := law.crash _ _
  json _ _ _ := law.crash _ _
  run _ _ := law.crash _ _

/-- A layer of the evaluator has a trait that the layer below it has. -/
theorem layer_holds (law : Rules host T) (hev : ev.Meets T) : (layer host ev).Meets T where
  expr := evalExpr_holds law.toStable hev host
  block := evalBlock_holds law.toStable hev
  call := evalCall_holds law hev
  construct := evalConstruct_holds law.toStable hev
  json := evalJson_holds law.toStable hev
  run name program :=
    law.bind (runProgram_holds law hev name program) fun e => environmentValue_holds law.toStable e

end Evaluator

/-- Scripts follow the rules of their host, however deeply they are nested. -/
theorem Action.Rules.evaluator {T : Action.Trait} {host : Host} (law : Rules host T) (n : Nat) :
    (evaluator host n).Meets T := by
  -- the induction is on the layers: a layer calls only the one below it
  induction n with
  | zero => exact Evaluator.exhausted_holds law.toStable
  | succ n ih => exact Evaluator.layer_holds law ih

end EvalPlan

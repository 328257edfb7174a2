import EvalPlan.Script.Standard
import EvalPlan.Script.Verbs

/-!
# Evaluating scripts

`layer` says how each form of the language is carried out, given how its parts are. `evaluator n`
stacks `n` layers; what is nested more deeply than that fails the way an exhausted stack does.

Whatever a form asks of an object goes through the properties of the object, so that a script may
put something of its own in their place.
-/

namespace EvalPlan

open Script (Scene Expr Stmt Program Answer)
open EvalPlan.Action

namespace Evaluator

/-- Fails because the nesting is too deep. -/
def tooDeep {α : Type} : Action α := crash .range "the nesting is too deep"

/-- An evaluator that carries nothing out: everything is nested too deeply. -/
def exhausted : Evaluator :=
  { expr := fun _ _ => tooDeep
    block := fun _ _ => tooDeep
    call := fun _ _ _ => tooDeep
    construct := fun _ _ => tooDeep
    json := fun _ _ _ => tooDeep
    run := fun _ _ => tooDeep }

/-! ### Expressions -/

/-- Evaluates expressions in order. -/
def exprs (ev : Evaluator) (scene : Scene) : List Expr → Action (List Value)
  | [] => return []
  | e :: rest => do
    let v ← ev.expr scene e
    let vs ← exprs ev scene rest
    return v :: vs

/-- A new function of a script. -/
def newClosure (scene : Scene) (name param : Text) (body : List Stmt) (result : Option Expr) :
    Action Value :=
  alloc (Object.function scene.realm (.closure scene param body result) name 1)

/-- Evaluates an expression whose value is stored under a name. A function that is written there
takes the name. -/
def namedExpr (ev : Evaluator) (scene : Scene) (name : Text) (e : Expr) : Action Value :=
  match e with
  | .function param body result => newClosure scene name param body result
  | e => ev.expr scene e

/-- Evaluates the properties of a new object in order. -/
def members (ev : Evaluator) (scene : Scene) : List (Text × Expr) → Action (List (Text × Value))
  | [] => return []
  | (name, e) :: rest => do
    let v ← namedExpr ev scene name e
    let vs ← members ev scene rest
    return (name, v) :: vs

/-- Puts the texts of values together, each converted as soon as it is evaluated. -/
def concat (ev : Evaluator) (scene : Scene) : List Expr → Action Text
  | [] => return []
  | e :: rest => do
    let v ← ev.expr scene e
    let t ← addedWords ev scene.realm v
    let ts ← concat ev scene rest
    return t ++ ts

/-- A new object that holds itself. -/
def newCycle (realm : Realm) : Action Value := do
  -- the next object is the one that is about to be made
  let o : Value := .ref (← heap).size
  record realm [("self", o)]

/-- A new error object of a kind with the message that a value gives. Errors of the engine belong to
the main realm wherever they are made. -/
def newFault (ev : Evaluator) (realm : Realm) (kind : ErrorKind) (message : Value) :
    Action Value := do
  alloc (errorObject kind (if kind.isEngine then .main else realm) (← givenWords ev realm message))

/-- The method of a name with a fixed answer, or the value that stands in its place. -/
def answering (ev : Evaluator) (scene : Scene) (name : Text) (a : Answer) : Action Value :=
  match a with
  | .value e => namedExpr ev scene name e
  | a => newMethod scene.realm name (.answer scene a)

/-- The names of the objects of a list, joined by commas. -/
def joinedNames (ev : Evaluator) (realm : Realm) (list : Value) : Action Value := do
  let map ← property ev realm list "map"
  let nameOf ← alloc (Object.function realm (.reader "name" realm) [] 1)
  let names ← callProperty ev realm map list [nameOf]
  invoke ev realm names "join" [","]

/-- Calls what a variable holds. -/
def callVariable (ev : Evaluator) (scene : Scene) (name : Text) (arguments : List Expr) :
    Action Value := do
  let callee ← readVariable scene name
  callProperty ev scene.realm callee .undefined (← exprs ev scene arguments)

/-- Calls the method of a name on the value of a variable. -/
def callMember (ev : Evaluator) (scene : Scene) (owner name : Text) (arguments : List Expr) :
    Action Value := do
  let owner ← readVariable scene owner
  let callee ← property ev scene.realm owner name
  callProperty ev scene.realm callee owner (← exprs ev scene arguments)

/-- Runs a program by the engine that a script knows. -/
def runNested (host : Host) (ev : Evaluator) (scene : Scene) (name : Text) (program : Program) :
    Action Value := do
  let engine ← readVariable scene "engine"
  let callee ← property ev scene.realm engine Operation.run.name
  -- only the engine's own operation runs the program itself
  let h ← heap
  match h.callable? callee with
  | some (.operation .run) =>
    if host.role == .engine && reachesEngine h engine then ev.run name program
    else callProperty ev scene.realm callee engine [.text name]
  | _ => callProperty ev scene.realm callee engine [.text name]

/-- What the instances of a class of a script share: a method that builds the value of an
expression, if there is one. -/
def buildMethods (scene : Scene) (product : Option Expr) : Action (List (Text × Value)) := do
  match product with
  | none => return []
  | some e => do
    let m ← newMethod scene.realm "build" (.answer { scene with insisting := true } (.returns e))
    return [(Text.ofString "build", m)]

/-- A new class whose instances build the value of an expression, if there is one. -/
def newScriptClass (scene : Scene) (name : Text) (product : Option Expr) : Action Value := do
  let shared ← buildMethods scene product
  newClass scene.realm
    { key := none, name, making := fun _ => .classDefinition, base := none, fields := [], shared
      source := "class " ++ name }

/-- Evaluates an expression. -/
def evalExpr (host : Host) (ev : Evaluator) (scene : Scene) (e : Expr) : Action Value := do
  match e with
  | .const v => return v
  | .symbol description => do
    let mark ← alloc (Object.empty .plain none)
    return .symbol description (mark.ref?.getD 0)
  | .list items => newList scene.realm (← exprs ev scene items)
  | .record ms => record scene.realm (← members ev scene ms)
  | .bareRecord ms => alloc (Object.holding .plain none (← members ev scene ms))
  | .cycle => newCycle scene.realm
  | .fault kind message => newFault ev scene.realm kind (← ev.expr scene message)
  | .construct cls => ev.construct scene.realm (← ev.expr scene cls)
  | .jsonAs a => record scene.realm [("toJSON", ← answering ev scene "toJSON" a)]
  | .described name a => do
    let v ← namedExpr ev scene "name" name
    record scene.realm [("name", v), ("describe", ← answering ev scene "describe" a)]
  | .variable name => readVariable scene name
  | .property o name => property ev scene.realm (← ev.expr scene o) name
  | .concat items => return .text (← concat ev scene items)
  | .names list => joinedNames ev scene.realm (← ev.expr scene list)
  | .type name => callVariable ev scene Verb.type.name [name]
  | .build target configuration =>
    callVariable ev scene Verb.build.name (target :: configuration.toList)
  | .task task => callVariable ev scene Verb.task.name [task]
  | .engine operation arguments => callMember ev scene "engine" operation arguments
  | .run name program => runNested host ev scene name program
  | .function param body result => newClosure scene [] param body result
  | .cls name product => newScriptClass scene name product

/-! ### Statements -/

/-- Runs a block in a frame of its own. -/
def innerBlock (ev : Evaluator) (scene : Scene) (body : List Stmt) : Action Unit := do
  let inner ← openBlock scene body
  ev.block inner body

/-- Runs a block a number of times. -/
def repeatBlock (ev : Evaluator) (scene : Scene) (body : List Stmt) : Nat → Action Unit
  | 0 => return
  | n + 1 => do
    innerBlock ev scene body
    repeatBlock ev scene body n

/-- Leaves a block for later, with the run bound that is bound now. -/
def postpone (scene : Scene) (body : List Stmt) : Action Unit :=
  modify fun w => { w with queue := w.queue ++ [⟨scene, body, w.binding⟩] }

/-- Runs a statement. -/
def evalStmt (ev : Evaluator) (scene : Scene) (s : Stmt) : Action Unit := do
  match s with
  | .bind name e => bindVariable scene name (← namedExpr ev scene name e)
  | .assign o name e => do
    -- the object is evaluated before the value
    let target ← ev.expr scene o
    assign ev scene.realm scene.insisting target name (← ev.expr scene e)
  | .perform e => do
    let _ ← ev.expr scene e
  | .raise e => throw (← ev.expr scene e)
  | .attempt body name handler =>
    -- what the block queued or declared stays, though it threw
    tryCatch (innerBlock ev scene body) fun thrown => do
      let caught ← openFrame scene [(name, some thrown)]
      innerBlock ev caught handler
  | .loop count body => repeatBlock ev scene body count
  | .log level message data => do
    let _ ← callMember ev scene "logger" level (message :: data.toList)
  | .later body => postpone scene body

/-- Runs the statements of a block. -/
def evalBlock (ev : Evaluator) (scene : Scene) : List Stmt → Action Unit
  | [] => return
  | s :: rest => do
    evalStmt ev scene s
    evalBlock ev scene rest

/-! ### Callables -/

/-- Calls a function that a script wrote. -/
def callClosure (ev : Evaluator) (scene : Scene) (param : Text) (body : List Stmt)
    (result : Option Expr) (arguments : List Value) : Action Value := do
  let inner ← openFrame scene [(param, some (argument arguments 0))]
  -- the body is a block of its own within the frame of the parameter
  let inner ← openBlock inner body
  ev.block inner body
  match result with
  | some e => ev.expr inner e
  | none => return .undefined

/-- Sets the fields of a new instance. -/
def setFields (ev : Evaluator) (o : Value) : List (Text × Expr) → Action Unit
  | [] => return
  | (name, e) :: rest => do
    assign ev .main true o name (← ev.expr .outside e)
    setFields ev o rest

/-- Calls a described callable like a function. A class is none; a function that can be instantiated
sets the fields of its instances on the receiver. -/
def callBlueprint (ev : Evaluator) (b : Blueprint) (this : Value) : Action Value := do
  match b.making with
  | .classDefinition => crashIn b.realm .type "a class is called like a function"
  | .plain => return .undefined
  | _ => do
    setFields ev this b.fields
    return .undefined

/-- Calls a callable. -/
def evalCall (host : Host) (ev : Evaluator) (callee this : Value) (arguments : List Value) :
    Action Value := do
  match (← heap).callable? callee with
  | none => typeError "the value is not a function"
  | some (.closure scene param body result) => callClosure ev scene param body result arguments
  | some (.method m) => callMethod host ev m this
  | some (.verb v id onTask) => callVerb host ev v id onTask arguments
  | some (.operation o) => callOperation host ev o this arguments
  | some (.logging level) => callLogging host ev level arguments
  | some (.standard f realm) => callStandard ev realm f this arguments
  | some (.maker f realm) => convert ev realm f arguments
  -- the receiver of the call does not count
  | some (.bound target this given) => ev.call target this (given ++ arguments)
  | some (.reader name realm) => property ev realm (argument arguments 0) name
  | some .segmentTest => return .bool (← isPlainSegmentValue ev (argument arguments 0))
  | some (.scopeState id) => return .bool ((← get).scopes.isOpen id)
  | some (.blueprint b) => callBlueprint ev b this

/-- What a new instance of a described callable inherits from. -/
def instanceParent (h : Heap) (b : Blueprint) (cls : Value) : Ref :=
  match b.making, h.value? cls "prototype" with
  -- the template is known even if the property was changed
  | .bound template, _ => template
  | _, some (.ref r) => r
  | _, _ => b.realm.template .object

/-- Makes a new instance of a class for the code of a realm. -/
def evalConstruct (ev : Evaluator) (realm : Realm) (cls : Value) : Action Value := do
  let h ← heap
  match h.callable? cls with
  | some (.blueprint b) =>
    if b.making.isConstructor then
      let o ← alloc (Object.empty .plain (some (instanceParent h b cls)))
      setFields ev o b.fields
      return o
    else crashIn realm .type "the value makes no instances"
  | some (.bound target _ _) => ev.construct realm target
  | some (.maker f home) =>
    if (Callable.maker f home).isConstructor then make home f
    else crashIn realm .type "the value makes no instances"
  | _ => crashIn realm .type "the value makes no instances"

/-! ### JSON text -/

/-- The JSON texts of the items of a list from an index on; what has none is null. -/
def jsonItems (ev : Evaluator) (path : List Ref) (list : Value) : Nat → Nat → Action (List Text)
  | 0, _ => return []
  | n + 1, i => do
    let name := Text.ofNat i
    let t ← ev.json path name (← property ev .main list name)
    let ts ← jsonItems ev path list n (i + 1)
    -- what has no text stands as null, so that the others keep their places
    return t.getD "null" :: ts

/-- The JSON texts of properties; what has none is left out. -/
def jsonMembers (ev : Evaluator) (path : List Ref) (o : Value) : List Text → Action (List Text)
  | [] => return []
  | name :: rest => do
    let t ← ev.json path name (← property ev .main o name)
    let ts ← jsonMembers ev path o rest
    match t with
    | some t => return (Json.quoted name ++ [Text.colon] ++ t) :: ts
    | none => return ts

/-- What a value is written as: what its own method says, if it has one. -/
def ownForm (ev : Evaluator) (key : Text) (v : Value) : Action Value := do
  let form ← property ev .main v "toJSON"
  if (← heap).isCallable form then ev.call form v [.text key] else return v

/-- The value that a value is written as. Only objects and integers without bound are asked. -/
def jsonForm (ev : Evaluator) (key : Text) (v : Value) : Action Value :=
  match v with
  | .ref _ => ownForm ev key v
  | .bigint _ => ownForm ev key v
  | v => return v

/-- The JSON text of an object. -/
def jsonObject (ev : Evaluator) (path : List Ref) (r : Ref) : Action (Option Text) := do
  let h ← heap
  let o : Value := .ref r
  match h.shape? o with
  | some (.callable _) => return none
  | some (.list _ _) =>
    if path.contains r then typeError "a cyclic list has no JSON form"
    else
      let length := ((h.list? o).getD []).length
      return some ("[" ++ Text.join "," (← jsonItems ev (r :: path) o length 0) ++ "]")
  | _ =>
    if path.contains r then typeError "a cyclic object has no JSON form"
    else
      let ts ← jsonMembers ev (r :: path) o ((h.members o).map (·.1))
      return some (Text.openBrace ++ Text.join "," ts ++ Text.closeBrace)

/-- The JSON text of a value, if it has one. -/
def evalJson (ev : Evaluator) (path : List Ref) (key : Text) (v : Value) :
    Action (Option Text) := do
  match ← jsonForm ev key v with
  | .undefined => return none
  | .null => return some "null"
  | .bool true => return some "true"
  | .bool false => return some "false"
  | .number x => return some (Json.numberText x)
  | .text t => return some (Json.quoted t)
  | .bigint _ => typeError "an integer without bound has no JSON form"
  -- what has no text is left out by the object that holds it
  | .symbol _ _ => return none
  | .ref r => jsonObject ev path r

/-! ### Layers -/

/-- Carries the forms of the language out, given how their parts are carried out. -/
def layer (host : Host) (ev : Evaluator) : Evaluator :=
  { expr := evalExpr host ev
    block := evalBlock ev
    call := evalCall host ev
    construct := evalConstruct ev
    json := evalJson ev
    run := fun name program => do environmentValue (← runProgram host ev name program) }

end Evaluator

/-- The evaluator for what is nested less than `n` levels deep. -/
def evaluator (host : Host) : Nat → Evaluator
  | 0 => Evaluator.exhausted
  | n + 1 => Evaluator.layer host (evaluator host n)

/-- How deep scripts may be nested. -/
def nestingBound : Nat := 5000

namespace Host

/-- The evaluator of a host. -/
def evaluator (host : Host) : Evaluator := EvalPlan.evaluator host nestingBound

end Host

end EvalPlan

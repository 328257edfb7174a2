import EvalPlan.Script.Eval
import EvalPlan.Proofs.Shift.Verbs

/-!
# Every script follows in moved worlds

Each form of the language follows if its parts do, and so do, by induction on the nesting, all
scripts (`evaluator_follows`).
-/

namespace EvalPlan

open Script (Scene Expr Stmt Program Answer)
open EvalPlan.Action EvalPlan.Action.Follows Shift

namespace Evaluator

variable {role : Role} {σ : Shift} {α β : Type} {ev : Evaluator} (hev : ev.Follows role σ)

/-! ## Expressions -/

section scene

variable (scene : Scene) [hfits : σ.Fits scene.realm]

/-- Making a function of a script follows; it keeps the moved scene. -/
theorem newClosure_follows (name param : Text) (body : List Stmt) (result : Option Expr) :
    Action.Follows role σ σ.value (newClosure scene name param body result)
      (newClosure (σ.scene scene) name param (σ.stmts body) (σ.option result)) :=
  newFunction_follows scene.realm (c := .closure scene param body result) hfits name 1

include hev

/-- Evaluating expressions from left to right follows. -/
theorem exprs_follows (es : List Expr) :
    Action.Follows role σ (List.map σ.value) (exprs ev scene es)
      (exprs ev (σ.scene scene) (σ.exprs es)) := by
  induction es with
  | nil => exact .pure (List.map σ.value) []
  | cons e rest ih =>
    exact .bind (hev.expr scene e hfits) fun v => .bind ih fun vs =>
      .pure (List.map σ.value) (v :: vs)

/-- An expression that is given a name follows. -/
theorem namedExpr_follows (name : Text) (e : Expr) :
    Action.Follows role σ σ.value (namedExpr ev scene name e)
      (namedExpr ev (σ.scene scene) name (σ.expr e)) := by
  have hexpr := hev.expr scene e hfits
  cases e with
  | function param body result => exact newClosure_follows scene name param body result
  | _ => exact hexpr

/-- The members of an object expression follow. -/
theorem members_follows (ms : List (Text × Expr)) :
    Action.Follows role σ (List.map σ.row) (members ev scene ms)
      (members ev (σ.scene scene) (σ.fields ms)) := by
  induction ms with
  | nil => exact .pure (List.map σ.row) []
  | cons m rest ih =>
    obtain ⟨name, e⟩ := m
    exact .bind (namedExpr_follows hev scene name e) fun v =>
      .bind ih fun vs => .pure (List.map σ.row) ((name, v) :: vs)

/-- Parts that are joined to a text give the same text. -/
theorem concat_follows (es : List Expr) :
    Action.Follows role σ id (concat ev scene es) (concat ev (σ.scene scene) (σ.exprs es)) := by
  induction es with
  | nil => exact .pure id _
  | cons e rest ih =>
    exact .bind (hev.expr scene e hfits) fun v =>
      .bind (addedWords_follows hev scene.realm v) fun _ =>
      .bind ih fun _ => .pure id _

omit hev in
/-- Making an object that refers to itself follows. -/
theorem newCycle_follows (realm : Realm) [σ.Fits realm] :
    Action.Follows role σ σ.value (newCycle realm) (newCycle (σ.realm realm)) := by
  refine .heap fun {h h'} hh => ?_
  rw [← hh.ref_size]
  exact record_follows realm [("self", .ref h.size)]

omit hfits in
/-- Making an error follows. -/
theorem newFault_follows (realm : Realm) [σ.Fits realm] (kind : ErrorKind) (message : Value) :
    Action.Follows role σ σ.value (newFault ev realm kind message)
      (newFault ev (σ.realm realm) kind (σ.value message)) := by
  refine .bind (givenWords_follows hev realm message) fun t => ?_
  cases kind.isEngine with
  | true => exact newMainError_follows kind t
  | false => exact newError_follows kind realm t

/-- Making a function with a fixed answer follows. -/
theorem answering_follows (name : Text) (a : Answer) :
    Action.Follows role σ σ.value (answering ev scene name a)
      (answering ev (σ.scene scene) name (σ.answer a)) := by
  cases a with
  | returns e => exact newMethod_follows scene.realm name (m := .answer scene (.returns e)) hfits
  | throws e => exact newMethod_follows scene.realm name (m := .answer scene (.throws e)) hfits
  | value e => exact namedExpr_follows hev scene name e

omit hfits in
/-- Joining the names of a list follows. -/
theorem joinedNames_follows (realm : Realm) [hrealm : σ.Fits realm] (list : Value) :
    Action.Follows role σ σ.value (joinedNames ev realm list)
      (joinedNames ev (σ.realm realm) (σ.value list)) := by
  refine .bind (property_follows hev realm list "map") fun map => ?_
  refine .bind (newFunction_follows realm (c := .reader "name" realm) hrealm [] 1) fun nameOf => ?_
  exact .bind (callProperty_follows hev realm map list [nameOf]) fun names =>
    invoke_follows hev realm names "join" [.text ","]

/-- Calling a variable follows. -/
theorem callVariable_follows (name : Text) (arguments : List Expr) :
    Action.Follows role σ σ.value (callVariable ev scene name arguments)
      (callVariable ev (σ.scene scene) name (σ.exprs arguments)) :=
  .bind (readVariable_follows scene name) fun callee =>
    .bind (exprs_follows hev scene arguments) fun arguments =>
      callProperty_follows hev scene.realm callee .undefined arguments

/-- Calling a method of a variable follows. -/
theorem callMember_follows (owner name : Text) (arguments : List Expr) :
    Action.Follows role σ σ.value (callMember ev scene owner name arguments)
      (callMember ev (σ.scene scene) owner name (σ.exprs arguments)) :=
  .bind (readVariable_follows scene owner) fun owner =>
    .bind (property_follows hev scene.realm owner name) fun callee =>
      .bind (exprs_follows hev scene arguments) fun arguments =>
        callProperty_follows hev scene.realm callee owner arguments

/-- Running another script inside a script follows. -/
theorem runNested_follows (host : Host) (name : Text) (program : Program) :
    Action.Follows role σ σ.value (runNested host ev scene name program)
      (runNested host ev (σ.scene scene) name (σ.program program)) := by
  refine .bind (readVariable_follows scene "engine") fun engine => ?_
  refine .bind (property_follows hev scene.realm engine Operation.run.name) fun callee =>
    .heap fun {h h'} hh => ?_
  have hcalled := callProperty_follows hev scene.realm callee engine [.text name]
  have hhome : reachesEngine h' (σ.value engine) = reachesEngine h engine :=
    reaches_follows hh engine (σ.ref_fixture .engine)
  rw [hh.callable?]
  cases h.callable? callee with
  | none => exact hcalled
  | some c =>
    cases c with
    | operation o =>
      cases o with
      | run => exact .cond (by rw [hhome]) (hev.run name program) hcalled
      | _ => exact hcalled
    | _ => exact hcalled

omit hev in
/-- Declaring a class follows. -/
theorem newScriptClass_follows (name : Text) (product : Option Expr) :
    Action.Follows role σ σ.value (newScriptClass scene name product)
      (newScriptClass (σ.scene scene) name (σ.option product)) := by
  have hshared : Action.Follows role σ (List.map σ.row) (buildMethods scene product)
      (buildMethods (σ.scene scene) (σ.option product)) := by
    cases product with
    | none => exact .pure (List.map σ.row) []
    | some e =>
      exact .bind (newMethod_follows scene.realm "build"
        (m := .answer { scene with insisting := true } (.returns e)) hfits) fun m =>
        .pure (List.map σ.row) [(Text.ofString "build", m)]
  exact .bind hshared fun shared => newClass_follows scene.realm
    (d := ⟨none, name, fun _ => .classDefinition, none, [], shared, _⟩) rfl rfl

/-- Every expression follows, one case per form. -/
theorem evalExpr_follows (host : Host) (e : Expr) :
    Action.Follows role σ σ.value (evalExpr host ev scene e)
      (evalExpr host ev (σ.scene scene) (σ.expr e)) := by
  -- expressions are followed by way of the evaluator, so that each kind needs its own lemma only
  cases e with
  | const v => exact .pure σ.value v
  | symbol description =>
    refine .bind (alloc_follows (fitsObject_of_shape rfl nofun)) fun mark => .pure_of_eq ?_
    rw [σ.ref?_value]
    cases mark <;> simp [Value.ref?, σ.ref_zero]
  | list items =>
    exact .bind (exprs_follows hev scene items) fun items => newList_follows scene.realm items
  | record ms => exact .bind (members_follows hev scene ms) fun ms => record_follows scene.realm ms
  | bareRecord ms =>
    refine .bind (members_follows hev scene ms) fun ms => ?_
    have h : Action.Follows role σ σ.value (alloc (Object.holding .plain none ms)) _ :=
      alloc_follows fitsObject_holding
    rwa [σ.object_holding] at h
  | cycle => exact newCycle_follows scene.realm
  | fault kind message =>
    exact .bind (hev.expr scene message hfits) fun message =>
      newFault_follows hev scene.realm kind message
  | construct cls =>
    exact .bind (hev.expr scene cls hfits) fun cls => hev.construct scene.realm cls hfits
  | jsonAs a =>
    exact .bind (answering_follows hev scene "toJSON" a) fun v =>
      record_follows scene.realm [("toJSON", v)]
  | described name a =>
    exact .bind (namedExpr_follows hev scene "name" name) fun name =>
      .bind (answering_follows hev scene "describe" a) fun describe =>
        record_follows scene.realm [("name", name), ("describe", describe)]
  | «variable» name => exact readVariable_follows scene name
  | property o name =>
    exact .bind (hev.expr scene o hfits) fun o => property_follows hev scene.realm o name
  | concat items => exact .answer (concat_follows hev scene items) fun _ => rfl
  | names list => exact .bind (hev.expr scene list hfits) fun list =>
      joinedNames_follows hev scene.realm list
  | type name => exact callVariable_follows hev scene Verb.type.name [name]
  | build target configuration =>
    have h := callVariable_follows hev scene Verb.build.name (target :: configuration.toList)
    cases configuration <;> exact h
  | task task => exact callVariable_follows hev scene Verb.task.name [task]
  | engine operation arguments => exact callMember_follows hev scene "engine" operation arguments
  | run name program => exact runNested_follows hev scene host name program
  | function param body result => exact newClosure_follows scene [] param body result
  | cls name product => exact newScriptClass_follows scene name product

/-! ## Statements -/

/-- A block in a frame of its own follows. -/
theorem innerBlock_follows (body : List Stmt) :
    Action.Follows role σ id (innerBlock ev scene body)
      (innerBlock ev (σ.scene scene) (σ.stmts body)) :=
  openBlock_bind_follows fun inner hsame hinner => hev.block inner body (hsame ▸ hfits) hinner

/-- So does a block that is repeated. -/
theorem repeatBlock_follows (body : List Stmt) (n : Nat) :
    Action.Follows role σ id (repeatBlock ev scene body n)
      (repeatBlock ev (σ.scene scene) (σ.stmts body) n) := by
  induction n with
  | zero => exact .pure id _
  | succ n ih => exact .bind (innerBlock_follows hev scene body) fun _ => ih

/-- Every statement follows, one case per form. -/
theorem evalStmt_follows (hinner : σ.Inner scene) (s : Stmt) :
    Action.Follows role σ id (evalStmt ev scene s) (evalStmt ev (σ.scene scene) (σ.stmt s)) := by
  cases s with
  | bind name e =>
    exact .bind (namedExpr_follows hev scene name e) fun v => bindVariable_follows hinner name v
  | assign o name e =>
    exact .bind (hev.expr scene o hfits) fun target => .bind (hev.expr scene e hfits) fun v =>
      assign_follows hev scene.realm scene.insisting target name v
  | perform e => exact .bind (hev.expr scene e hfits) fun _ => .pure id _
  | raise e => exact .bind (hev.expr scene e hfits) fun v => .throw id v
  | attempt body name handler =>
    refine .tryCatch (innerBlock_follows hev scene body) fun thrown => ?_
    show Action.Follows role σ id (openFrame scene [(name, some thrown)] >>= _)
      (openFrame (σ.scene scene) (σ.bindings [(name, some thrown)]) >>= _)
    refine openFrame_bind_follows fun caught hsame _ => ?_
    have : σ.Fits caught.realm := hsame ▸ hfits
    exact innerBlock_follows hev caught handler
  | loop count body => exact repeatBlock_follows hev scene body count
  | log level message data =>
    have h := callMember_follows hev scene "logger" level (message :: data.toList)
    cases data <;> exact .bind h fun _ => .pure id _
  | later body => exact postpone_follows scene body

/-- Statements one after the other follow. -/
theorem evalBlock_follows (hinner : σ.Inner scene) (body : List Stmt) :
    Action.Follows role σ id (evalBlock ev scene body)
      (evalBlock ev (σ.scene scene) (σ.stmts body)) := by
  induction body with
  | nil => exact .pure id _
  | cons s rest ih => exact .bind (evalStmt_follows hev scene hinner s) fun _ => ih

/-! ## Callables -/

/-- Calling a function of a script follows. -/
theorem callClosure_follows (param : Text) (body : List Stmt) (result : Option Expr)
    (arguments : List Value) :
    Action.Follows role σ σ.value (callClosure ev scene param body result arguments)
      (callClosure ev (σ.scene scene) param (σ.stmts body) (σ.option result)
        (arguments.map σ.value)) := by
  have hframe : [(param, some (argument (arguments.map σ.value) 0))] =
      σ.bindings [(param, some (argument arguments 0))] := by
    rw [argument_map]
    rfl
  unfold callClosure
  rw [hframe]
  refine openFrame_bind_follows fun outer houter _ => ?_
  refine openBlock_bind_follows fun inner hsame hinner => ?_
  have hinnerFits : σ.Fits inner.realm := hsame ▸ houter ▸ hfits
  refine .bind (hev.block inner body hinnerFits hinner) fun _ => ?_
  cases result with
  | none => exact .pure σ.value .undefined
  | some e => exact hev.expr inner e hinnerFits

end scene

/-- The scene of no script has nothing to move. -/
theorem scene_outside : σ.scene Scene.outside = Scene.outside := by
  show Scene.mk [] none (σ.realm Realm.main) true = _
  rw [realm_main]
  rfl

section calls

include hev

/-- Setting the fields of a new instance follows. -/
theorem setFields_follows (o : Value) (fields : List (Text × Expr)) :
    Action.Follows role σ id (setFields ev o fields)
      (setFields ev (σ.value o) (σ.fields fields)) := by
  induction fields with
  | nil => exact .pure id _
  | cons f rest ih =>
    obtain ⟨name, e⟩ := f
    have hexpr := hev.expr .outside e (inferInstanceAs (σ.Fits Realm.main))
    rw [scene_outside] at hexpr
    exact .bind hexpr fun v => .bind (assignMain_follows hev true o name v) fun _ => ih

/-- Running the constructor of a class follows. -/
theorem callBlueprint_follows (b : Blueprint) (hfits : σ.Fits b.realm) (this : Value) :
    Action.Follows role σ σ.value (callBlueprint ev b this)
      (callBlueprint ev (σ.blueprint b) (σ.value this)) := by
  have hset : Action.Follows role σ σ.value
      (setFields ev this b.fields >>= fun _ => pure Value.undefined)
      (setFields ev (σ.value this) (σ.fields b.fields) >>= fun _ => pure Value.undefined) :=
    .bind (setFields_follows hev this b.fields) fun _ => .pure σ.value .undefined
  unfold callBlueprint Shift.blueprint
  cases b.making with
  | classDefinition => exact crashIn_follows _ b.realm _ _
  | plain => exact .pure σ.value .undefined
  | _ => exact hset

/-- Every call follows, one case per kind of callee. -/
theorem evalCall_follows {host : Host} (hhost : host.role = role) (callee this : Value)
    (arguments : List Value) :
    Action.Follows role σ σ.value (evalCall host ev callee this arguments)
      (evalCall host ev (σ.value callee) (σ.value this) (arguments.map σ.value)) := by
  refine .heap fun {h h'} hh => ?_
  -- the moved callee does what the callee does, with everything in it moved
  rw [hh.callable?]
  cases hcallee : h.callable? callee with
  | none => exact typeError_follows _ _
  | some c =>
    have hfits : σ.FitsCallable c := hh.fitsCallable hcallee
    cases c with
    | closure scene param body result =>
      have : σ.Fits scene.realm := hfits
      exact callClosure_follows hev scene param body result arguments
    | method m => exact callMethod_follows hev host m hfits this
    | verb v run onTask => exact callVerb_follows hev host v run onTask arguments
    | operation o => exact callOperation_follows hev hhost o this arguments
    | logging level => exact callLogging_follows hev host level arguments
    | standard f realm =>
      have : σ.Fits realm := hfits
      exact callStandard_follows hev realm f _ arguments
    | maker f realm =>
      have : σ.Fits realm := hfits
      exact convert_follows hev realm f arguments
    | bound target this given =>
      -- the given arguments come before those of the call, in both worlds
      have h := hev.call target this (given ++ arguments)
      rwa [List.map_append] at h
    | reader name realm =>
      have : σ.Fits realm := hfits
      have h := property_follows hev realm (argument arguments 0) name
      rwa [← argument_map] at h
    | segmentTest =>
      have h := isPlainSegmentValue_follows hev (argument arguments 0)
      rw [← argument_map] at h
      exact .answer h fun _ => rfl
    | scopeState run => exact .get fun hw => .pure_of_eq (congrArg Value.bool (hw.isOpen run))
    | blueprint b => exact callBlueprint_follows hev b hfits this

omit hev in
/-- The template of a new instance moves with its class. -/
theorem instanceParent_follows {h h' : Heap} (hh : σ.Heaps h h') (b : Blueprint) [σ.Fits b.realm]
    (cls : Value) :
    instanceParent h' (σ.blueprint b) (σ.value cls) = σ.ref (instanceParent h b cls) := by
  have htemplate : (σ.realm b.realm).template .object = σ.ref (b.realm.template .object) :=
    (σ.ref_template b.realm .object).symm
  unfold instanceParent Shift.blueprint
  rw [hh.value?]
  cases b.making with
  | bound target => rfl
  | _ =>
    cases h.value? cls "prototype" with
    | none => exact htemplate
    | some v =>
      cases v with
      | ref r => rfl
      | _ => exact htemplate

/-- Constructing an instance follows. -/
theorem evalConstruct_follows (realm : Realm) [σ.Fits realm] (cls : Value) :
    Action.Follows role σ σ.value (evalConstruct ev realm cls)
      (evalConstruct ev (σ.realm realm) (σ.value cls)) := by
  refine .heap fun {h h'} hh => ?_
  have hrefused : Action.Follows role σ σ.value
      (crashIn realm .type "the value makes no instances") _ := crashIn_follows σ.value realm _ _
  rw [hh.callable?]
  cases hcls : h.callable? cls with
  | none => exact hrefused
  | some c =>
    have hfits : σ.FitsCallable c := hh.fitsCallable hcls
    cases c with
    | blueprint b =>
      have hb : σ.Fits b.realm := hfits
      refine .cond ?_ ?_ hrefused
      · unfold Shift.blueprint
        cases b.making <;> rfl
      · have halloc : Action.Follows role σ σ.value
            (alloc (Object.empty .plain (some (instanceParent h b cls)))) _ :=
          alloc_follows (fitsObject_of_shape rfl nofun)
        rw [σ.object_empty, Option.map_some, ← instanceParent_follows hh] at halloc
        exact .bind halloc fun o =>
          .bind (setFields_follows hev o b.fields) fun _ => .pure σ.value o
    | bound target this given => exact hev.construct realm target inferInstance
    | maker f home =>
      have : σ.Fits home := hfits
      refine .cond ?_ (make_follows home f) hrefused
      cases f <;> rfl
    | _ => exact hrefused

/-! ## JSON text -/

/-- The items of a list are written in the same JSON. -/
theorem jsonItems_follows (path : List Ref) (list : Value) (n i : Nat) :
    Action.Follows role σ id (jsonItems ev path list n i)
      (jsonItems ev (path.map σ.ref) (σ.value list) n i) := by
  induction n generalizing i with
  | zero => exact .pure id _
  | succ n ih =>
    exact .bind (propertyMain_follows hev list _) fun v => .bind (hev.json path _ v) fun _ =>
      .bind (ih (i + 1)) fun _ => .pure id _

/-- So are the members of an object. -/
theorem jsonMembers_follows (path : List Ref) (o : Value) (names : List Text) :
    Action.Follows role σ id (jsonMembers ev path o names)
      (jsonMembers ev (path.map σ.ref) (σ.value o) names) := by
  induction names with
  | nil => exact .pure id _
  | cons name rest ih =>
    refine .bind (propertyMain_follows hev o name) fun v => .bind (hev.json path name v) fun t =>
      .bind ih fun _ => ?_
    cases t <;> exact .pure id _

/-- What a `toJSON` of the value's own answers follows. -/
theorem ownForm_follows (key : Text) (v : Value) :
    Action.Follows role σ σ.value (ownForm ev key v) (ownForm ev key (σ.value v)) :=
  .bind (propertyMain_follows hev v "toJSON") fun form => .heap fun hh =>
    .cond (hh.isCallable form) (hev.call form v [.text key]) (.pure σ.value v)

/-- An object is written in the same JSON, and a cycle is refused in both worlds. -/
theorem jsonObject_follows (path : List Ref) (r : Ref) :
    Action.Follows role σ id (jsonObject ev path r) (jsonObject ev (path.map σ.ref) (σ.ref r)) := by
  refine .heap fun {h h'} hh => ?_
  -- an object is met on its own path on one side exactly if it is on the other
  have hcyclic : (path.map σ.ref).contains (σ.ref r) = path.contains r := by
    induction path with
    | nil => rfl
    | cons p path ih => rw [List.map_cons, List.contains_cons, List.contains_cons, ih, σ.ref_beq]
  -- what is neither a function nor a list is written by its members
  have hmembers : Action.Follows role σ id
      (if path.contains r then typeError "a cyclic object has no JSON form"
        else jsonMembers ev (r :: path) (.ref r) ((h.members (.ref r)).map (·.1)) >>= fun ts =>
          pure (some (Text.openBrace ++ Text.join "," ts ++ Text.closeBrace)))
      (if (path.map σ.ref).contains (σ.ref r) then typeError "a cyclic object has no JSON form"
        else jsonMembers ev (σ.ref r :: path.map σ.ref) (.ref (σ.ref r))
            ((h'.members (.ref (σ.ref r))).map (·.1)) >>= fun ts =>
          pure (some (Text.openBrace ++ Text.join "," ts ++ Text.closeBrace))) := by
    refine .cond hcyclic (typeError_follows _ _) (.answer ?_ fun _ => rfl)
    have hnames : (h'.members (.ref (σ.ref r))).map (·.1) = (h.members (.ref r)).map (·.1) := by
      rw [← σ.value_ref, hh.members, List.map_map]
      rfl
    rw [hnames]
    exact jsonMembers_follows hev (r :: path) (.ref r) _
  have hshape := hh.shape? (.ref r)
  have hlist := hh.list? (.ref r)
  rw [σ.value_ref] at hshape hlist
  dsimp only
  rw [hshape, hlist]
  cases h.shape? (.ref r) with
  | none => exact hmembers
  | some s =>
    cases s with
    | callable c => exact .pure id none
    | list cells length =>
      refine .cond hcyclic (typeError_follows _ _) ?_
      have hlength : (((h.list? (.ref r)).map (List.map σ.value)).getD []).length =
          ((h.list? (.ref r)).getD []).length := by
        cases h.list? (.ref r) <;> simp
      rw [hlength]
      exact .answer (jsonItems_follows hev (r :: path) (.ref r) _ 0) fun _ => rfl
    | _ => exact hmembers

/-- Writing a value in JSON gives the same text. -/
theorem evalJson_follows (path : List Ref) (key : Text) (v : Value) :
    Action.Follows role σ id (evalJson ev path key v)
      (evalJson ev (path.map σ.ref) key (σ.value v)) := by
  have hform : Action.Follows role σ σ.value (jsonForm ev key v) (jsonForm ev key (σ.value v)) := by
    have hown := ownForm_follows hev key v
    cases v with
    | ref | bigint => exact hown
    | _ => exact .pure σ.value _
  refine .bind hform fun x => ?_
  cases x with
  | bool b => cases b <;> exact .pure id _
  | bigint => exact typeError_follows _ _
  | ref r => exact jsonObject_follows hev path r
  | _ => exact .pure id _

end calls

/-! ## All scripts -/

/-- The evaluator without fuel follows: it refuses everything alike. -/
theorem exhausted_follows (hbus : exhausted.Obeys fun w w' => w'.bus = w.bus) :
    exhausted.Follows role σ where
  expr _ _ _ := crash_follows _ _ _
  block _ _ _ _ := crash_follows _ _ _
  call _ _ _ := crash_follows _ _ _
  construct _ _ _ := crash_follows _ _ _
  json _ _ _ := crash_follows _ _ _
  run _ _ := crash_follows _ _ _
  bus := hbus

/-- One more level of nesting follows if the levels below do. -/
theorem layer_follows {host : Host} (hhost : host.role = role) (hev : ev.Follows role σ)
    (hbus : (layer host ev).Obeys fun w w' => w'.bus = w.bus) : (layer host ev).Follows role σ where
  expr scene e _ := evalExpr_follows hev scene host e
  block scene body _ hinner := evalBlock_follows hev scene hinner body
  call callee this arguments := evalCall_follows hev hhost callee this arguments
  construct realm cls _ := evalConstruct_follows hev realm cls
  json path key v := evalJson_follows hev path key v
  run name program := .bind (runProgram_follows hev host name program) environmentValue_follows
  bus := hbus

end Evaluator

/-- Everything that scripts do follows in moved worlds, however deeply it is nested. -/
theorem evaluator_follows (host : Host) (σ : Shift) (n : Nat) :
    (evaluator host n).Follows host.role σ := by
  have hbus (n : Nat) := (keepsBus_indifferent.onHost host).evaluator n
  induction n with
  | zero => exact Evaluator.exhausted_follows (hbus 0)
  | succ n ih => exact Evaluator.layer_follows rfl ih (hbus (n + 1))

end EvalPlan

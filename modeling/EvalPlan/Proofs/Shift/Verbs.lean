import EvalPlan.Script.Verbs
import EvalPlan.Proofs.Shift.Running

/-!
# What scripts ask for, in moved worlds

The verbs of a run and the operations of the engine follow in moved worlds. A stand-in for the
engine says whether a run is current; there, none encloses everything.
-/

namespace EvalPlan

open Script (Scene Answer Program)

namespace Action

open Shift

variable {role : Role} {σ : Shift} {α β : Type} {ev : Evaluator} (hev : ev.Follows role σ)
  {host : Host}
  (hhost : host.role = role)

/-! ## Verbs -/

section verbs

include hev

/-- Asking the engine through its own object follows. -/
theorem askEngine_follows (host : Host) (o : Operation) (arguments : List Value) :
    Follows role σ σ.value (askEngine host ev o arguments)
      (askEngine host ev o (arguments.map σ.value)) := by
  have h := invokeMain_follows hev (.ref host.role.facade) o.name arguments
  rwa [σ.value_ref, σ.ref_facade] at h

/-- Finding the builder for a target follows. -/
theorem builderFor_follows (host : Host) (target : Value) :
    Follows role σ σ.value (builderFor host ev target) (builderFor host ev (σ.value target)) := by
  have htype : Follows role σ σ.value
      (heap >>= fun h => if h.isType target then askEngine host ev .getBuilderForType [target] >>=
        fun builder =>
          nameOf ev target >>= fun name => words ev .main name >>= fun name =>
            if builder.isTruthy then pure builder else refuse (.noBuilderForType name)
        else refuse .badTarget)
      (heap >>= fun h => if h.isType (σ.value target) then
          askEngine host ev .getBuilderForType [σ.value target] >>= fun builder =>
            nameOf ev (σ.value target) >>= fun name => words ev .main name >>= fun name =>
              if builder.isTruthy then pure builder else refuse (.noBuilderForType name)
        else refuse .badTarget) := by
    refine .heap fun hh => .cond (hh.isType target) ?_ (refuse_follows σ.value .badTarget)
    refine .bind (askEngine_follows hev host .getBuilderForType [target]) fun builder => ?_
    refine .bind (nameOf_follows hev target) fun name =>
      .bind (wordsMain_follows hev name) fun t => ?_
    exact .cond (σ.isTruthy_value builder) (.pure σ.value builder)
      (refuse_follows σ.value (.noBuilderForType t))
  cases target with
  | text name =>
    refine .bind (askEngine_follows hev host .getBuilder [.text name]) fun builder => ?_
    exact .cond (σ.isTruthy_value builder) (.pure σ.value builder)
      (refuse_follows σ.value (.noBuilderForName name))
  | _ => exact htype

/-- Handing a configuration to a builder follows. -/
theorem configure_follows (builder configuration : Value) :
    Follows role σ id (configure ev builder configuration)
      (configure ev (σ.value builder) (σ.value configuration)) := by
  refine .heap fun {h h'} hh => .cond (σ.isNullish_value configuration) (.pure id _) ?_
  refine .cond (hh.isCallable configuration) ?_
    (.cond (hh.isObject configuration) ?_ (refuse_follows id .badConfiguration))
  · exact .bind (hev.call configuration .undefined [builder]) fun _ => .pure id _
  · rw [hh.members]
    exact assignAll_follows hev builder (h.members configuration)

/-- The `build` of a script follows. -/
theorem buildVerb_follows (host : Host) (target configuration : Value) :
    Follows role σ σ.value (buildVerb host ev target configuration)
      (buildVerb host ev (σ.value target) (σ.value configuration)) := by
  refine .bind (builderFor_follows hev host target) fun cls => ?_
  have hnew := hev.construct .main cls inferInstance
  rw [realm_main] at hnew
  exact .bind hnew fun builder => .bind (configure_follows hev builder configuration) fun _ =>
    invokeMain_follows hev builder "build" []

/-- The `task` of a script follows, for the run it was made for. -/
theorem taskVerb_follows (host : Host) (run : RunId) (onTask task : Value) :
    Follows role σ σ.value (taskVerb host ev run onTask task)
      (taskVerb host ev (σ.run run) (σ.value onTask) (σ.value task)) := by
  refine .heap fun hh => .cond (hh.isTask task) ?_ (refuse_follows σ.value .notTask)
  refine .bind (declareIn_follows run task) fun taken => ?_
  cases taken with
  | true => exact .bind (announceTask_follows hev host run onTask task) fun _ => .pure σ.value task
  | false => exact .pure σ.value task

/-- Every verb follows. -/
theorem callVerb_follows (host : Host) (v : Verb) (run : RunId) (onTask : Value)
    (arguments : List Value) : Follows role σ σ.value (callVerb host ev v run onTask arguments)
      (callVerb host ev v (σ.run run) (σ.value onTask) (arguments.map σ.value)) := by
  unfold callVerb
  rw [argument_map, argument_map]
  cases v with
  | type => exact askEngine_follows hev host .loadType [_]
  | build => exact buildVerb_follows hev host _ _
  | task => exact taskVerb_follows hev host run onTask _

end verbs

/-! ## Operations -/

section operations

/-- Whether a value has a fixed object among its templates is the same. -/
theorem reaches_follows {h h' : Heap} (hh : σ.Heaps h h') (this : Value) {r : Ref}
    (hr : σ.ref r = r) : reaches h' (σ.value this) r = reaches h this r := by
  have hsame := σ.same_value this (.ref r)
  have hinherits := hh.inherits this r
  rw [σ.value_ref, hr] at hsame
  rw [hr] at hinherits
  rw [reaches, hsame, hinherits]
  rfl

/-- So is whether an operation is called on the object it belongs to. -/
theorem isAtHome_follows {h h' : Heap} (hh : σ.Heaps h h') (o : Operation) (this : Value) :
    isAtHome h' o (σ.value this) = isAtHome h o this := by
  have hengine := reaches_follows hh this (σ.ref_fixture .engine)
  cases o with
  | publish => exact reaches_follows hh this (σ.ref_fixture .bus)
  | current => rfl
  | _ => exact hengine

include hev

/-- Registering a task follows. -/
theorem registerTask_follows (host : Host) (task : Value) :
    Follows role σ id (registerTask host ev task) (registerTask host ev (σ.value task)) := by
  refine .cond (σ.isNullish_value task) (refuse_follows id .taskMissing) ?_
  refine .bind (.bind (nameOf_follows hev task) fun _ => log_follows hev _ _ _ _ _) fun _ => ?_
  refine .bind (offer_follows task) fun taken => ?_
  cases taken with
  | some run =>
    exact .bind (nameOf_follows hev task) fun name =>
      emit_follows hev host "task:registered" [("task", .value name)] (some run)
  | none => exact .bind (nameOf_follows hev task) fun _ => log_follows hev _ _ _ _ _

omit hev in
/-- So does registering one without an announcement. -/
theorem registerSilently_follows (task : Value) :
    Follows role σ id (registerSilently task) (registerSilently (σ.value task)) :=
  .answer (offer_follows task) fun _ => Option.isSome_map

/-- Publishing an event that a script made follows. -/
theorem publishValue_follows (host : Host) (event : Value) :
    Follows role σ id (publishValue host ev event) (publishValue host ev (σ.value event)) := by
  refine .bind (propertyMain_follows hev event "type") fun type => ?_
  refine .bind (propertyMain_follows hev event "data") fun data => .heap fun _ => ?_
  rw [σ.text?_value]
  exact publish_follows hev host _ _ _ _ _

/-- Only a stand-in of the engine says whether a run is current. -/
theorem operate_follows (o : Operation) (hcurrent : o = .current → role = .bench)
    (arguments : List Value) : Follows role σ σ.value (operate host ev o arguments)
      (operate host ev o (arguments.map σ.value)) := by
  unfold operate
  rw [argument_map, argument_map]
  generalize argument arguments 0 = first
  generalize argument arguments 1 = second
  cases o with
  | load => exact recordMain_follows []
  | run =>
    refine .bind (wordsMain_follows hev first) fun name =>
      .bind (wordsMain_follows hev second) fun t => ?_
    have h := hev.run name (Program.ofText t)
    rwa [σ.program_ofText] at h
  | getBuilder =>
    refine .answer (findNamedBy_follows hev host first) fun builder => ?_
    cases builder <;> rfl
  | getBuilderForType =>
    refine .answer (resolve_follows first) fun builder => ?_
    cases builder <;> rfl
  | registerBuilder =>
    exact .bind (register_follows hev host first second) fun _ => .pure σ.value .undefined
  | registerTask =>
    cases hrole : host.role with
    | engine => exact .bind (registerTask_follows hev host first) fun _ => .pure σ.value .undefined
    | bench => exact .answer (registerSilently_follows first) fun _ => rfl
  | loadType => exact loadNamedType_follows hev host first
  | emit =>
    have h := propertyMain_follows hev (.ref host.role.facade) "eventBus"
    rw [σ.value_ref, σ.ref_facade] at h
    exact .bind h fun bus => invokeMain_follows hev bus "emit" [first]
  | publish => exact .bind (publishValue_follows hev host first) fun _ => .pure σ.value .undefined
  | current =>
    -- within a run the stand-in and the engine may differ in this, so that only the former is asked
    have hbench : role = .bench := hcurrent rfl
    refine ⟨fun hw => ⟨.refl _, ?_, hw⟩, fun hengine => absurd (hengine.symm.trans hbench) nofun⟩
    have h := congrArg Option.isSome (current?_of_free hw)
    rw [Option.isSome_map] at h
    exact congrArg (fun b => Except.ok (Value.bool b)) h

include hhost

/-- Calling an operation follows, at home or elsewhere. -/
theorem callOperation_follows (o : Operation) (this : Value) (arguments : List Value) :
    Follows role σ σ.value (callOperation host ev o this arguments)
      (callOperation host ev o (σ.value this) (arguments.map σ.value)) := by
  refine .heap fun {h h'} hh => ?_
  rw [isAtHome_follows hh, argument_map]
  by_cases hhome : (host.role == .bench || isAtHome h o this) = true
  · rw [if_pos hhome, if_pos hhome]
    refine operate_follows hev o (fun hcurrent => ?_) arguments
    -- the engine's own operation is at home nowhere
    rw [hcurrent, show isAtHome h .current this = false from rfl, Bool.or_false,
      beq_iff_eq] at hhome
    exact hhost.symm.trans hhome
  · rw [if_neg hhome, if_neg hhome]
    exact .cond (by rw [σ.isNullish_value]) (refuse_follows σ.value .taskMissing)
      (typeError_follows _ _)

end operations

/-- A script that logs follows. -/
theorem callLogging_follows (hev : ev.Follows role σ) (host : Host) (level : Level)
    (arguments : List Value) : Follows role σ σ.value (callLogging host ev level arguments)
      (callLogging host ev level (arguments.map σ.value)) := by
  refine .heap fun _ => ?_
  rw [argument_map, argument_map]
  exact .bind (deposit_follows hev _ level _ _ _) fun _ => .pure σ.value .undefined

/-! ## Methods -/

section methods

include hev

/-- Giving the fixed answer of a function follows. -/
theorem giveAnswer_follows (scene : Scene) (hfits : σ.Fits scene.realm) (a : Answer) :
    Follows role σ σ.value (giveAnswer ev scene a)
      (giveAnswer ev (σ.scene scene) (σ.answer a)) := by
  cases a with
  | returns e => exact hev.expr scene e hfits
  | throws e => exact .bind (hev.expr scene e hfits) fun v => .throw σ.value v
  | value e => exact typeError_follows _ _

/-- A piece of a text that describes the receiver is the same. -/
theorem pieceText_follows (this : Value) (piece : Part) :
    Follows role σ id (pieceText ev this piece) (pieceText ev (σ.value this) piece) := by
  cases piece with
  | words t => exact .pure id _
  | field name =>
    refine .bind (propertyMain_follows hev this name) fun v => ?_
    have h := addedWords_follows hev .main v
    rwa [realm_main] at h

/-- Copying fields from one object to another follows. -/
theorem copyFields_follows (source target : Value) (names : List Text) :
    Follows role σ id (copyFields ev source target names)
      (copyFields ev (σ.value source) (σ.value target) names) := by
  induction names with
  | nil => exact .pure id _
  | cons name rest ih =>
    exact .bind (propertyMain_follows hev source name) fun v =>
      .bind (assignMain_follows hev true target name v) fun _ => ih

/-- Every method follows, one case per method. -/
theorem callMethod_follows (host : Host) (m : Method) (hm : σ.FitsCallable (.method m))
    (this : Value) :
    Follows role σ σ.value (callMethod host ev m this)
      (callMethod host ev (σ.method m) (σ.value this)) := by
  cases m with
  | answer scene a => exact giveAnswer_follows hev scene hm a
  | produces cls copied declares =>
    have hnew := hev.construct .main cls inferInstance
    rw [realm_main] at hnew
    refine .bind hnew fun product => .bind (copyFields_follows hev this product copied) fun _ => ?_
    cases declares with
    | true =>
      exact .bind (askEngine_follows hev host .registerTask [product]) fun _ =>
        .pure σ.value product
    | false => exact .pure σ.value product
  | parts pieces =>
    have h : Follows role σ (List.map id) (pieces.mapM (pieceText ev this))
        ((pieces.map id).mapM (pieceText ev (σ.value this))) :=
      .mapM fun piece => pieceText_follows hev this piece
    rw [List.map_id] at h
    refine .answer h fun texts => ?_
    rw [List.map_id]
    rfl
  | domain m => exact domainMethod_follows hev m this

end methods

end Action

end EvalPlan

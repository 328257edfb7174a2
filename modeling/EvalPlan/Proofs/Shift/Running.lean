import EvalPlan.Proofs.Shift.Declaring

/-!
# Scripts in moved worlds

A run follows in moved worlds: its scope is begun and ended, its realm, its global object and its
variables are its own in each of them, and so its tasks and its completion value are the moved ones
(`execute_follows`, `executeScript_follows`).
-/

namespace EvalPlan

open Script (Scene Program)

namespace Shift

variable (σ : Shift)

/-- A moved environment. -/
def environment (e : Environment) : Environment := ⟨e.tasks.map σ.value, σ.value e.result⟩

/-- A moved script. -/
def compiled (script : CompiledScript) : CompiledScript :=
  { script with body := σ.stmts script.body, result := σ.option script.result }

end Shift

namespace Action

open Shift

variable {role : Role} {σ : Shift} {α β : Type} {ev : Evaluator}

/-! ## What listeners are told -/

/-- Making the object that describes a script follows. -/
theorem scriptObject_follows (script : Text) :
    Follows role σ σ.value (scriptObject script) (scriptObject script) :=
  .bind (recordMain_follows []) fun program =>
    recordMain_follows [("name", .text script), ("program", program)]

/-- Making the object of a run follows as making that of the moved run. -/
theorem scopeObject_follows (run : RunId) :
    Follows role σ σ.value (scopeObject run) (scopeObject (σ.run run)) := by
  refine .bind (newMainFunction_follows (c := .scopeState run) trivial "get active" 0)
    fun isActive => ?_
  exact newPlain_follows (σ.parent_main .object).symm rfl

/-- An environment as a script sees it is that of the moved environment. -/
theorem environmentValue_follows (e : Environment) :
    Follows role σ σ.value (environmentValue e) (environmentValue (σ.environment e)) := by
  have hlist : Follows role σ σ.value (alloc e.listObject)
      (alloc (σ.environment e).listObject) := by
    have h : Follows role σ σ.value (alloc e.listObject) _ :=
      alloc_follows (fitsObject_of_shape rfl nofun)
    have hlist : σ.object e.listObject = (σ.environment e).listObject :=
      congrArg₂ (fun shape parent => Object.mk shape parent [] none true none)
        (σ.shape_ofItems e.tasks)
        (σ.parent_main .list)
    rwa [hlist] at h
  refine .bind hlist fun tasks => newPlain_follows (σ.parent_main .object).symm ?_
  exact (σ.slots_foldl_put [("tasks", tasks), ("result", e.result)] []).symm

section listener

variable (hev : ev.Follows role σ) (host : Host)

include hev

/-- What all objects were given under a name is the same moved. -/
theorem inheritedCallback_follows (name : Text) :
    Follows role σ σ.value (inheritedCallback ev name) (inheritedCallback ev name) := by
  have hproperty := propertyMain_follows hev (.ref (Realm.main.template .object)) name
  rwa [σ.value_ref, σ.ref_template, realm_main] at hproperty

/-- Calling a callback that the listener inherits follows. -/
theorem callInherited_follows (name : Text) {arguments arguments' : Action (List Value)}
    (h : Follows role σ (List.map σ.value) arguments arguments') :
    Follows role σ id (callInherited ev name arguments) (callInherited ev name arguments') := by
  refine .bind (inheritedCallback_follows hev name) fun inherited =>
    .cond (σ.isNullish_value inherited) (.pure id _) ?_
  exact .bind (recordMain_follows []) fun listener => .bind h fun arguments =>
    .bind (callPropertyMain_follows hev inherited listener arguments) fun _ => .pure id _

/-- The callback of a started run follows. -/
theorem announceStarted_follows (script : Text) (run : RunId) :
    Follows role σ id (announceStarted host ev script run)
      (announceStarted host ev script (σ.run run)) := by
  unfold announceStarted
  cases host.listener.started with
  | absent =>
    exact callInherited_follows hev "started" (.bind (scriptObject_follows script) fun o =>
      .bind (scopeObject_follows run) fun scope => .pure (List.map σ.value) [o, scope])
  | note => exact noteSize_follows run fun _ _ => noteMoment_follows _ _ _ run _ _
  | fail message => exact crash_follows _ _ _
  | noteThenFail message => exact crash_follows _ _ _
  | emit => exact emit_follows hev host "run:started" [("script", .value (.text script))] (some run)

/-- What the `task` verb of a run is to call is looked up, or it is none. -/
theorem taskCallback_follows :
    Follows role σ σ.value (taskCallback host ev) (taskCallback host ev) := by
  unfold taskCallback
  cases host.listener.taskRegistered with
  | absent => exact inheritedCallback_follows hev "taskRegistered"
  | _ => exact .pure σ.value .undefined

/-- The callback of a task follows. -/
theorem announceTask_follows (run : RunId) (onTask task : Value) :
    Follows role σ id (announceTask host ev run onTask task)
      (announceTask host ev (σ.run run) (σ.value onTask) (σ.value task)) := by
  unfold announceTask
  cases host.listener.taskRegistered with
  | absent =>
    refine .cond (σ.isNullish_value onTask) (.pure id _)
      (.bind (scopeObject_follows run) fun scope => ?_)
    exact .bind (callPropertyMain_follows hev onTask .undefined [scope, task]) fun _ => .pure id _
  | note =>
    exact .bind (nameOf_follows hev task) fun name => .heap fun _ => noteSize_follows run fun _ _ =>
      noteMoment_follows _ _ _ run _ _
  | fail message => exact crash_follows _ _ _
  | noteThenFail message => exact crash_follows _ _ _
  | emit =>
    exact .bind (nameOf_follows hev task) fun name =>
      emit_follows hev host "task:registered" [("task", .value name)] (some run)

/-- The callback of a completed run follows. -/
theorem announceCompleted_follows (script : Text) (run : RunId) (e : Environment) :
    Follows role σ id (announceCompleted host ev script run e)
      (announceCompleted host ev script (σ.run run) (σ.environment e)) := by
  -- both environments hold the same number of tasks
  have hcount : (σ.environment e).tasks.length = e.tasks.length := List.length_map _
  unfold announceCompleted
  rw [hcount]
  cases host.listener.completed with
  | absent =>
    exact callInherited_follows hev "completed" (.bind (scriptObject_follows script) fun o =>
      .bind (scopeObject_follows run) fun scope => .bind (environmentValue_follows e) fun v =>
        .pure (List.map σ.value) [o, scope, v])
  | note => exact noteMoment_follows _ _ _ run _ _
  | fail message => exact crash_follows _ _ _
  | noteThenFail message => exact crash_follows _ _ _
  | emit =>
    exact emit_follows hev host "run:completed"
      [("script", .value (.text script)), ("taskCount", .value (Value.ofNat e.tasks.length))]
      (some run)

/-- The callback of a failed run follows, with the problem it was handed. -/
theorem announceFailed_follows (script : Text) (run : RunId) (p : Problem) :
    Follows role σ σ.value (announceFailed host ev script run p)
      (announceFailed host ev script (σ.run run) (σ.problem p)) := by
  have herror : Follows role σ σ.value (alloc (problemObject p))
      (alloc (problemObject (σ.problem p))) := by
    rw [← σ.object_problemObject]
    exact alloc_follows fitsObject_problemObject
  unfold announceFailed
  rw [σ.message_problem]
  cases host.listener.failed with
  | absent =>
    refine .bind herror fun error => .bind (callInherited_follows hev "failed" ?_) fun _ =>
      .pure σ.value error
    exact .bind (scriptObject_follows script) fun o => .bind (scopeObject_follows run) fun scope =>
      .pure (List.map σ.value) [o, scope, error]
  | note =>
    exact noteSize_follows run fun _ _ => .bind (noteMoment_follows _ _ _ run _ _) fun _ => herror
  | fail message => exact crash_follows _ _ _
  | noteThenFail message => exact crash_follows _ _ _
  | emit =>
    exact .bind (emit_follows hev host "run:failed"
      [("script", .value (.text script)), ("error", .value (.text p.message))] (some run)) fun _ =>
        herror

/-! ## Carrying a script out -/

/-- Logging a failed run follows. -/
theorem logFailure_follows (script : Text) (run : RunId) (thrown : Value) :
    Follows role σ id (logFailure host ev script run thrown)
      (logFailure host ev script (σ.run run) (σ.value thrown)) :=
  countDiscarded_bind_follows run fun _ _ =>
    .bind (markingThrow_follows rfl (describe_follows hev thrown)) fun _ =>
      log_follows hev _ _ _ _ _

/-- A failed run fails with the moved error. -/
theorem failRun_follows (f : α → β) (script : Text) (run : RunId) (thrown : Value) :
    Follows role σ f (failRun host ev script run thrown)
      (failRun host ev script (σ.run run) (σ.value thrown)) :=
  .bind (markingThrow_follows rfl (cause_follows hev thrown)) fun _ =>
    .bind (logFailure_follows hev host script run thrown) fun _ => .bind (mark_follows rfl) fun _ =>
      .bind (announceFailed_follows hev host script run _) fun error => .throw f error

/-- Opening a run follows as opening the moved one. -/
theorem openRun_follows (script : Text) (run : RunId) :
    Follows role σ id (openRun host ev script run) (openRun host ev script (σ.run run)) :=
  markingThrow_follows rfl (.bind (announceStarted_follows hev host script run) fun _ =>
    log_follows hev _ _ _ _ _)

/-- A run follows if its body does: what stands around it does not look at where the values live. -/
theorem execute_follows (script : Text) {body body' : RunId → Action Value}
    (hbody : ∀ run, Follows role σ σ.value (body run) (body' (σ.run run))) :
    Follows role σ σ.environment (execute host ev script body) (execute host ev script body') := by
  refine beginScope_bind_follows fun run hrun =>
    .bind (openRun_follows hev host script run) fun _ => ?_
  refine .bind (endingScope_follows hrun script (.tryCatch (withBinding_follows run (hbody run))
    fun thrown => failRun_follows hev host σ.value script run thrown)) fun ended => ?_
  obtain ⟨result, tasks⟩ := ended
  exact .bind (announceCompleted_follows hev host script run ⟨tasks, result⟩) fun _ =>
    .pure σ.environment ⟨tasks, result⟩

/-! ## Compiling -/

omit hev in
/-- A program that does not compile is refused alike. -/
theorem refuseProgram_follows (f : α → β) (name : Text) :
    Follows role σ f (refuseProgram name) (refuseProgram name) :=
  .bind (newMainError_follows .grammar _) fun cause =>
    refuse_follows f (.uncompilable name ⟨cause, compilerWords⟩)

/-- Compiling a program follows. -/
theorem compile_follows (name : Text) (program : Program) :
    Follows role σ σ.compiled (compile host ev name program)
      (compile host ev name (σ.program program)) := by
  cases program with
  | block body result =>
    refine .ite (by rw [σ.bindsOnce_program]) ?_ (refuseProgram_follows _ name)
    exact .bind (log_follows hev _ _ _ _ _) fun _ => .pure σ.compiled ⟨name, body, result⟩
  | invalid t => exact refuseProgram_follows _ name

/-! ## The global object -/

omit hev in
/-- What is done in a new realm follows if it follows in every realm that fits. -/
theorem newRealm_bind_follows {f : α → β} {k : Realm → Action α} {k' : Realm → Action β}
    (hk : ∀ realm, σ.Fits realm → Follows role σ f (k realm) (k' (σ.realm realm))) :
    Follows role σ f (newRealm >>= k) (newRealm >>= k') := by
  unfold newRealm
  rw [bind_assoc, bind_assoc]
  refine .heap fun {h h'} hh => ?_
  have : σ.Fits ⟨h.size⟩ := hh.fits_next
  have hrealm : (⟨h'.size⟩ : Realm) = σ.realm ⟨h.size⟩ := by rw [Shift.realm, hh.ref_size]
  dsimp only
  rw [hrealm, ← σ.objects_map, bind_assoc, bind_assoc]
  refine .bind (.forM fun o ho => ?_) fun _ => hk ⟨h.size⟩ hh.fits_next
  exact .bind (alloc_follows (σ.fitsObject_objects _ o ho)) fun _ => .pure id _

omit hev in
/-- The names of a moved realm are the moved names. -/
theorem slots_globalNames (realm : Realm) [σ.Fits realm] :
    σ.slots (globalNames realm) = globalNames (σ.realm realm) := by
  unfold globalNames
  dsimp only
  rw [σ.slots_append]
  congr 1
  rw [Shift.slots, List.map_map]
  exact List.map_congr_left fun f _ =>
    congrArg (fun r => (f.name, Slot.hidden (.ref r))) (σ.ref_maker realm f)

/-- Making the global object of a script follows. -/
theorem globalObject_follows (realm : Realm) [σ.Fits realm] (run : RunId) :
    Follows role σ σ.value (globalObject host ev realm run)
      (globalObject host ev (σ.realm realm) (σ.run run)) := by
  have hfacade : σ.value (.ref host.role.facade) = .ref host.role.facade := by
    rw [σ.value_ref, σ.ref_facade]
  have hlogger := propertyMain_follows hev (.ref host.role.facade) "logger"
  rw [hfacade] at hlogger
  have hverb (v : Verb) (onTask : Value) :
      Follows role σ σ.value (newVerb v run onTask) (newVerb v (σ.run run) (σ.value onTask)) :=
    newMainFunction_follows (c := .verb v run onTask) trivial v.name v.arity
  refine .bind (taskCallback_follows hev host) fun onTask => .bind hlogger fun logger =>
    .bind (hverb .type .undefined) fun type => .bind (hverb .build .undefined) fun build =>
    .bind (hverb .task onTask) fun task => .heap fun {h h'} hh => ?_
  have hparent : some ((σ.realm realm).template .object) =
      (some (realm.template .object)).map σ.ref := by
    rw [Option.map_some, σ.ref_template realm]
  refine newPlain_follows hparent ?_
  rw [σ.slots_append, σ.slots_append, slots_globalNames]
  simp only [Shift.slots, List.map_cons, List.map_nil, σ.slot_ordinary, σ.slot_hidden, hfacade,
    σ.value_ref, hh.ref_size]

/-- The body of a run follows. -/
theorem runBody_follows (script : CompiledScript) (run : RunId) :
    Follows role σ σ.value (runBody host ev script run)
      (runBody host ev (σ.compiled script) (σ.run run)) := by
  refine newRealm_bind_follows fun realm hrealm => ?_
  refine .bind (globalObject_follows hev host realm run) fun global => ?_
  have hscene : (⟨[], (σ.value global).ref?, σ.realm realm, false⟩ : Scene) =
      σ.scene ⟨[], global.ref?, realm, false⟩ := by
    rw [σ.ref?_value]
    rfl
  rw [hscene]
  refine openBlock_bind_follows fun scene hsame hinner => ?_
  have hfits : σ.Fits scene.realm := hsame ▸ hrealm
  refine .bind (hev.block scene script.body hfits hinner) fun _ => ?_
  rw [show (σ.compiled script).result = σ.option script.result from rfl]
  cases script.result with
  | none => exact .pure σ.value .undefined
  | some e => exact hev.expr scene e hfits

/-- Executing a compiled script follows. -/
theorem executeScript_follows (script : CompiledScript) :
    Follows role σ σ.environment (executeScript host ev script)
      (executeScript host ev (σ.compiled script)) :=
  execute_follows hev host script.name (runBody_follows hev host script)

/-- So does compiling a program and executing it. -/
theorem runProgram_follows (name : Text) (program : Program) :
    Follows role σ σ.environment (runProgram host ev name program)
      (runProgram host ev name (σ.program program)) :=
  .bind (log_follows hev _ _ _ _ _) fun _ =>
    .bind (compile_follows hev host name program) fun script =>
    executeScript_follows hev host script

end listener

end Action

end EvalPlan

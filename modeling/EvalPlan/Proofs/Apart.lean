import EvalPlan.Proofs.Failure
import EvalPlan.Proofs.Shift.Still
import EvalPlan.Proofs.Untouched

/-!
# Scripts that keep apart

Scripts that leave what they share as it is do not influence each other: a script comes out the
same, up to the identity of what it made, in whatever order, however often and at whatever nesting
scripts are carried out, as it does alone on the engine that was set up.

`World.SetUp` is said of the engine as it was set up, and `World.Reaches` of the worlds that it
comes to from there by any sequence of turns (`Turn`), each of which spares the objects that were
set up and the registered builders: whole scripts, the reading of sources and the rest of loads at
any moments, rounds of continuations, and the parts of scripts within which others are run. In each
of these worlds the engine stands untouched (`World.Reaches.untouched`), so that whatever is carried
out there follows what is carried out alone (`keepsApart`).

There is one exception. Code that runs while no run is bound, as when the value that a script threw
is put into words, may declare a task. Alone, nothing takes it; within an enclosing run, that run
does, and what its listeners throw may change how the script comes out (`strayTask_disturbs`).
-/

namespace EvalPlan

open Script (Scene Expr Stmt Program)
open EvalPlan.Action

/-! ## Carrying scripts out -/

namespace Action

/-- The part of a load that comes first: a script is asked for, and its source is read. -/
def reading (host : Host) (ev : Evaluator) (source : Source) : Action Program := do
  logLoading host ev source
  readSource ev source

/-- What a run does before its script: the global object is made, and the names of the script are
there. -/
def equip (host : Host) (ev : Evaluator) (script : CompiledScript) (id : RunId) : Action Scene := do
  let realm ← newRealm
  let global ← globalObject host ev realm id
  openBlock ⟨[], global.ref?, realm, false⟩ script.body

end Action

/-- A way to have a script carried out. -/
inductive Execution
  /-- The engine is asked to run a program. -/
  | run (name : Text) (program : Program)
  /-- The engine is asked to load a script. -/
  | load (source : Source)
  /-- A script runs a program. -/
  | nested (name : Text) (program : Program)
  /-- A script that was compiled is executed. -/
  | compiled (script : CompiledScript)
  /-- The program that a source held, whenever it was read, is compiled and executed. -/
  | finish (name : Text) (program : Program)

namespace Execution

/-- What is done. -/
def action (host : Host) (ev : Evaluator) : Execution → Action Environment
  | run name program => do return (← requestRun host ev name program).1
  | load source => do return (← requestLoad host ev source).1
  | nested name program => runProgram host ev name program
  | compiled script => executeScript host ev script
  | finish name program => do executeScript host ev (← compile host ev name program)

/-- A moved script. -/
def moved (σ : Shift) : Execution → Execution
  | run name program => run name (σ.program program)
  | load source => load (σ.source source)
  | nested name program => nested name (σ.program program)
  | compiled script => compiled (σ.compiled script)
  | finish name program => finish name (σ.program program)

/-- The script names only what the world holds. -/
def Within (e : Execution) (w : World) : Prop := ∀ σ : Shift, σ.Beyond w → e.moved σ = e

/-- A load is the reading of its source, and then the rest. -/
theorem load_eq (host : Host) (ev : Evaluator) (source : Source) :
    Action.load host ev source =
      reading host ev source >>= fun program =>
        (finish source.scriptName program).action host ev := by
  simp only [Action.load, loadScript, reading, action, bind_assoc]

variable {role : Role} {σ : Shift} {ev : Evaluator}

/-- The reading half of a load follows. -/
theorem reading_follows (hev : ev.Follows role σ) (host : Host) (source : Source) :
    Follows role σ σ.program (reading host ev source) (reading host ev (σ.source source)) :=
  .bind (logLoading_follows hev host source) fun _ => readSource_follows hev source

/-- An execution follows as the moved execution. -/
theorem action_follows (hev : ev.Follows role σ) (host : Host) (e : Execution) :
    Follows role σ σ.environment (e.action host ev) ((e.moved σ).action host ev) := by
  cases e with
  | run name program =>
    exact .answer (request_follows hev host .run [.text name] (runProgram_follows hev host name program))
      fun _ => rfl
  | load source =>
    exact .answer (request_follows hev host .load [] (load_follows hev host source)) fun _ => rfl
  | nested name program => exact runProgram_follows hev host name program
  | compiled script => exact executeScript_follows hev host script
  | finish name program =>
    exact .bind (compile_follows hev host name program) fun script =>
      executeScript_follows hev host script

/-- A shift that moves nothing leaves every execution as it is. -/
theorem moved_eq (h : σ.Still) (e : Execution) : e.moved σ = e := by
  have hprogram := Shift.program_eq h.value
  cases e with
  | run name program => exact congrArg (run name) (hprogram program)
  | load source =>
    cases source with
    | inline name program => exact congrArg (fun p => load (.inline name p)) (hprogram program)
    | file path => rfl
    | stream path program failure =>
      show load (.stream path (σ.program program) (failure.map σ.value)) = _
      rw [hprogram, h.value_eq, Option.map_id]
      rfl
  | nested name program => exact congrArg (nested name) (hprogram program)
  | compiled script =>
    show compiled { script with body := σ.stmts script.body, result := σ.option script.result } = _
    rw [Shift.stmts_eq h.value, Shift.option_eq h.value]
  | finish name program => exact congrArg (finish name) (hprogram program)

end Execution

/-! ## The worlds that an engine comes to -/

/-- A turn of an engine, or of a script that it carries out. -/
inductive Turn
  /-- A script is carried out. -/
  | executes (e : Execution)
  /-- A script is asked for and its source is read. -/
  | reads (source : Source)
  /-- The continuations that wait are run. -/
  | continues
  /-- A scope begins for a script. -/
  | begins (script : Text)
  /-- It is told that a run begins. -/
  | opens (script : Text) (id : RunId)
  /-- A run makes ready for its script. -/
  | equips (script : CompiledScript) (id : RunId)
  /-- A script evaluates an expression. -/
  | evaluates (scene : Scene) (e : Expr)
  /-- A script carries statements out. -/
  | performs (scene : Scene) (body : List Stmt)
  /-- A script, or code that it is handed to, calls something. -/
  | calls (callee this : Value) (arguments : List Value)
  /-- What comes next belongs to a run, or to none. -/
  | binds (binding : Option RunId)
  /-- The scope of a run ends, well or not. -/
  | ends (id : RunId) (script : Text) (well : Bool)
  /-- What comes next belongs to putting lists into text, each within the one before. -/
  | joins (lists : List Ref)

namespace Turn

/-- What is done in a turn. -/
def action (host : Host) (ev : Evaluator) : Turn → Action Unit
  | executes e => do let _ ← e.action host ev
  | reads source => do let _ ← reading host ev source
  | continues => runRound ev
  | begins script => do let _ ← beginScope script
  | opens script id => openRun host ev script id
  | equips script id => do let _ ← equip host ev script id
  | evaluates scene e => do let _ ← ev.expr scene e
  | performs scene body => ev.block scene body
  | calls callee this arguments => do let _ ← ev.call callee this arguments
  | binds binding => modify fun w => w.enter binding
  | ends id script well => modify fun w => w.endRun id script well
  | joins lists => modify fun w => { w with joining := lists }

/-- The world after a turn, with so many levels of nesting at most. -/
def after (host : Host) (n : Nat) (t : Turn) (w : World) : World :=
  (ExceptT.run (t.action host (evaluator host n)) w).2

/-- The variables, the run and the lists that the turn is about came later than what was set up, and
a run that is bound was begun. -/
def Apt (w₀ w : World) : Turn → Prop
  | performs scene _ => ∀ f ∈ scene.frames.head?, w₀.frames.size ≤ f
  | binds binding => ∀ id ∈ binding, id < w.scopes.tasks.size
  | ends id _ _ => w₀.scopes.tasks.size ≤ id
  | joins lists => ∀ r ∈ lists, w₀.heap.size ≤ r ∧ r < w.heap.size
  | _ => True

/-- The turn is one that what is bound, open or being put into text outlasts. -/
def Stays : Turn → Prop
  | binds _ => False
  | ends _ _ _ => False
  | joins _ => False
  | _ => True

end Turn

namespace World

/-- A turn spares the objects that were set up and the registered builders. -/
structure Spares (w₀ w : World) : Prop where
  object : ∀ r < w₀.heap.size, w.heap[r]? = w₀.heap[r]?
  mappings : w.mappings = w₀.mappings

/-- The worlds that an engine comes to by turns that spare what was set up. -/
inductive Reaches (host : Host) (w₀ : World) : World → Prop
  /-- The world in which it was set up. -/
  | start : Reaches host w₀ w₀
  /-- A world after one more turn. -/
  | turn {w : World} (n : Nat) (t : Turn) : Reaches host w₀ w → t.Apt w₀ w →
    w₀.Spares (t.after host n w) → Reaches host w₀ (t.after host n w)

end World

/-! ### What a turn leaves as it was -/

namespace Shift

/-- Wherever a world follows itself, what actions leave as it was is left, and the world after it
follows itself. -/
def Lasts (σ : Shift) (w w' : World) : Prop :=
  σ.Worlds (.free none) w w → σ.Grows w w' ∧ σ.Worlds (.free none) w' w'

variable {σ : Shift} {role : Role} {α : Type}

/-- What lasts over each of two steps lasts over both. -/
theorem lasts_stepwise (σ : Shift) : Stepwise σ.Lasts where
  refl w hw := ⟨.refl w, hw⟩
  trans h h' hw := ⟨(h hw).1.trans (h' (h hw).2).1, (h' (h hw).2).2⟩

/-- An action that follows itself lasts. -/
theorem lasts_of_follows {f : α → α} {act : Action α} (h : Follows role σ f act act) :
    Action.Keeps σ.Lasts act := fun _ hw => ⟨(h.free hw).1, (h.free hw).2.2⟩

/-- So does an action with another run bound, where nothing is moved. -/
theorem Still.lasts_withBinding (h : σ.Still) (binding : Option RunId) {act : Action α}
    (hact : Action.Keeps σ.Lasts act) : Action.Keeps σ.Lasts (withBinding binding act) := by
  have hbinding (binding : Option RunId) : binding = σ.binding (.free none) binding := by
    cases binding with
    | none => rfl
    | some id => exact congrArg some (h.run id).symm
  intro w hw
  have hentered : σ.Worlds (.free none) (w.enter binding) (w.enter binding) :=
    { hw with
      binding := hbinding binding
      keeps := hw.keeps.of_eq rfl rfl rfl }
  obtain ⟨hgrows, hafter⟩ := hact _ hentered
  rw [run_withBinding]
  refine ⟨{ hgrows with strays_le := ?_, binding := rfl }, { hafter with
    binding := hbinding w.binding
    keeps := hafter.keeps.of_eq rfl rfl rfl }⟩
  have henter : (w.enter binding).strays = w.strays := strays_append w rfl
  have hleave (w' : World) : (w'.leave w.binding).strays = w'.strays := strays_append w' rfl
  rw [hleave, ← henter]
  exact hgrows.strays_le

/-- So does a round of continuations. -/
theorem Still.lasts_runRound (h : σ.Still) {ev : Evaluator} (hev : ev.Follows role σ) :
    Action.Keeps σ.Lasts (runRound ev) := by
  have hjob (job : Job) : Action.Keeps σ.Lasts (runJob ev job) := by
    refine h.lasts_withBinding job.binding ((lasts_stepwise σ).tryCatch ?_ fun _ =>
      (lasts_stepwise σ).pure _)
    have := h.fits job.scene.realm
    have hblock := Evaluator.innerBlock_follows hev job.scene job.body
    rw [h.scene, Shift.stmts_eq h.value] at hblock
    exact lasts_of_follows hblock
  have hjobs (jobs : List Job) : Action.Keeps σ.Lasts (runJobs ev jobs) := by
    induction jobs with
    | nil => exact (lasts_stepwise σ).pure _
    | cons job rest ih => exact (lasts_stepwise σ).bind (hjob job) fun _ => ih
  refine (lasts_stepwise σ).bind (fun w hw => ⟨{ Grows.refl w with }, ?_⟩) hjobs
  exact { hw with keeps := hw.keeps.of_eq rfl rfl rfl }

/-- So does the reading of a source. -/
theorem Still.lasts_reading (h : σ.Still) {ev : Evaluator} (hev : ev.Follows role σ) (host : Host)
    (source : Source) : Action.Keeps σ.Lasts (reading host ev source) := by
  have hreading := Execution.reading_follows hev host source
  rw [show σ.source source = source from Execution.load.inj ((Execution.load source).moved_eq h)]
    at hreading
  exact lasts_of_follows hreading

/-- So does a script that is equipped for its run. -/
theorem Still.lasts_equip (h : σ.Still) {ev : Evaluator} (hev : ev.Follows role σ) (host : Host)
    (script : CompiledScript) (id : RunId) : Action.Keeps σ.Lasts (equip host ev script id) := by
  have hequip : Follows role σ σ.scene (equip host ev script id) (equip host ev script id) := by
    refine newRealm_bind_follows fun realm hrealm => ?_
    have hglobal := globalObject_follows hev host realm id
    rw [h.realm, h.run] at hglobal
    rw [h.realm]
    refine .bind hglobal fun global => ?_
    let scene : Scene := ⟨[], global.ref?, realm, false⟩
    have hblock : Follows role σ σ.scene (openBlock scene script.body >>= pure)
        (openBlock (σ.scene scene) (σ.stmts script.body) >>= pure) :=
      openBlock_bind_follows fun inner _ _ => .pure σ.scene inner
    rw [h.value]
    rwa [h.scene, stmts_eq h.value, bind_pure] at hblock
  exact lasts_of_follows hequip

/-- So does every turn of a session that stays within its own objects. -/
theorem Still.lasts_turn (h : σ.Still) {host : Host} {n : Nat} {t : Turn} (hstays : t.Stays)
    (hperforms : ∀ scene body, t = .performs scene body → σ.Inner scene) :
    Action.Keeps σ.Lasts (t.action host (evaluator host n)) := by
  have hev := evaluator_follows host σ n
  have hlaw := lasts_stepwise σ
  -- each turn follows itself under the shift, whose values, scripts and runs are those that it
  -- began with
  cases t with
  | executes e =>
    have hexecution := e.action_follows hev host
    rw [e.moved_eq h] at hexecution
    exact hlaw.bind (lasts_of_follows hexecution) fun _ => hlaw.pure _
  | reads source =>
    exact hlaw.bind (h.lasts_reading hev host source) fun _ => hlaw.pure _
  | continues => exact h.lasts_runRound hev
  | begins script =>
    have hbegin : Follows host.role σ id ((Turn.begins script).action host (evaluator host n))
        ((Turn.begins script).action host (evaluator host n)) :=
      beginScope_bind_follows fun _ _ => .pure id ()
    exact lasts_of_follows hbegin
  | opens script id =>
    have hopen := openRun_follows hev host script id
    rw [h.run] at hopen
    exact lasts_of_follows hopen
  | equips script id => exact hlaw.bind (h.lasts_equip hev host script id) fun _ => hlaw.pure _
  | evaluates scene e =>
    have hexpr := hev.expr scene e (h.fits scene.realm)
    rw [h.scene, expr_eq h.value] at hexpr
    exact hlaw.bind (lasts_of_follows hexpr) fun _ => hlaw.pure _
  | performs scene body =>
    have hblock := hev.block scene body (h.fits scene.realm) (hperforms scene body rfl)
    rw [h.scene, stmts_eq h.value] at hblock
    exact lasts_of_follows hblock
  | calls callee this arguments =>
    have hcall := hev.call callee this arguments
    rw [h.value, h.value, h.value_eq, List.map_id] at hcall
    exact hlaw.bind (lasts_of_follows hcall) fun _ => hlaw.pure _
  | binds | ends | joins => exact hstays.elim

end Shift

namespace World

variable {w₀ w : World}

/-- Nothing is moved: what is made comes after all that is there, but for the variables of
scripts. -/
def rest (w₀ w : World) (h : Domain.bound ≤ w.heap.size) : Shift where
  objects := w.heap.size
  objectsBy := 0
  frames := w₀.frames.size
  framesBy := 0
  runs := w.scopes.tasks.size
  runsBy := 0
  bound := h

/-- The shift that sets the rest of a world aside moves nothing. -/
theorem rest_still (w₀ w : World) (h : Domain.bound ≤ w.heap.size) : (w₀.rest w h).Still :=
  ⟨rfl, rfl, rfl⟩

/-- A world that grew from one that is set up has the objects of the domain. -/
theorem Untouched.bound (h₀ : w₀.SetUp) (hw : w₀.Untouched w) : Domain.bound ≤ w.heap.size :=
  Nat.le_trans h₀.bound hw.heap_le

/-- Where the engine stands untouched, it is known what an action leaves as it was. -/
theorem Untouched.grows (h₀ : w₀.SetUp) (hw : w₀.Untouched w) {α : Type} {act : Action α}
    (hact : Action.Keeps (w₀.rest w (hw.bound h₀)).Lasts act) :
    (w₀.rest w (hw.bound h₀)).Grows w (ExceptT.run act w).2 ∧
      (w₀.rest w (hw.bound h₀)).Worlds (.free none) (ExceptT.run act w).2
        (ExceptT.run act w).2 := by
  have hbeyond : (w₀.rest w (hw.bound h₀)).Beyond w₀ := ⟨hw.heap_le, Nat.le_refl _, hw.runs_le⟩
  exact hact w ((rest_still w₀ w _).worlds (Nat.le_refl _) hw.frames_le (Nat.le_refl _)
    (hw.bus ▸ (h₀.keeps hbeyond).ordered))

/-- The engine stands untouched after an action that spares what was set up. -/
theorem Untouched.of_lasts (h₀ : w₀.SetUp) (hw : w₀.Untouched w) {α : Type} {act : Action α}
    (hact : Action.Keeps (w₀.rest w (hw.bound h₀)).Lasts act)
    (hspares : w₀.Spares (ExceptT.run act w).2) : w₀.Untouched (ExceptT.run act w).2 := by
  -- the action adds objects, frames and runs behind those that are there, and changes none of them
  -- unless it changes what was set up, which it spares
  obtain ⟨hgrows, hafter⟩ := hw.grows h₀ hact
  have hheap : w.heap.size ≤ _ := hafter.heaps.objects_le
  have hruns : w.scopes.tasks.size ≤ _ := hafter.runs_le
  exact
    { heap_le := Nat.le_trans hw.heap_le hheap
      object := hspares.object
      frames_le := hafter.frames_le
      frame := fun f hf => (hgrows.frame f hf).trans (hw.frame f hf)
      runs_le := Nat.le_trans hw.runs_le hruns
      isOpen := fun id hid =>
        (hgrows.isOpen id (Nat.lt_of_lt_of_le hid hw.runs_le)).trans (hw.isOpen id hid)
      mappings := hspares.mappings
      types := hgrows.types.trans hw.types
      resources := hgrows.resources.trans hw.resources
      files := hgrows.files.trans hw.files
      bus := hgrows.bus.trans hw.bus
      clock := hgrows.clock.trans hw.clock
      joining := fun r hr => by
        rw [hgrows.joining] at hr
        obtain ⟨hle, hlt⟩ := hw.joining r hr
        exact ⟨hle, Nat.lt_of_lt_of_le hlt hheap⟩
      begun := fun id hid => by
        rw [hgrows.binding] at hid
        exact Nat.lt_of_lt_of_le (hw.begun id hid) hruns }

/-- The engine stands untouched whatever run is bound. -/
theorem Untouched.binds (hw : w₀.Untouched w) {binding : Option RunId}
    (hbegun : ∀ id ∈ binding, id < w.scopes.tasks.size) : w₀.Untouched (w.enter binding) :=
  { hw with begun := hbegun }

/-- The engine stands untouched where a later run has ended. -/
theorem Untouched.ends (hw : w₀.Untouched w) {id : RunId} (hid : w₀.scopes.tasks.size ≤ id)
    (script : Text) (well : Bool) : w₀.Untouched (w.endRun id script well) :=
  { hw with
    runs_le := by
      show _ ≤ (w.scopes.finish id).2.tasks.size
      rw [Scopes.size_finish]
      exact hw.runs_le
    isOpen := fun other hother => by
      have hne : ¬ other = id := Nat.ne_of_lt (Nat.lt_of_lt_of_le hother hid)
      refine Eq.trans ?_ (hw.isOpen other hother)
      show ((w.scopes.finish id).2.open? other).isSome = (w.scopes.open? other).isSome
      rw [Scopes.open?_finish, if_neg hne]
    begun := fun other hother => by
      show other < (w.scopes.finish id).2.tasks.size
      rw [Scopes.size_finish]
      exact hw.begun other hother }

/-- A turn that spares the setup leaves it untouched. -/
theorem Untouched.after {host : Host} {n : Nat} {t : Turn} (h₀ : w₀.SetUp) (hw : w₀.Untouched w)
    (hapt : t.Apt w₀ w) (hspares : w₀.Spares (t.after host n w)) :
    w₀.Untouched (t.after host n w) := by
  by_cases hstays : t.Stays
  · refine hw.of_lasts h₀ ((rest_still w₀ w _).lasts_turn hstays ?_) hspares
    rintro scene body rfl
    exact hapt
  · cases t with
    | binds binding => exact hw.binds hapt
    | ends id script well => exact hw.ends hapt script well
    | joins lists => exact { hw with joining := hapt }
    | _ => exact absurd trivial hstays

/-- The engine that was set up stands untouched in all the worlds that it comes to. -/
theorem Reaches.untouched {host : Host} (h₀ : w₀.SetUp) (hw : w₀.Reaches host w) :
    w₀.Untouched w := by
  induction hw with
  | start => exact h₀.untouched
  | turn n t _ hapt hspares ih => exact ih.after h₀ hapt hspares

end World

/-! ## Scripts keep apart -/

namespace World

variable {w₀ w : World}

/-- Whatever is carried out comes out as it does alone. -/
theorem Untouched.executes {host : Host} {n : Nat} {e : Execution} (h₀ : w₀.SetUp)
    (hw : w₀.Untouched w)
    (he : e.Within w₀) (hshields : Shields host.role w₀ (e.action host (evaluator host n)) w) :
    SameSince w₀ Shift.environment (ExceptT.run (e.action host (evaluator host n)) w₀)
      (ExceptT.run (e.action host (evaluator host n)) w) := by
  refine hw.sameSince h₀ (fun {σ} hσ => ?_) hshields
  have hfollows := e.action_follows (evaluator_follows host σ n) host
  rwa [he σ hσ] at hfollows

/-- Whatever is read comes out as it does alone. -/
theorem Untouched.reads {host : Host} {n : Nat} {source : Source} (h₀ : w₀.SetUp)
    (hw : w₀.Untouched w) (hsource : (Execution.load source).Within w₀)
    (hshields : Shields host.role w₀ (reading host (evaluator host n) source) w) :
    SameSince w₀ Shift.program (ExceptT.run (reading host (evaluator host n) source) w₀)
      (ExceptT.run (reading host (evaluator host n) source) w) := by
  refine hw.sameSince h₀ (fun {σ} hσ => ?_) hshields
  have hfollows := Execution.reading_follows (evaluator_follows host σ n) host source
  rwa [Execution.load.inj (hsource σ hσ)] at hfollows

/-- A program that was read names only what was set up. -/
theorem Untouched.within_of_reading {host : Host} {n : Nat} {source : Source} {program : Program}
    (h₀ : w₀.SetUp) (hw : w₀.Untouched w) (hsource : (Execution.load source).Within w₀)
    (h : (ExceptT.run (reading host (evaluator host n) source) w).1 = .ok program) :
    (Execution.finish source.scriptName program).Within w₀ := by
  obtain ⟨_, w', hlog, hread⟩ := bind_eq_ok (pair_eq h)
  rw [logLoading, run_bind_ok (run_get w)] at hlog
  intro σ hσ
  -- the source is read among the files that were laid out
  have hlasts := Shift.lasts_of_follows (log_follows
    (evaluator_follows host (w₀.rest w (hw.bound h₀)) n) host.loggers.engine .debug "Loading script"
    [("source", Value.text (source.label w.files))] [("source", Value.text (source.label w.files))])
  have hgrows := (hw.grows h₀ hlasts).1
  rw [hlog] at hgrows
  have hkeeps : σ.Keeps w' := (h₀.keeps hσ).of_eq (hgrows.types.trans hw.types)
    (hgrows.files.trans hw.files) (hgrows.bus.trans hw.bus)
  exact congrArg (Execution.finish source.scriptName)
    (program_of_readSource hkeeps (Execution.load.inj (hsource σ hσ)) hread)

end World

/-- Scripts that spare what was set up keep apart on an engine. -/
structure KeepsApart (host : Host) (w₀ : World) : Prop where
  /-- Whatever turns it has taken, the engine stands untouched if they spared what was set up. -/
  untouched : ∀ {w : World}, w₀.Reaches host w → w₀.Untouched w
  /-- Where the engine stands untouched, whatever is carried out comes out as it does alone. -/
  executes : ∀ {w : World}, w₀.Untouched w → ∀ (n : Nat) (e : Execution), e.Within w₀ →
    World.Shields host.role w₀ (e.action host (evaluator host n)) w →
    SameSince w₀ Shift.environment (ExceptT.run (e.action host (evaluator host n)) w₀)
      (ExceptT.run (e.action host (evaluator host n)) w)
  /-- So does the reading of a source, and the program that it answers names only what was set
  up. -/
  reads : ∀ {w : World}, w₀.Untouched w → ∀ (n : Nat) (source : Source),
    (Execution.load source).Within w₀ →
    World.Shields host.role w₀ (reading host (evaluator host n) source) w →
    SameSince w₀ Shift.program (ExceptT.run (reading host (evaluator host n) source) w₀)
        (ExceptT.run (reading host (evaluator host n) source) w) ∧
      ∀ program, (ExceptT.run (reading host (evaluator host n) source) w).1 = .ok program →
        (Execution.finish source.scriptName program).Within w₀
  /-- A load comes out as the rest of it does after its source was read. -/
  loads : ∀ (n : Nat) (source : Source) (program : Program), (Execution.load source).Within w₀ →
    (ExceptT.run (reading host (evaluator host n) source) w₀).1 = .ok program →
    w₀.Spares (ExceptT.run (reading host (evaluator host n) source) w₀).2 →
    SameSince w₀ Shift.environment
      (ExceptT.run ((Execution.finish source.scriptName program).action host (evaluator host n)) w₀)
      (ExceptT.run (Action.load host (evaluator host n) source) w₀)

/-- Scripts keep apart on every engine that was set up. -/
theorem keepsApart (host : Host) {w₀ : World} (h₀ : w₀.SetUp) : KeepsApart host w₀ where
  untouched hw := hw.untouched h₀
  executes hw _ _ he hshields := hw.executes h₀ he hshields
  reads hw _ _ hsource hshields :=
    ⟨hw.reads h₀ hsource hshields, fun _ hprogram => hw.within_of_reading h₀ hsource hprogram⟩
  loads n source program hsource hprogram hspares := by
    have hfinish := h₀.untouched.within_of_reading h₀ hsource hprogram
    have hreading := (World.rest_still w₀ w₀ (h₀.untouched.bound h₀)).lasts_reading
      (evaluator_follows host _ n) host source
    have hbinding := (h₀.untouched.grows h₀ hreading).1.binding
    have hafter := h₀.untouched.of_lasts h₀ hreading hspares
    rw [Execution.load_eq, run_bind, pair_eq hprogram]
    refine hafter.executes h₀ hfinish (.inl ?_)
    rw [hbinding, h₀.binding]
    rfl

/-- The engine where a script is being carried out. -/
def enclosed (w : World) : World :=
  (Turn.binds (some w.scopes.tasks.size)).after printingHost 0
    ((Turn.begins "outer").after printingHost 0 w)

/-- The world with a script inside is reached by a session. -/
theorem enclosed_reached (w : World) : w.Reaches printingHost (enclosed w) := by
  have hbegun : w.Reaches printingHost ((Turn.begins "outer").after printingHost 0 w) :=
    .turn 0 _ .start trivial ⟨fun _ _ => rfl, rfl⟩
  refine .turn 0 _ hbegun (fun id hid => ?_) ⟨fun _ _ => rfl, rfl⟩
  cases hid
  show _ < w.scopes.start.2.tasks.size
  rw [Scopes.size_start]
  exact Nat.lt_succ_self _

/-- A script that declares a task and answers a type. -/
def plan : Program :=
  .block [.perform (.task (.record [("name", .const (.text "rmse"))]))]
    (some (.type (.const (.text Kin.metric.fullName))))

/-- An engine that knows a type, a builder for it, and a file that holds a script. -/
def preparedWorld : World :=
  let w := World.initial Domain.heap
  let w := { w with
    types := { w.types with table := w.types.table.put Kin.metric.fullName (.ref Kin.metric.ref) } }
  let w := { w with mappings := w.mappings.put (.ref Kin.metric.ref) (.ref Kin.metricBuilder.ref) }
  { w with resources := .listed [], files := ⟨[("/plan", .script plan)], "/"⟩ }

/-- The prepared world is set up. -/
theorem preparedWorld_setUp : preparedWorld.SetUp := by
  have hkin {σ : Shift} (k : Kin) : σ.value (.ref k.ref) = .ref k.ref :=
    congrArg Value.ref (σ.ref_kin k)
  refine ((World.setUp_initial.define _ fun _ => hkin .metric).register
    fun _ => ⟨hkin .metric, hkin .metricBuilder⟩).layOut _ fun p program hmem σ _ => ?_
  cases List.mem_singleton.mp hmem
  rfl

/-- A script that another one has loaded comes out as it does alone. -/
theorem keepsApart_prepared :
    preparedWorld.Reaches printingHost (enclosed preparedWorld) ∧
      (ExceptT.run ((Execution.load (.file "/plan")).action printingHost (evaluator printingHost 9))
        preparedWorld).1.toBool = true ∧
      SameSince preparedWorld Shift.environment
        (ExceptT.run ((Execution.load (.file "/plan")).action printingHost (evaluator printingHost 9))
          preparedWorld)
        (ExceptT.run ((Execution.load (.file "/plan")).action printingHost (evaluator printingHost 9))
          (enclosed preparedWorld)) := by
  have hkeeps := keepsApart printingHost preparedWorld_setUp
  have hreached := enclosed_reached preparedWorld
  refine ⟨hreached, by decide +kernel, ?_⟩
  exact hkeeps.executes (hkeeps.untouched hreached) 9 _ (fun _ _ => rfl)
    (.inr ⟨rfl, by decide +kernel⟩)

/-! ### Tasks that stray -/

/-- Scripts that come out the same throw the same kinds of errors. -/
theorem Action.SameSince.thrownKind? {α : Type} {w₀ : World} {f : Shift → α → α}
    {p q : Except Value α × World} (h : SameSince w₀ f p q) : thrownKind? q = thrownKind? p := by
  obtain ⟨σ, -, hresult, hheaps⟩ := h
  unfold Action.thrownKind?
  rw [hresult]
  cases p.1 with
  | ok => rfl
  | error v => exact hheaps.errorKind? v

/-- A script that throws an object. The function that puts the object into words declares a task. -/
def strayScript : Program :=
  .block [.raise (.record [("toString", .function "x"
    [.perform (.engine "registerTask" [.record [("name", .const (.text "a"))]])]
    (some (.const (.text "t"))))])] none

/-- An engine with a listener that throws, whenever a task is taken, what cannot be put into
words. -/
def rejectingWorld : World :=
  let w := World.initial Domain.heap
  let w := { w with heap := w.heap.push (Object.empty .plain none) }
  { w with bus := w.bus.subscribe "task:registered" ⟨0, .fail (.ref Domain.heap.size)⟩ }

/-- So is the world with a subscriber that throws. -/
theorem rejectingWorld_setUp : rejectingWorld.SetUp := by
  refine (World.setUp_initial.alloc fun {σ} _ => σ.object_plain rfl rfl).subscribe _ ?_
  rintro _ ⟨⟩ σ hσ
  have hsize : (Domain.heap.push (Object.empty .plain none)).size ≤ σ.objects := hσ.objects
  rw [Array.size_push] at hsize
  exact congrArg Value.ref (if_pos hsize)

/-- Alone, nothing takes the task and the script fails as it should. Within another script the task
is that one's, and what comes of telling the listener takes the place of the failure. -/
theorem strayTask_disturbs :
    ¬ ∀ (host : Host) (w₀ w : World), w₀.SetUp → w₀.Reaches host w → ∀ (n : Nat) (e : Execution),
      e.Within w₀ →
        SameSince w₀ Shift.environment (ExceptT.run (e.action host (evaluator host n)) w₀)
          (ExceptT.run (e.action host (evaluator host n)) w) := by
  intro hall
  have hsame := hall printingHost _ _ rejectingWorld_setUp (enclosed_reached _) 9
    (.nested "inner" strayScript) fun _ _ => rfl
  have halone : thrownKind? (ExceptT.run ((Execution.nested "inner" strayScript).action printingHost
      (evaluator printingHost 9)) rejectingWorld) = some .configuration := by decide +kernel
  have hthere : thrownKind? (ExceptT.run ((Execution.nested "inner" strayScript).action printingHost
      (evaluator printingHost 9)) (enclosed rejectingWorld)) = some .type := by decide +kernel
  rw [hsame.thrownKind?, halone] at hthere
  cases hthere

end EvalPlan

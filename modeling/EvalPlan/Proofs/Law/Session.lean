import EvalPlan.Proofs.Law.Script

/-!
# Requests follow the rules

Loading scripts, running what they left for later and everything else that may be asked of an engine
follows the rules of its host: `Request.perform_holds` says so of every request.
-/

namespace EvalPlan

open Script (Program)

namespace Action

variable {T : Trait} {ev : Evaluator} {host : Host}

/-! ## Sources -/

section sources

variable (law : Rules host T) (hev : ev.Meets T)

include law hev

/-- A source that cannot be read is refused with what was thrown as the cause. -/
theorem refuseSource_holds {α : Type} (name : Text) (thrown : Value) :
    T.holds (refuseSource ev name thrown : Action α) :=
  law.bind (cause_holds law.toStable hev _) fun _ => law.refuse _

/-- Reading a program file answers its program or refuses the file. -/
theorem readProgramFile_holds (path : Text) : T.holds (readProgramFile ev path) := by
  unfold readProgramFile
  refine law.read (fun w => by simp only [World.readable, w.files.alike_canonical.read]) fun w => ?_
  split
  · exact law.bind (law.alloc (Object.holdsName_errorObject _ _ _)) fun _ =>
      refuseSource_holds law hev _ _
  · exact law.pure _
  · exact law.pure _
  · exact law.pure _

/-- Reading a source refuses at most a file that is missing or a stream that fails. -/
theorem readSource_holds (source : Source) : T.holds (readSource ev source) := by
  unfold readSource
  split
  · exact law.pure _
  · exact readProgramFile_holds law hev _
  · exact law.pure _
  · exact refuseSource_holds law hev _ _

/-- Loading a script is reading its source and compiling it. -/
theorem loadScript_holds (source : Source) : T.holds (loadScript host ev source) :=
  law.bind (readSource_holds law hev _) fun _ => compile_holds law.toStable hev law.loggers _ _

/-- Executing a script executes its body as a run. -/
theorem executeScript_holds (script : CompiledScript) : T.holds (executeScript host ev script) :=
  law.execute hev _ fun id => runBody_holds law.toStable hev script id

/-- That a script is being loaded is said in the log. -/
theorem logLoading_holds (source : Source) : T.holds (logLoading host ev source) := by
  have label (w : World) : source.label w.readable.files = source.label w.files := by
    cases source with
    | file path => exact w.files.alike_canonical.absolute path
    | _ => rfl
  exact law.read (fun w => by simp only [label]) fun _ =>
    log_holds law.toStable hev law.loggers.engine _ _ _

/-- Loading and running a script follows the rules of the host. -/
theorem load_holds (source : Source) : T.holds (load host ev source) :=
  law.bind (logLoading_holds law hev source) fun _ =>
    law.bind (loadScript_holds law hev _) fun script => executeScript_holds law hev script

end sources

/-! ## Continuations -/

section continuations

variable (law : Rules host T) (hev : ev.Meets T)

include law hev

/-- A continuation runs with its run bound, and what it throws ends only itself. -/
theorem runJob_holds (job : Job) : T.holds (runJob ev job) :=
  law.withBinding _ (law.tryCatch (Evaluator.innerBlock_holds law.toStable hev _ _) fun _ =>
    law.pure _)

/-- Continuations run one after another. -/
theorem runJobs_holds (jobs : List Job) : T.holds (runJobs ev jobs) := by
  induction jobs with
  | nil => exact law.pure _
  | cons job rest ih => exact law.bind (runJob_holds law hev _) fun _ => ih

/-- A round takes the queue and runs the continuations in it. -/
theorem runRound_holds : T.holds (runRound ev) :=
  law.bind (law.takeQueue) fun _ => runJobs_holds law hev _

/-- Draining the queue runs rounds, by induction on how many are allowed. -/
theorem drain_holds (n : Nat) : T.holds (drain ev n) := by
  -- the induction is on the rounds that may still follow
  induction n with
  | zero => exact law.pure _
  | succ n ih =>
    refine law.read (fun _ => rfl) fun w => ?_
    split
    · exact law.pure _
    · exact law.bind (runRound_holds law hev) fun _ => ih

/-- To settle is to drain the queue. -/
theorem settle_holds : T.holds (settle ev) := drain_holds law hev _

/-- What is waited for is done, and then a round of continuations runs, also if it threw. -/
theorem awaiting_holds {α : Type} {act : Action α} (h : T.holds act) : T.holds (awaiting ev act) :=
  law.bind (law.tryCatch h fun _ => law.bind (runRound_holds law hev) fun _ => law.throw _) fun _ =>
    law.bind (runRound_holds law hev) fun _ => law.pure _

end continuations

/-! ## The engine -/

section engine

variable (law : Rules host T) (hev : ev.Meets T)

include law hev

/-- Starting an engine provides its imports, loads the defaults and emits an event. -/
theorem startEngine_holds : T.holds (startEngine host ev) :=
  law.bind (law.newList _ _) fun _ => law.bind (law.provideImports _) fun _ =>
    law.bind (loadDefaults_holds law hev) fun _ => emit_none_holds law hev _ _

/-- Reading an environment off a value reads two properties. -/
theorem environmentOf_holds (v : Value) : T.holds (environmentOf ev v) := by
  unfold environmentOf
  refine law.bind (property_holds law.toStable hev _ _ _) fun _ =>
    law.bind (property_holds law.toStable hev _ _ _) fun _ => law.bind law.heap fun h => ?_
  split
  · exact law.pure _
  · exact law.typeError _

/-- A request is carried out by the engine, or by what a script put in the place of the
operation. -/
theorem request_holds (o : Operation) (arguments : List Value) {act : Action Environment}
    (h : T.holds act) : T.holds (request host ev o arguments act) := by
  have hown (callee engine : Value) : T.holds (do
      environmentOf ev (← callProperty ev .main callee engine arguments)) :=
    law.bind (callProperty_holds law.toStable hev _ _ _ _) fun _ => environmentOf_holds law hev _
  unfold request
  refine law.bind (property_holds law.toStable hev _ _ _) fun callee =>
    law.bind law.heap fun heap => ?_
  -- the operation itself does what is asked; anything else in its place is called
  split
  · split
    · exact law.bind h fun _ => law.pure _
    · exact hown _ _
  · exact hown _ _

/-- A request to run a program follows the rules of the host. -/
theorem requestRun_holds (name : Text) (program : Program) :
    T.holds (requestRun host ev name program) :=
  request_holds law hev _ _ (runProgram_holds law hev _ _)

/-- So does a request to load a script. -/
theorem requestLoad_holds (source : Source) : T.holds (requestLoad host ev source) :=
  request_holds law hev _ _ (load_holds law hev _)

omit hev in
/-- A step that follows the rules may be taken by several loads. -/
theorem advance_holds {α β : Type} {step : α → Action β} (h : ∀ a, T.holds (step a))
    (loads : Loads α) : T.holds (advance step loads) := by
  induction loads with
  | nil => exact law.pure _
  | cons load rest ih =>
    obtain ⟨place, outcome⟩ := load
    cases outcome with
    | error thrown => exact law.bind ih fun _ => law.pure _
    | ok a =>
      exact law.bind (law.tryCatch (law.bind (h a) fun _ => law.pure _) fun _ => law.pure _)
        fun _ => law.bind ih fun _ => law.pure _

/-- Loads whose texts are there at once are compiled, executed, and followed by one round. -/
theorem loadAbreast_holds (loads : Loads Source) : T.holds (loadAbreast host ev loads) :=
  law.bind (advance_holds law (loadScript_holds law hev) _) fun _ =>
    law.bind (advance_holds law (executeScript_holds law hev) _) fun _ =>
      law.bind (runRound_holds law hev) fun _ => law.pure _

/-- Groups of loads are carried out one after another, each when nothing waits anymore. -/
theorem loadInTurn_holds (groups : List (Loads Source)) : T.holds (loadInTurn host ev groups) := by
  induction groups with
  | nil => exact law.pure _
  | cons group rest ih =>
    exact law.bind (settle_holds law hev) fun _ => law.bind (loadAbreast_holds law hev _) fun _ =>
      law.bind ih fun _ => law.pure _

/-- Loads that are started at once are all announced before any of them is carried out. -/
theorem loadTogether_holds (sources : List Source) : T.holds (loadTogether host ev sources) :=
  law.bind (advance_holds law (fun source => law.bind (logLoading_holds law hev source) fun _ =>
    law.pure _) _) fun _ => law.bind (loadInTurn_holds law hev _) fun _ => law.pure _

omit hev in
/-- Marking a class with a builder leaves a mark, or refuses the builder. -/
theorem markType_holds (type builder : Value) : T.holds (markType type builder) := by
  unfold markType
  refine law.bind law.heap fun h => ?_
  split
  · exact law.typeError _
  · split
    · exact law.typeError _
    · exact law.attach _ _

end engine

end Action

/-! ## Requests -/

namespace Request

open EvalPlan.Action

variable {T : Trait} {ev : Evaluator} {host : Host} (law : Rules host T)
  (hev : ev.Meets T)

include law hev

/-- Whatever is requested of the engine follows the rules of its host. -/
theorem perform_holds (defines : ∀ name type, T.holds (defineType name type)) (r : Request) :
    T.holds (r.perform host ev) := by
  cases r with
  | start => exact startEngine_holds law hev
  | load source =>
    exact law.bind (awaiting_holds law hev (requestLoad_holds law hev _)) fun _ => law.pure _
  | run name program => exact law.bind (requestRun_holds law hev _ _) fun _ => law.pure _
  | together sources => exact law.bind (loadTogether_holds law hev _) fun _ => law.pure _
  | ask o arguments => exact law.bind (askEngine_holds law hev _ _) fun _ => law.pure _
  | register type builder => exact register_holds law hev _ _
  | mark type builder => exact markType_holds law _ _
  | define name type => exact defines _ _

end Request

end EvalPlan

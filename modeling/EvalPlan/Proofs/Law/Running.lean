import EvalPlan.Proofs.Law.Keeping
import EvalPlan.Proofs.Run

/-!
# Laws of runs

A relation may hold within the script of a run that does not hold anywhere else: some marks may be
left there only. `RunSteps` takes a family of relations, one for code within each run and one for
code anywhere, and asks that the relation within a run turns into that for code anywhere once the
run has ended. This is enough for everything that an engine does but to take tasks. `RunLaw` asks
for that too, whatever is offered as a task.
-/

namespace EvalPlan.Action

/-- A family of relations between worlds, for code within the script of a run or for code
anywhere, that running scripts keeps apart from the tasks that they declare. -/
structure RunSteps (R : Option RunId → World → World → Prop) : Prop where
  steady : ∀ run, Steady (R run)
  onTypes : ∀ w types, R none w { w with types }
  within : ∀ {run w w'}, R none w w' → R run w w'
  observe : ∀ event s, Keeps (R none) (observe event s)
  enroll : ∀ type builder, Keeps (R none) (enroll type builder)
  attach : ∀ type builder, Keeps (R none) (attach type builder)
  provideImports : ∀ host imports, Keeps (R none) (provideImports host imports)
  withBinding : ∀ {α : Type} (binding : Option RunId) {act : Action α},
    Keeps (R none) act → Keeps (R none) (withBinding binding act)
  counted : ∀ id, Keeps (R (some id)) (countDiscarded id)
  undescribed : ∀ id, Keeps (R (some id)) (mark (.undescribed id))
  failed : ∀ id script message, Keeps (R (some id)) (mark (.failed id script message))
  /-- Code within a run that began and is given up. -/
  abandoned : ∀ {w w' script}, R (some w.scopes.tasks.size) (w.beginRun script) w' →
    R none w { w' with history := w'.history ++ [.abandoned w.scopes.tasks.size] }
  /-- Code within a run that began and ends. -/
  ended : ∀ {w w' script} (well : Bool), R (some w.scopes.tasks.size) (w.beginRun script) w' →
    R none w (w'.endRun w.scopes.tasks.size script well)

/-- Whatever is offered as a task keeps the relation for code anywhere, too. -/
structure RunLaw (R : Option RunId → World → World → Prop) : Prop extends RunSteps R where
  declareIn : ∀ id task, Keeps (R none) (declareIn id task)
  offer : ∀ task, Keeps (R none) (offer task)

namespace RunSteps

variable {R : Option RunId → World → World → Prop} (law : RunSteps R) {ev : Evaluator} {host : Host}

include law

/-- What keeps the relation anywhere keeps it within any run. -/
theorem keeps_within {α : Type} {act : Action α} (run : Option RunId) (h : Keeps (R none) act) :
    Keeps (R run) act := fun w => law.within (h w)

/-- What obeys the relation anywhere obeys it within a run. -/
theorem obeys_within (run : Option RunId) (hev : ev.Obeys (R none)) :
    ev.Obeys (R run) := hev.mono law.within

variable (hev : ev.Obeys (R none))

include hev

/-- What is announced and logged when a run is opened. -/
theorem opening (run : Option RunId) (host : Host) (script : Text) (id : RunId) : Keeps (R run) (do
    announceStarted host ev script id
    log ev host.loggers.runner .debug "Running script"
      [("script", Value.text script), ("runId", .run id)]) := by
  have hsteady := law.steady run
  have hwithin := law.obeys_within run hev
  exact hsteady.bind
    (announceStarted_keeps hsteady hwithin (fun event s => law.keeps_within _ (law.observe event s))
      host _ _)
    fun _ => log_keeps hsteady hwithin _ _ _ _

/-- Opening a run that is opened keeps the relation, within whichever run one counts it. -/
theorem openRun_ok (run : Option RunId) {script : Text} {id : RunId} {w w' : World}
    (h : ExceptT.run (openRun host ev script id) w = (.ok ⟨⟩, w')) : R run w w' := by
  have hopened := law.opening hev run host script id w
  rw [openRun, run_markingThrow] at h
  -- the run was opened, or it was given up with a mark
  split at h
  next heq =>
    rw [heq] at hopened
    cases h
    exact hopened
  next => cases h

/-- A run that cannot be opened is given up. -/
theorem openRun_error (run : Option RunId) {script : Text} {id : RunId} {w w' : World} {v : Value}
    (h : ExceptT.run (openRun host ev script id) w = (.error v, w')) :
    ∃ w₁, R run w w₁ ∧ w' = { w₁ with history := w₁.history ++ [.abandoned id] } := by
  have hopened := law.opening hev run host script id w
  rw [openRun, run_markingThrow] at h
  split at h
  next => cases h
  next heq =>
    rw [heq] at hopened
    cases h
    exact ⟨_, hopened, rfl⟩

/-- Failing a run keeps the relation within the run. -/
theorem failRun {α : Type} (host : Host) (script : Text) (id : RunId) (thrown : Value) :
    Keeps (R (some id)) (failRun host ev script id thrown : Action α) :=
  failRun_keeps (law.steady (some id)) (law.obeys_within (some id) hev)
    (fun event s => law.keeps_within _ (law.observe event s)) host (law.undescribed id)
      (law.counted id)
    (law.failed id) script thrown

/-- The script of a run keeps the relation within the run, however it comes out. -/
theorem carryOut (host : Host) (script : Text) (id : RunId) {body : Action Value}
    (hbody : Keeps (R none) body) :
    Keeps (R (some id)) (carryOut host ev script id body) :=
  (law.steady (some id)).tryCatch (law.keeps_within _ (law.withBinding (some id) hbody))
    fun thrown =>
    law.failRun hev host script id thrown

/-- The end of a run is announced outside of it. -/
theorem announceCompleted (host : Host) (script : Text) (id : RunId) (e : Environment) :
    Keeps (R none) (announceCompleted host ev script id e) :=
  announceCompleted_keeps (law.steady none) hev law.observe host script id e

/-- A whole run keeps the relation for code anywhere, however it comes out. -/
theorem execute (host : Host) (script : Text) {body : RunId → Action Value}
    (hbody : ∀ id, Keeps (R none) (body id)) : Keeps (R none) (execute host ev script body) := by
  intro w
  rw [run_execute]
  -- the script may not be reached, it may fail, and its end may not be announced
  split
  next hopen =>
    obtain ⟨w₁, hopened, rfl⟩ := law.openRun_error hev _ hopen
    exact law.abandoned hopened
  next hopen =>
    have hinside := (law.steady _).trans (law.openRun_ok hev _ hopen)
      (law.carryOut hev host script w.scopes.tasks.size (hbody w.scopes.tasks.size) _)
    split
    next hcarry =>
      rw [hcarry] at hinside
      exact law.ended false hinside
    next result w₃ hcarry =>
      rw [hcarry] at hinside
      have hended := (law.steady none).trans (law.ended true hinside)
        (law.announceCompleted hev host script w.scopes.tasks.size
          ⟨(w₃.scopes.finish w.scopes.tasks.size).1, result⟩ _)
      split
      next h =>
        rw [h] at hended
        exact hended
      next h =>
        rw [h] at hended
        exact hended

omit hev

/-- Everything that an engine does keeps the relation for code anywhere, if the ways to declare a
task do. -/
theorem onHost (host : Host)
    (hsilent : host.role = .bench → ∀ task, Keeps (R none) (registerSilently task))
    (hregister : ∀ {ev : Evaluator}, ev.Obeys (R none) → ∀ task,
      Keeps (R none) (registerTask host ev task))
    (hverb : ∀ {ev : Evaluator}, ev.Obeys (R none) → ∀ id onTask task,
      Keeps (R none) (taskVerb host ev id onTask task)) : Law host (R none) where
  toSteady := law.steady none
  onTypes := law.onTypes
  withBinding binding _ h := law.withBinding binding h
  provideImports imports := law.provideImports host imports
  enroll := law.enroll
  attach := law.attach
  observe event s _ := law.observe event s
  registerSilently := hsilent
  registerTask := hregister
  taskVerb := hverb
  execute hev script _ hbody := law.execute hev host script hbody

end RunSteps

/-- Everything that an engine does keeps the relation for code anywhere. -/
theorem RunLaw.onHost {R : Option RunId → World → World → Prop} (law : RunLaw R) (host : Host) :
    Law host (R none) :=
  law.toRunSteps.onHost host
    (fun _ task => (law.steady none).bind (law.offer task) fun _ => (law.steady none).pure _)
    (fun hev task => registerTask_keeps (law.steady none) hev law.observe host law.offer task)
    fun hev id onTask task =>
      taskVerb_keeps (law.steady none) hev law.observe host law.declareIn id onTask task

end EvalPlan.Action

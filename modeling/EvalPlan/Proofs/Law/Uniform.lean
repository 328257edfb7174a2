import EvalPlan.Proofs.Law.Announcing

/-!
# Traits of every step

Some properties of actions make no difference between what is done within a run and what is done
anywhere: each of the steps has them by which runs begin and end, tasks are taken and events are
published. `Uniform.rules` says that such a trait follows the rules of its host, so that everything
has it that the engine does.
-/

namespace EvalPlan

/-- The mark is about runs or events, and not about objects or builders. -/
def Mark.isPassing : Mark → Bool
  | .registered _ _ _ => false
  | .marked _ _ => false
  | .altered _ => false
  | _ => true

namespace Action

/-- A property of actions that each step has, within runs and outside of them. -/
structure Uniform (host : Host) (T : Trait) : Prop extends Stable T where
  loggers : T.PermitsAll host.loggers
  mark : ∀ {m : Mark}, m.isPassing = true → T.holds (mark m)
  withBinding : ∀ {α : Type} (binding : Option RunId) {act : Action α},
    T.holds act → T.holds (withBinding binding act)
  beginScope : ∀ script, T.holds (beginScope script)
  endingScope : ∀ {α : Type} (id : RunId) (script : Text) {act : Action α},
    T.holds act → T.holds (endingScope id script act)
  countDiscarded : ∀ id, T.holds (countDiscarded id)
  declareIn : ∀ id task, T.holds (declareIn id task)
  offer : ∀ task, T.holds (offer task)
  enroll : ∀ type builder, T.holds (enroll type builder)
  attach : ∀ type builder, T.holds (attach type builder)
  provideImports : ∀ imports, T.holds (provideImports host imports)
  publish : ∀ {ev : Evaluator}, ev.Meets T → ∀ type data run,
    T.holds (publish host ev type data run)

namespace Uniform

variable {host : Host} {T : Trait} (law : Uniform host T) {ev : Evaluator} (hev : ev.Meets T)

include law hev

/-- Opening a run has the trait. -/
theorem openRun (script : Text) (id : RunId) : T.holds (openRun host ev script id) :=
  markingThrow_holds law.toStable (law.mark rfl)
    (law.bind (announceStarted_holds law.toStable hev (law.publish hev) _ _) fun _ =>
      log_holds law.toStable hev law.loggers.runner _ _ _)

/-- Carrying out what a script does has the trait, also where the run fails. -/
theorem carryOut (script : Text) (id : RunId) {body : Action Value} (hbody : T.holds body) :
    T.holds (carryOut host ev script id body) :=
  law.tryCatch (law.withBinding _ hbody) fun _ =>
    failRun_holds law.toStable hev law.loggers (law.publish hev) (law.mark rfl)
      (law.countDiscarded id) (fun _ _ => law.mark rfl) _ _

/-- A whole run has the trait. -/
theorem execute (script : Text) {body : RunId → Action Value} (hbody : ∀ id, T.holds (body id)) :
    T.holds (execute host ev script body) :=
  law.bind (law.beginScope script) fun id => law.bind (law.openRun hev script id) fun _ =>
    law.bind (law.endingScope id script (law.carryOut hev script id (hbody id))) fun _ =>
      law.bind (announceCompleted_holds law.toStable hev (law.publish hev) _ _ _) fun _ =>
        law.pure _

omit hev

/-- Where every step has a trait, everything has it that an engine does for scripts. -/
theorem rules : Rules host T where
  toStable := law.toStable
  loggers := law.loggers
  withBinding := law.withBinding
  provideImports := law.provideImports
  enroll := law.enroll
  attach := law.attach
  publish hev type data := law.publish hev type data none
  registerSilently _ task := law.bind (law.offer task) fun _ => law.pure _
  registerTask hev task := registerTask_holds law.toStable hev law.loggers (law.publish hev)
    law.offer task
  taskVerb hev id onTask task :=
    taskVerb_holds law.toStable hev (law.publish hev) law.declareIn id onTask task
  execute hev script _ hbody := law.execute hev script hbody

end Uniform

end Action

end EvalPlan

import EvalPlan.Proofs.Law.Session

/-!
# Runs that are announced

The rules of a host need not be followed by every step of a run: a run that is announced leaves
marks that only make sense together. Where publishing has a trait whatever is told, though, whatever
announces runs and tasks has it too, and this module says so.
-/

namespace EvalPlan.Action

variable {T : Trait} {ev : Evaluator}

/-- An action that leaves a mark where it throws has a trait that the action and the mark have. -/
theorem markingThrow_holds {α : Type} (law : Stable T) {m : Mark} (hmark : T.holds (mark m))
    {act : Action α}
    (h : T.holds act) : T.holds (markingThrow m act) :=
  -- the mark is left where the action stopped, and what it threw is thrown again
  law.tryCatch h fun _ => law.bind hmark fun _ => law.throw _

section announcing

variable (law : Stable T) (hev : ev.Meets T) {host : Host} (logs : T.PermitsAll host.loggers)
  (hpublish : ∀ type data run, T.holds (publish host ev type data run))

include law

/-- Noting a moment of a run reads its scope and leaves a note. -/
theorem noteMoment_holds (moment : Text) (subject : Portrait) (id : RunId) (more : List Portrait) :
    T.holds (noteMoment moment subject id more) :=
  law.read (fun _ => rfl) fun _ => law.note rfl rfl rfl

/-- The size of a scope is read. -/
theorem sizePortrait_holds (id : RunId) :
    T.holds (sizePortrait id) := law.read (fun _ => rfl) fun _ => law.pure _

/-- A script is shown to listeners by two new objects. -/
theorem scriptObject_holds (script : Text) : T.holds (scriptObject script) :=
  law.bind (law.record _ _) fun _ => law.record _ _

/-- A scope is shown to listeners by an object whose state is computed; it has no name. -/
theorem scopeObject_holds (id : RunId) : T.holds (scopeObject id) := by
  refine law.bind (law.alloc (Object.holdsName_function _ _ _ _)) fun isActive => law.alloc ?_
  intro row hrow hname
  simp only [List.mem_cons, List.not_mem_nil, or_false] at hrow
  rcases hrow with rfl | rfl
  · rfl
  · exact absurd (show Text.ofString "active" = Text.ofString "name" from hname) (by decide)

/-- To call what a listener inherits has every trait that making up the arguments has. -/
theorem callInherited_holds (hev : ev.Meets T) (name : Text) {arguments : Action (List Value)}
    (h : T.holds arguments) : T.holds (callInherited ev name arguments) := by
  unfold callInherited
  refine law.bind (inheritedCallback_holds law hev _) fun inherited => ?_
  split
  · exact law.pure _
  · exact law.bind (law.record _ _) fun _ => law.bind h fun _ =>
      law.bind (callProperty_holds law hev _ _ _ _) fun _ => law.pure _

include hev hpublish

/-- Where publishing has a trait whatever is told, so has emitting. -/
theorem emit_any_holds (type : Text) (fields : List (Text × Datum)) (run : Option RunId) :
    T.holds (emit host ev type fields run) :=
  emit_holds law hev host type fields run fun data => hpublish type data run

/-- Announcing that a run has begun calls, notes, throws or emits, as the listener wants it. -/
theorem announceStarted_holds (script : Text) (id : RunId) :
    T.holds (announceStarted host ev script id) := by
  unfold announceStarted
  split
  · exact callInherited_holds law hev _ (law.bind (scriptObject_holds law _) fun _ =>
      law.bind (scopeObject_holds law _) fun _ => law.pure _)
  · exact law.bind (sizePortrait_holds law _) fun _ => noteMoment_holds law _ _ _ _
  · exact law.crash _ _
  · exact law.crash _ _
  · exact emit_any_holds law hev hpublish _ _ _

/-- Announcing a task has the trait too; what the verb holds is called where there is no
listener. -/
theorem announceTask_holds (id : RunId) (onTask task : Value) :
    T.holds (announceTask host ev id onTask task) := by
  unfold announceTask
  split
  · -- nobody listens but what the verb of the run holds
    split
    · exact law.pure _
    · exact law.bind (scopeObject_holds law _) fun _ =>
        law.bind (callProperty_holds law hev _ _ _ _) fun _ => law.pure _
  · exact law.bind (nameOf_holds law hev _) fun _ => law.bind law.heap fun _ =>
      law.bind (sizePortrait_holds law _) fun _ => noteMoment_holds law _ _ _ _
  · exact law.crash _ _
  · exact law.crash _ _
  · exact law.bind (nameOf_holds law hev _) fun _ => emit_any_holds law hev hpublish _ _ _

/-- Announcing that a run has ended well has the trait. -/
theorem announceCompleted_holds (script : Text) (id : RunId) (e : Environment) :
    T.holds (announceCompleted host ev script id e) := by
  unfold announceCompleted
  split
  · exact callInherited_holds law hev _ (law.bind (scriptObject_holds law _) fun _ =>
      law.bind (scopeObject_holds law _) fun _ =>
        law.bind (environmentValue_holds law _) fun _ => law.pure _)
  · exact noteMoment_holds law _ _ _ _
  · exact law.crash _ _
  · exact law.crash _ _
  · exact emit_any_holds law hev hpublish _ _ _

/-- Announcing that a run has failed has the trait, and so has making the error, which comes first
or last. -/
theorem announceFailed_holds (script : Text) (id : RunId) (problem : Problem) :
    T.holds (announceFailed host ev script id problem) := by
  have herror : T.holds (alloc (problemObject problem)) :=
    law.alloc (Object.holdsName_problemObject _)
  unfold announceFailed
  split
  · exact law.bind herror fun error =>
      law.bind (callInherited_holds law hev _ (law.bind (scriptObject_holds law _) fun _ =>
        law.bind (scopeObject_holds law _) fun _ => law.pure _)) fun _ => law.pure _
  · exact law.bind (sizePortrait_holds law _) fun _ =>
      law.bind (noteMoment_holds law _ _ _ _) fun _ => herror
  · exact law.crash _ _
  · exact law.crash _ _
  · exact law.bind (emit_any_holds law hev hpublish _ _ _) fun _ => herror

/-! ## Tasks -/

/-- The `task` verb has the trait if declaring a task has it. -/
theorem taskVerb_holds (hdeclare : ∀ id task, T.holds (declareIn id task))
    (id : RunId) (onTask task : Value) :
    T.holds (taskVerb host ev id onTask task) := by
  unfold taskVerb
  refine law.bind law.heap fun h => ?_
  -- only a task is declared, and only a task that was taken is announced
  split
  · refine law.bind (hdeclare _ _) fun taken => ?_
    split
    · exact law.bind (announceTask_holds law hev hpublish _ _ _) fun _ => law.pure _
    · exact law.pure _
  · exact law.refuse _

include logs

omit hpublish in
/-- Logging a registration asks for the name of what is registered. -/
theorem logRegistering_holds (task : Value) : T.holds (logRegistering host ev task) :=
  law.bind (nameOf_holds law hev _) fun _ => log_holds law hev logs.engine _ _ _

/-- An offered task is announced if a run took it, and only logged otherwise. -/
theorem announceOffered_holds (task : Value) (taken : Option RunId) :
    T.holds (announceOffered host ev task taken) := by
  unfold announceOffered
  split
  · exact law.bind (nameOf_holds law hev _) fun _ => emit_any_holds law hev hpublish _ _ _
  · exact law.bind (nameOf_holds law hev _) fun _ => log_holds law hev logs.engine _ _ _

/-- Registering a task has the trait if offering a task has it. -/
theorem registerTask_holds (hoffer : ∀ task, T.holds (offer task)) (task : Value) :
    T.holds (registerTask host ev task) := by
  unfold registerTask
  split
  · exact law.refuse _
  · exact law.bind (logRegistering_holds law hev logs _) fun _ => law.bind (hoffer _) fun _ =>
      announceOffered_holds law hev logs hpublish _ _

/-! ## Failing runs -/

variable {id : RunId} (hundescribed : T.holds (mark (.undescribed id)))

include hundescribed

omit hpublish in
/-- Logging a failure counts the tasks and describes what was thrown. -/
theorem logFailure_holds (hcount : T.holds (countDiscarded id)) (script : Text) (thrown : Value) :
    T.holds (logFailure host ev script id thrown) :=
  law.bind hcount fun _ =>
    law.bind (markingThrow_holds law hundescribed (describe_holds law hev _)) fun _ =>
      log_holds law hev logs.runner _ _ _

/-- Failing a run has the trait if the marks that it leaves have it. -/
theorem failRun_holds {α : Type} (hcount : T.holds (countDiscarded id))
    (hfailed : ∀ script message, T.holds (mark (.failed id script message)))
    (script : Text) (thrown : Value) :
    T.holds (failRun host ev script id thrown : Action α) :=
  -- what is thrown is described, logged, marked and announced before it is refused
  law.bind (markingThrow_holds law hundescribed (cause_holds law hev _)) fun _ =>
    law.bind (logFailure_holds law hev logs hundescribed hcount _ _) fun _ =>
      law.bind (hfailed _ _) fun _ =>
        law.bind (announceFailed_holds law hev hpublish _ _ _) law.throw

end announcing

end EvalPlan.Action

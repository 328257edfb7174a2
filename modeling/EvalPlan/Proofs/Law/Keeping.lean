import EvalPlan.Proofs.Law.Announcing

/-!
# Relations that scripts keep

To keep a relation is a trait, and a relation that obeys the law of a host makes it one that follows
the rules: `Law.rules` says so. Hence everything that an engine does keeps such a relation, one
script within another (`Law.evaluator`) and one request after another (`Law.session`).
-/

namespace EvalPlan

namespace Action

variable {R : World → World → Prop} {ev : Evaluator} {host : Host}

/-- To keep a relation. -/
def Trait.keeping (R : World → World → Prop) : Trait := { holds := fun act => Keeps R act }

/-- To keep a relation permits every logger, for what is printed does not matter to it. -/
theorem Trait.keeping_permitsAll (R : World → World → Prop) (loggers : Loggers) :
    (Trait.keeping R).PermitsAll loggers := Trait.permitsAll (fun _ => trivial) loggers

end Action

namespace Evaluator

open EvalPlan.Action

variable {R : World → World → Prop} {ev : Evaluator}

/-- An evaluator that obeys a relation has the trait of keeping it. -/
theorem Obeys.meets (h : ev.Obeys R) : ev.Meets (.keeping R) :=
  ⟨h.expr, h.block, h.call, h.construct, h.json, h.run⟩

/-- An evaluator with the trait of keeping a relation obeys it. -/
theorem Meets.obeys (h : ev.Meets (.keeping R)) : ev.Obeys R :=
  ⟨h.expr, h.block, h.call, h.construct, h.json, h.run⟩

end Evaluator

namespace Action

variable {R : World → World → Prop} {ev : Evaluator} {host : Host}

/-! ## Steady relations -/

namespace Steady

variable (law : Steady R)

include law

/-- Binding a variable changes a frame, or throws an error. -/
theorem bindVariable (scene : Script.Scene) (name : Text) (v : Value) :
    Keeps R (bindVariable scene name v) := by
  intro w
  unfold Action.bindVariable
  rw [run_modify]
  dsimp only
  split
  · exact law.onFrames w _
  · exact law.refl w

/-- Refusing a problem adds its error. -/
theorem refuse {α : Type} (p : Problem) : Keeps R (Action.refuse p : Action α) :=
  law.bind (fun w => law.onAlloc w _ (Object.holdsName_problemObject p)) law.throw

/-- Defining a type changes the known types, or refuses. -/
theorem defineType (onTypes : ∀ w types, R w { w with types }) (name : Text) (type : Value) :
    Keeps R (defineType name type) := by
  intro w
  unfold Action.defineType
  rw [run_bind_ok (run_get w)]
  split
  · exact law.refuse _ w
  · split
    · exact law.refuse _ w
    · exact onTypes w _

/-- To keep a steady relation is a stable trait. -/
theorem stable : Stable (.keeping R) where
  pure := law.pure
  throw := law.throw
  bind := law.bind
  tryCatch := law.tryCatch
  read _ h := law.bind law.get h
  alloc h w := law.onAlloc w _ h
  change v _ h w := law.onChange w v _ h
  note h _ _ w := law.onNote w _ h
  print _ _ _ _ w := law.onNote w _ rfl
  openFrame _ _ w := law.onFrames w _
  bindVariable := law.bindVariable
  postpone _ _ w := law.onQueue w _
  takeQueue w := law.onQueue w []
  whileJoining _ _ h w :=
    -- the list is noted before and crossed out afterwards, however the action comes out
    law.trans (law.onJoining w _) (law.trans (h _) (law.onJoining _ _))

end Steady

/-! ## What steady relations are kept by -/

section steady

variable (law : Steady R) (hev : ev.Obeys R)

include law hev

/-- Describing a thrown value keeps what reading its message and putting it into text keep. -/
theorem describe_keeps (v : Value) : Keeps R (describe ev v) :=
  describe_holds law.stable hev.meets v

/-- So does taking it for a cause. -/
theorem cause_keeps (v : Value) : Keeps R (cause ev v) :=
  cause_holds law.stable hev.meets v

/-- Logging keeps the relation, whichever logger it is. -/
theorem log_keeps (l : Logger) (level : Level) (message : Text) (fields : List (Text × Datum)) :
    Keeps R (log ev l level message fields) :=
  log_holds law.stable hev.meets (fun _ _ _ => trivial) level message fields

/-- So does compiling. -/
theorem compile_keeps (name : Text) (program : Script.Program) :
    Keeps R (compile host ev name program) :=
  compile_holds law.stable hev.meets (Trait.keeping_permitsAll R host.loggers) name program

/-- Carrying the statements of a script out keeps the relation. -/
theorem runBody_keeps (script : CompiledScript) (id : RunId) :
    Keeps R (runBody host ev script id) :=
  runBody_holds law.stable hev.meets script id

/-- So does running a block. -/
theorem Evaluator.innerBlock_keeps (scene : Script.Scene) (body : List Script.Stmt) :
    Keeps R (Evaluator.innerBlock ev scene body) :=
  EvalPlan.Evaluator.innerBlock_holds law.stable hev.meets scene body

/-- A delivery keeps the relation if observing the event does. -/
theorem deliver_keeps (host : Host) {event : Event} {s : Subscriber}
    (hobserve : Keeps R (observe event s)) :
    Keeps R (deliver host ev event s) :=
  deliver_holds law.stable hev.meets (fun _ _ _ => trivial) hobserve fun _ _ _ _ _ => trivial

end steady

/-! ### Events -/

section publish

variable (law : Stepwise R) {event : Event} (hdeliver : ∀ w c, ∀ sub ∈ w.bus.channel c,
  R w (ExceptT.run (deliver host ev event sub.handler) w).2)

include law hdeliver

/-- Delivering an event calls one subscriber after another; the induction is on the calls that are
left. -/
theorem walk_keeps (c n serial : Nat) {w w' : World} {r : Except Value Unit}
    (h : (hub host ev).walk event c n serial w = some (r, w')) : R w w' := by
  induction n generalizing serial w with
  | zero => cases h
  | succ n ih =>
    unfold Hub.walk at h
    split at h
    · cases h
      exact law.refl _
    next sub hnext =>
      -- one subscriber is called, and the walk goes on in the world that it leaves
      have hfirst := hdeliver w c sub (List.mem_of_find?_eq_some hnext)
      split at h
      next heq =>
        rw [show ExceptT.run (deliver host ev event sub.handler) w = _ from heq] at hfirst
        exact law.trans hfirst (ih _ h)
      next heq =>
        rw [show ExceptT.run (deliver host ev event sub.handler) w = _ from heq] at hfirst
        cases h
        -- a subscriber that throws ends the walk
        exact hfirst

/-- Calling the subscribers of one type keeps the relation, as far as it gets. -/
theorem dispatch_keeps (bound : Nat) (type : Text) {w w' : World} {r : Except Value Unit}
    (h : (hub host ev).dispatch bound type event w = some (r, w')) : R w w' := by
  unfold Hub.dispatch at h
  split at h
  · cases h
    exact law.refl _
  · exact walk_keeps law hdeliver _ _ _ h

/-- So does emitting an event to those of its type and those of any type. -/
theorem hub_emit_keeps (bound : Nat) {w w' : World} {r : Except Value Unit}
    (h : (hub host ev).emit bound event w = some (r, w')) : R w w' := by
  unfold Hub.emit at h
  split at h
  next heq =>
    -- the handlers of the type come first, and then those of every event
    exact law.trans (dispatch_keeps law hdeliver _ _ heq) (dispatch_keeps law hdeliver _ _ h)
  · exact dispatch_keeps law hdeliver _ _ h

end publish

/-- Publishing an event keeps what telling it to those that are subscribed keeps. -/
theorem publish_keeps_of_deliver (law : Stepwise R)
    (hcrash : ∀ kind message, Keeps R (crash kind message : Action Unit))
    (type : Text) (data : Option Portrait) (run : Option RunId)
    (hdeliver : ∀ timestamp w c, ∀ sub ∈ w.bus.channel c,
      R w (ExceptT.run (deliver host ev ⟨type, timestamp, run, data⟩ sub.handler) w).2) :
    Keeps R (publish host ev type data run) := by
  intro w
  -- what the bus does is known only when the clock and the number of subscriptions are
  have hemit {r : Except Value Unit} {w' : World}
      (h : (hub host ev).emit (w.bus.serial + 1) ⟨type, Clock.iso w.clock, run, data⟩ w =
        some (r, w')) :
      R w w' :=
    hub_emit_keeps law (hdeliver _) _ h
  unfold publish
  rw [run_bind_ok (run_get w)]
  dsimp only
  split
  next h => exact hemit h
  next h => exact hemit h
  · exact hcrash _ _ w

/-- Publishing an event keeps what telling it to a subscriber keeps. -/
theorem publish_keeps (law : Steady R) (hev : ev.Obeys R) (host : Host) (type : Text)
    (data : Option Portrait) (run : Option RunId)
    (hobserve : ∀ timestamp s, Keeps R (observe ⟨type, timestamp, run, data⟩ s)) :
    Keeps R (publish host ev type data run) :=
  publish_keeps_of_deliver law.toStepwise (fun kind message => law.stable.crash kind message) type
    data
    run fun timestamp w _ sub _ => deliver_keeps law hev host (hobserve timestamp sub.handler) w

/-! ## Where any event may be told -/

section announcing

variable (law : Steady R) (hev : ev.Obeys R) (hobserve : ∀ event s, Keeps R (observe event s))
  (host : Host)

include law hev hobserve

/-- Where observing keeps the relation whatever is told, publishing does. -/
theorem publish_any_keeps (type : Text) (data : Option Portrait) (run : Option RunId) :
    (Trait.keeping R).holds (publish host ev type data run) :=
  publish_keeps law hev host type data run fun _ s => hobserve _ s

/-- To announce that a run has begun keeps the relation. -/
theorem announceStarted_keeps (script : Text) (id : RunId) :
    Keeps R (announceStarted host ev script id) :=
  announceStarted_holds law.stable hev.meets (publish_any_keeps law hev hobserve host) script id

/-- To announce a task keeps it. -/
theorem announceTask_keeps (id : RunId) (onTask task : Value) :
    Keeps R (announceTask host ev id onTask task) :=
  announceTask_holds law.stable hev.meets (publish_any_keeps law hev hobserve host) id onTask task

/-- To announce that a run has ended well keeps it. -/
theorem announceCompleted_keeps (script : Text) (id : RunId) (e : Environment) :
    Keeps R (announceCompleted host ev script id e) :=
  announceCompleted_holds law.stable hev.meets (publish_any_keeps law hev hobserve host) script id e

/-- To announce that a run has failed keeps it. -/
theorem announceFailed_keeps (script : Text) (id : RunId) (problem : Problem) :
    Keeps R (announceFailed host ev script id problem) :=
  announceFailed_holds law.stable hev.meets (publish_any_keeps law hev hobserve host) script id
    problem

/-- To announce an offered task keeps it. -/
theorem announceOffered_keeps (task : Value) (taken : Option RunId) :
    Keeps R (announceOffered host ev task taken) :=
  announceOffered_holds law.stable hev.meets (Trait.keeping_permitsAll R host.loggers)
    (publish_any_keeps law hev hobserve host) task taken

omit hobserve in
/-- To log that a task is registered keeps the relation. -/
theorem logRegistering_keeps (task : Value) : Keeps R (logRegistering host ev task) :=
  logRegistering_holds law.stable hev.meets (Trait.keeping_permitsAll R host.loggers) task

/-- The `task` verb keeps the relation if declaring a task does. -/
theorem taskVerb_keeps (hdeclare : ∀ id task, Keeps R (declareIn id task)) (id : RunId)
    (onTask task : Value) : Keeps R (taskVerb host ev id onTask task) :=
  taskVerb_holds law.stable hev.meets (publish_any_keeps law hev hobserve host) hdeclare id onTask
    task

/-- Registering a task keeps the relation if offering one does. -/
theorem registerTask_keeps (hoffer : ∀ task, Keeps R (offer task)) (task : Value) :
    Keeps R (registerTask host ev task) :=
  registerTask_holds law.stable hev.meets (Trait.keeping_permitsAll R host.loggers)
    (publish_any_keeps law hev hobserve host) hoffer task

/-- Failing a run keeps the relation if its marks do. -/
theorem failRun_keeps {α : Type} {id : RunId} (hundescribed : Keeps R (mark (.undescribed id)))
    (hcount : Keeps R (countDiscarded id))
    (hfailed : ∀ script message, Keeps R (mark (.failed id script message)))
    (script : Text) (thrown : Value) :
    Keeps R (failRun host ev script id thrown : Action α) :=
  failRun_holds law.stable hev.meets (Trait.keeping_permitsAll R host.loggers)
    (publish_any_keeps law hev hobserve host) hundescribed hcount hfailed script thrown

end announcing

/-! ## Laws -/

/-- To keep a relation that obeys the law of a host follows the rules. -/
theorem Law.rules (law : Law host R) : Rules host (.keeping R) where
  toStable := law.stable
  loggers := Trait.keeping_permitsAll R host.loggers
  withBinding := law.withBinding
  provideImports := law.provideImports
  enroll := law.enroll
  attach := law.attach
  publish hev type data :=
    publish_keeps law.toSteady hev.obeys host type data none fun _ s => law.observe _ s rfl
  registerSilently := law.registerSilently
  registerTask hev := law.registerTask hev.obeys
  taskVerb hev := law.taskVerb hev.obeys
  execute hev script _ hbody := law.execute hev.obeys script hbody

/-- Scripts keep the law of their host, however deeply they are nested. -/
theorem Law.evaluator (law : Law host R) (n : Nat) : (EvalPlan.evaluator host n).Obeys R :=
  (law.rules.evaluator n).obeys

section law

variable (law : Law host R) (hev : ev.Obeys R)

include law hev

/-- Executing a script keeps the law of its host. -/
theorem executeScript_keeps (script : CompiledScript) : Keeps R (executeScript host ev script) :=
  executeScript_holds law.rules hev.meets script

/-- Refusing a registration keeps the law. -/
theorem refuseRegistration_keeps (type builder : Value) :
    Keeps R (refuseRegistration ev type builder) :=
  refuseRegistration_holds law.rules hev.meets type builder

/-- Reporting a registration keeps the law. -/
theorem reportRegistration_keeps (type builder : Value) :
    Keeps R (reportRegistration host ev type builder) :=
  reportRegistration_holds law.rules hev.meets type builder

end law

end Action

namespace Request

open EvalPlan.Action

variable {R : World → World → Prop} {ev : Evaluator} {host : Host} (law : Law host R)
  (hev : ev.Obeys R)

include law hev

/-- Whatever is requested keeps the law. -/
theorem perform_keeps (r : Request) : Keeps R (r.perform host ev) :=
  perform_holds law.rules hev.meets (law.defineType law.onTypes) r

/-- Serving a request performs it and settles, and both keep the law. -/
theorem serve_keeps (r : Request) (w : World) : R w (r.serve host ev w) :=
  -- what the request queued is carried out before the next one
  law.trans (perform_keeps law hev r w) (settle_holds law.rules hev.meets _)

end Request

/-- Every sequence of requests keeps the law of the engine that serves it. -/
theorem Action.Law.session {R : World → World → Prop} {host : Host} (law : Law host R)
    {ev : Evaluator}
    (hev : ev.Obeys R) (w : World) (rs : List Request) : R w (Request.session host ev w rs) := by
  induction rs generalizing w with
  | nil => exact law.refl w
  | cons r rest ih => exact law.trans (Request.serve_keeps law hev r w) (ih _)

end EvalPlan

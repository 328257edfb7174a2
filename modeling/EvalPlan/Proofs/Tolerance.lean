import EvalPlan.Domain
import EvalPlan.Proofs.Alone

/-!
# What failing subscribers can break

A subscriber that throws is meant to break nothing: its failure is reported, and those behind it are
called. This holds of everything that is thrown and can be described. What cannot be described
escapes from the report, so that nobody else is called and whoever told the event fails
(`bareFault_escapes`). `evaluator_toleratesFaults` says exactly when telling an event answers, what
is reported, and that the subscribers make no difference to anything an engine does where telling
them leaves nothing but notices and marks.
-/

namespace EvalPlan

open EvalPlan.Action

/-! ## Harmless events -/

/-- Telling an event where all is tame is harmless. -/
theorem Publication.harmless_of_tame (host : Host) {p : Publication} (tame : p.world.Tame) :
    p.Harmless host := fun s mem => by
  obtain ⟨notices, leaves⟩ := tame.leaves host p.evaluator p.event s mem
  exact ⟨notices, _, leaves⟩

/-- The subscriber throws no object, and scripts know nothing of the logger that it writes to. -/
inductive Subscriber.IsPlain : Subscriber → Prop
  | observe {id : Nat} : IsPlain ⟨id, .observe⟩
  | logFinish {id : Nat} {l : Logger} : l.reach = .direct → IsPlain ⟨id, .logFinish l⟩
  | fail {id : Nat} {v : Value} : v.ref? = none → IsPlain ⟨id, .fail v⟩

/-- All subscribers are plain, and scripts know nothing of the logger that failures are reported
to. -/
structure World.Plain (host : Host) (w : World) : Prop where
  logger : host.loggers.bus.reach = .direct
  ordered : w.bus.Ordered
  plain : ∀ c, ∀ s ∈ w.bus.channel c, s.handler.IsPlain

/-- Where all subscribers are plain every event is harmless, whatever scripts do before. -/
theorem World.Plain.harmless {host : Host} {w : World} (plain : w.Plain host) {α : Type}
    {act : Action α} {p : Publication} (publishes : Publishes host p act w) : p.Harmless host := by
  have bus : p.world.bus = w.bus := publishes.keeps keepsBus_indifferent
  intro s mem
  obtain ⟨c, sub, subscribed, rfl⟩ := (List.mem_append.mp mem).elim
    Bus.exists_subscription Bus.exists_subscription
  rw [bus] at subscribed
  have isPlain := plain.plain c sub subscribed
  generalize sub.handler = s at isPlain
  cases isPlain with
  | observe => exact ⟨_, _, Subscriber.leaves_observe⟩
  | logFinish direct =>
    exact ⟨_, _, Subscriber.leaves_logFinish fun reached => absurd direct reached⟩
  | fail noObject =>
    obtain ⟨words, described⟩ := Heap.Describable.describes (h := p.world.heap) (.inl noObject)
    exact ⟨_, _, Subscriber.leaves_fail (described.describes p.evaluator) fun reached =>
      absurd plain.logger reached⟩

/-! ## What is tolerated -/

/-- What failing subscribers can break, and what they cannot. -/
structure ToleratesFaults (host : Host) (ev : Evaluator) : Prop where
  /-- Telling an event answers exactly if every subscriber was called, those of its type first and
  then those of every event, and each that threw was described and reported once. -/
  answers : ∀ {w w' : World}, w.bus.Ordered → ∀ type data run,
    (ExceptT.run (publish host ev type data run) w = (.ok ⟨⟩, w') ↔
      Delivers host ev ⟨type, Clock.iso w.clock, run, data⟩
        (audience w ⟨type, Clock.iso w.clock, run, data⟩) w w')
  /-- It throws exactly if a subscriber throws what cannot be described or reported. Those behind it
  are not called. -/
  throws : ∀ {w w' : World} {u : Value}, w.bus.Ordered → ∀ type data run,
    (ExceptT.run (publish host ev type data run) w = (.error u, w') ↔
      ∃ before s after x, audience w ⟨type, Clock.iso w.clock, run, data⟩ = before ++ s :: after ∧
        Delivers host ev ⟨type, Clock.iso w.clock, run, data⟩ before w x ∧
        Overwhelms host ev ⟨type, Clock.iso w.clock, run, data⟩ s x u w')
  /-- A subscriber that throws what can be described leaves one error in a log that works. -/
  reports : ∀ {w : World} {event : Event} {id : Nat} {v : Value} {words : Text},
    w.Describes ev v words → host.loggers.bus.Works w.heap →
      (⟨id, .fail v⟩ : Subscriber).Leaves host ev event w (host.loggers.bus.leaves .error
        "Event handler failed" (some (fieldsPortrait w.heap (reportFields event words)))) []
  /-- If each subscriber leaves notices and marks at most, telling an event answers and leaves those
  of all of them in order. -/
  delivers : ∀ {w : World}, w.bus.Ordered → ∀ type data run (notices : Subscriber → List Notice)
    (marks : Subscriber → List Mark),
    (∀ s ∈ audience w ⟨type, Clock.iso w.clock, run, data⟩,
      s.Leaves host ev ⟨type, Clock.iso w.clock, run, data⟩ w (notices s) (marks s)) →
    ExceptT.run (publish host ev type data run) w = (.ok ⟨⟩, { w with
      notices := w.notices ++ (audience w ⟨type, Clock.iso w.clock, run, data⟩).flatMap notices
      history := w.history ++ (audience w ⟨type, Clock.iso w.clock, run, data⟩).flatMap marks })
  /-- Events are harmless where the engine's parts are as they were made and to describe what is
  thrown runs no code. -/
  tame : ∀ {p : Publication}, p.world.Tame → p.Harmless host
  /-- They always are where no object is thrown and scripts know nothing of the logger. -/
  plain : ∀ {w : World}, w.Plain host → ∀ {α : Type} {act : Action α} {p : Publication},
    Publishes host p act w → p.Harmless host
  /-- Where events are harmless the default builders are loaded as without subscribers. -/
  defaults : Unswayed host (loadDefaults host ev)
  /-- The engine starts as without subscribers. -/
  starts : Unswayed host (startEngine host ev)
  /-- Builders are registered as without subscribers. -/
  registers : ∀ type builder, Unswayed host (register host ev type builder)
  /-- Tasks are registered as without subscribers. -/
  tasks : ∀ task, Unswayed host (registerTask host ev task)
  /-- Compiled scripts run as without subscribers. -/
  executes : ∀ script, Unswayed host (executeScript host ev script)
  /-- So do programs. -/
  runs : ∀ name program, Unswayed host (runProgram host ev name program)
  /-- So do scripts that are loaded. -/
  loads : ∀ source, Unswayed host (load host ev source)
  /-- Requests of any kind, one after another, come out as without subscribers. -/
  serves : ∀ rs {w w₀ : World}, w.Bereft w₀ → w.bus.Ordered →
    (∀ p, Request.Publishes host ev p rs w → p.Harmless host) →
      Request.outcomes host ev w rs = Request.outcomes host ev w₀ rs ∧
        (Request.session host ev w rs).Bereft (Request.session host ev w₀ rs)

/-- Telling an event breaks exactly where a subscriber throws what cannot be described or reported.
Where telling events leaves nothing but notices and marks, everything comes out as without
subscribers. -/
theorem evaluator_toleratesFaults (host : Host) (n : Nat) :
    ToleratesFaults host (evaluator host n) := by
  have rules := (unswayed_uniform host).rules
  have hev := evaluator_unswayed host n
  have keeps : (evaluator host n).Obeys fun w w' => w'.bus = w.bus :=
    (keepsBus_indifferent.onHost host).evaluator n
  exact
    { answers := fun ordered _ _ _ => publish_ok_iff keeps ordered
      throws := fun ordered _ _ _ => publish_error_iff keeps ordered
      reports := Subscriber.leaves_fail
      delivers := fun ordered type data run _ _ leaves =>
        run_publish_leaves keeps ordered type data run leaves
      tame := Publication.harmless_of_tame host
      plain := World.Plain.harmless
      defaults := (loadDefaults_holds rules hev).2
      starts := (startEngine_holds rules hev).2
      registers := fun type builder => (register_holds rules hev type builder).2
      tasks := fun task => (rules.registerTask hev task).2
      executes := fun script => (executeScript_holds rules hev script).2
      runs := fun name program => (runProgram_holds rules hev name program).2
      loads := fun source => (load_holds rules hev source).2
      serves := fun rs _ _ => Request.session_unswayed hev rs }

/-! ## Two engines -/

/-- A script that does nothing. -/
def idleScript : CompiledScript := ⟨"plan", [], none⟩

/-- An engine whose bus prints what it reports. -/
def reportingHost : Host := Host.engine Logger.recording (Logger.printing "plans") []

/-- The first subscriber to runs throws a value, and another one observes every event. -/
def faultyBus (v : Value) : Bus Subscriber :=
  (Bus.empty.subscribe "run:started" ⟨0, .fail v⟩).subscribe Event.any ⟨1, .observe⟩

/-- A world whose first subscriber throws a text. -/
def textFault : World := { World.initial Domain.heap with bus := faultyBus (.text "boom") }

/-- A world whose first subscriber throws an object that inherits nothing. -/
def bareFault : World :=
  { World.initial (Domain.heap.push (Object.empty .plain none)) with
    bus := faultyBus (.ref Domain.heap.size) }

theorem ordered_faultyBus (v : Value) : (faultyBus v).Ordered :=
  (Bus.ordered_empty.subscribe _ _).subscribe _ _

theorem plain_textFault : textFault.Plain reportingHost where
  logger := rfl
  ordered := ordered_faultyBus _
  plain c s subscribed := by
    rcases Bus.mem_channel_subscribe subscribed with earlier | observes
    · rcases Bus.mem_channel_subscribe earlier with nobody | fails
      · cases nobody
      · exact fails ▸ .fail rfl
    · exact observes ▸ .observe

/-- Since a text can be described, the run of a script is the same as without subscribers. -/
theorem textFault_tolerated :
    (ExceptT.run (executeScript reportingHost (evaluator reportingHost 3) idleScript) textFault).1 =
      (ExceptT.run (executeScript reportingHost (evaluator reportingHost 3) idleScript)
        textFault.alone).1 ∧
    (ExceptT.run (executeScript reportingHost (evaluator reportingHost 3) idleScript)
      textFault).1.toBool = true :=
  ⟨((evaluator_toleratesFaults reportingHost 3).executes idleScript _ _ textFault.bereft_alone
    plain_textFault.ordered fun _ publishes => plain_textFault.harmless publishes).1, by decide +kernel⟩

/-- An object that inherits nothing cannot be described: who observes everything is not told,
nothing is reported, and a script that would run well without subscribers fails. -/
theorem bareFault_escapes :
    (ExceptT.run (publish reportingHost (evaluator reportingHost 3) "run:started" none none)
      bareFault).1.toBool = false ∧
    (ExceptT.run (publish reportingHost (evaluator reportingHost 3) "run:started" none none)
      bareFault).2.history.isEmpty = true ∧
    (ExceptT.run (publish reportingHost (evaluator reportingHost 3) "run:started" none none)
      bareFault).2.notices.isEmpty = true ∧
    (ExceptT.run (executeScript reportingHost (evaluator reportingHost 3) idleScript)
      bareFault).1.toBool = false ∧
    (ExceptT.run (executeScript reportingHost (evaluator reportingHost 3) idleScript)
      bareFault.alone).1.toBool = true := by
  refine ⟨by decide +kernel, by decide +kernel, by decide +kernel, by decide +kernel, by decide +kernel⟩

end EvalPlan

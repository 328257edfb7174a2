import EvalPlan.Proofs.Bus
import EvalPlan.Proofs.Law.Declaring
import EvalPlan.Proofs.Law.Keeping
import EvalPlan.Proofs.Law.Uniform
import EvalPlan.Proofs.Run

/-!
# What an engine prints

All that an engine prints are log entries, each under the name of the component that its loggers
write for. `World.OnlyLogs` says so of two worlds, and `Trait.discreet` of actions: loading modules,
starting the engine, loading and running scripts, carrying out what they left for later, and the
code of scripts that a report calls leave nothing printed but log entries of the component. What
else the command prints, it prints itself.

The relation needs an invariant, since subscribers may log, too: those that do write for the
component (`World.LogsFor`).
-/

namespace EvalPlan

open EvalPlan.Action

/-- The notice is no printed line, or it is a log entry that is printed under the name of a
component. -/
def Notice.OfLog (component : Text) (n : Notice) : Prop :=
  n.isLine = false ∨ ∃ level message data,
    n = .line (.level level) [.text (Logger.bracketed component ++ message), data]

/-- What is printed of the entries that go to a sink is printed under the name of a component. -/
def Sink.WritesFor (component : Text) (sink : Sink) : Prop :=
  ∀ other threshold, sink = .console other threshold → other = component

/-- Subscribers that log write for a component. -/
def World.LogsFor (component : Text) (w : World) : Prop :=
  ∀ c, ∀ sub ∈ w.bus.channel c, ∀ logger, sub.handler.reaction = .logFinish logger →
    logger.sink.WritesFor component

/-- Where subscribers write for a component they still do, and log entries of the component are all
that is printed. -/
def World.OnlyLogs (component : Text) (w w' : World) : Prop :=
  w.LogsFor component → w'.LogsFor component ∧
    ∃ notices, w'.notices = w.notices ++ notices ∧ ∀ n ∈ notices, n.OfLog component

namespace World

variable {component : Text} {w w' : World}

/-- Where no subscription changes, subscribers write for whom they wrote. -/
theorem LogsFor.of_eq (h : w.LogsFor component) (hbus : w'.bus = w.bus) : w'.LogsFor component := by
  unfold LogsFor
  rw [hbus]
  exact h

namespace OnlyLogs

/-- What prints nothing is discreet. -/
theorem of_eq (hbus : w'.bus = w.bus) (hnotices : w'.notices = w.notices) :
    OnlyLogs component w w' :=
  fun hlogs => ⟨hlogs.of_eq hbus, [], by rw [hnotices, List.append_nil], nofun⟩

/-- One more notice. -/
theorem of_note (hbus : w'.bus = w.bus) {n : Notice} (hnotices : w'.notices = w.notices ++ [n])
    (hn : n.OfLog component) : OnlyLogs component w w' :=
  fun hlogs => ⟨hlogs.of_eq hbus, [n], hnotices, fun _ h => List.mem_singleton.mp h ▸ hn⟩

theorem stepwise (component : Text) : Stepwise (OnlyLogs component) where
  refl w := of_eq rfl rfl
  trans := by
    intro w₁ w₂ w₃ h h' hlogs
    obtain ⟨hlogs₂, notices, heq, hall⟩ := h hlogs
    obtain ⟨hlogs₃, notices', heq', hall'⟩ := h' hlogs₂
    refine ⟨hlogs₃, notices ++ notices', by rw [heq', heq, List.append_assoc], fun n hn => ?_⟩
    rcases List.mem_append.mp hn with hn | hn
    · exact hall n hn
    · exact hall' n hn

end OnlyLogs

end World

/-- To print nothing but log entries of a component. -/
def Action.Trait.discreet (component : Text) : Trait where
  holds act := Keeps (World.OnlyLogs component) act
  prints other := other = component

variable {component : Text}

theorem discreet_stable (component : Text) : Stable (.discreet component) := by
  have law := World.OnlyLogs.stepwise component
  -- most steps of a script leave no notice at all
  exact
    { pure := law.pure
      throw := law.throw
      bind := law.bind
      tryCatch := law.tryCatch
      read := fun _ hk => law.bind law.get hk
      alloc := fun _ _ => .of_eq rfl rfl
      change := fun _ _ _ _ => .of_eq rfl rfl
      note := fun _ hline _ _ => .of_note rfl rfl (.inl hline)
      -- a script prints through its logger, whose lines count as log entries
      print := by
        rintro _ rfl level message data w
        exact .of_note rfl rfl (.inr ⟨level, message, data, rfl⟩)
      openFrame := fun _ _ _ => .of_eq rfl rfl
      bindVariable := by
        intro scene name v w
        unfold Action.bindVariable
        rw [run_modify]
        dsimp only
        split
        · exact .of_eq rfl rfl
        · exact law.refl w
      postpone := fun _ _ _ => .of_eq rfl rfl
      takeQueue := fun _ => .of_eq rfl rfl
      whileJoining := by
        intro _ r act hact w
        rw [run_whileJoining]
        have hinner := hact { w with joining := r :: w.joining }
        exact law.trans (.of_eq rfl rfl) (law.trans hinner (.of_eq rfl rfl)) }

/-- Telling an event prints only log entries: those of the bus, and those of subscribers that
log. -/
theorem publish_discreet {host : Host} (hbus : host.loggers.bus.sink.WritesFor component)
    {ev : Evaluator} (hev : ev.Meets (.discreet component)) (type : Text) (data : Option Portrait)
    (run : Option RunId) : (Trait.discreet component).holds (publish host ev type data run) := by
  have law := discreet_stable component
  refine publish_keeps_of_deliver (World.OnlyLogs.stepwise component) law.crash type data run ?_
  intro timestamp w c sub hsub hlogs
  have hobserve : (Trait.discreet component).holds
      (observe ⟨type, timestamp, run, data⟩ sub.handler) := fun w =>
    .of_note rfl rfl (.inl rfl)
  -- the subscriber is one of those that write for the component if they log
  exact deliver_holds law hev hbus hobserve (hlogs c sub hsub) w hlogs

theorem discreet_uniform {host : Host} (h : (Trait.discreet component).PermitsAll host.loggers) :
    Uniform host (.discreet component) := by
  have law := World.OnlyLogs.stepwise component
  exact
    { discreet_stable component with
      loggers := h
      mark := fun _ _ => .of_eq rfl rfl
      withBinding := by
        intro _ binding act hact w
        rw [run_withBinding]
        exact law.trans (.of_eq rfl rfl) (law.trans (hact (w.enter binding)) (.of_eq rfl rfl))
      beginScope := fun _ _ => .of_eq rfl rfl
      endingScope := fun _ _ _ hact w => law.trans (hact w) (.of_eq rfl rfl)
      countDiscarded := fun _ _ => .of_eq rfl rfl
      declareIn := fun _ _ _ => .of_eq rfl rfl
      offer := fun _ _ => .of_eq rfl rfl
      enroll := fun _ _ _ => .of_eq rfl rfl
      attach := fun _ _ _ => .of_eq rfl rfl
      provideImports := fun _ _ => .of_eq rfl rfl
      publish := publish_discreet h.bus }

theorem discreet_declaring (component : Text) : Declaring (.discreet component) where
  toStable := discreet_stable component
  define _ _ _ := .of_eq rfl rfl
  attach _ _ _ := .of_eq rfl rfl
  keepModule _ _ _ := .of_eq rfl rfl

theorem defineType_discreet (name : Text) (type : Value) :
    (Trait.discreet component).holds (defineType name type) := by
  have law := discreet_stable component
  unfold defineType
  intro w
  rw [run_bind_ok (run_get w)]
  split
  · exact law.refuse _ w
  · split
    · exact law.refuse _ w
    · exact .of_eq rfl rfl

/-- A new subscriber is discreet if it does not log, or logs for the component. -/
theorem subscribe_discreet (type : Text) {reaction : Reaction}
    (h : ∀ logger, reaction = .logFinish logger → logger.sink.WritesFor component) :
    (Trait.discreet component).holds (subscribe type reaction) := by
  intro w hlogs
  refine ⟨fun c sub hsub logger hlogger => ?_, [], (List.append_nil _).symm, nofun⟩
  rcases Bus.mem_channel_subscribe hsub with hsub | hnew
  · exact hlogs c sub hsub logger hlogger
  · rw [hnew] at hlogger
    exact h logger hlogger

/-- An engine that logs for a component is discreet, whatever scripts it runs. -/
theorem evaluator_discreet {host : Host} (h : (Trait.discreet component).PermitsAll host.loggers)
    (n : Nat) : (evaluator host n).Meets (.discreet component) :=
  (discreet_uniform h).rules.evaluator n

end EvalPlan

import Mathlib.Tactic.Choose
import EvalPlan.Proofs.Describing
import EvalPlan.Proofs.Law.Indifferent
import EvalPlan.Proofs.Quiet

/-!
# Delivering events to subscribers that fail

A subscriber that throws is reported in the log, and the next one is called. The report describes
what was thrown, and that may throw in its turn: then nobody else is called, and whoever told the
event fails. `publish_ok_iff` and `publish_error_iff` say exactly when which of the two happens, for
all subscribers and whatever they throw. Where every value that is thrown can be described without
running code, telling an event leaves one report for each subscriber that fails, and nothing else
(`run_publish_tame`).
-/

namespace EvalPlan

namespace Action

/-! ## Subscriptions -/

/-- Nothing that scripts do changes a subscription. -/
theorem keepsBus_indifferent : Indifferent fun w w' => w'.bus = w.bus where
  refl _ := rfl
  trans h h' := h'.trans h
  onAlloc _ _ _ := rfl
  onChange _ _ _ _ := rfl
  onFrames _ _ := rfl
  onQueue _ _ := rfl
  onJoining _ _ := rfl
  onNote _ _ _ := rfl
  onTypes _ _ := rfl
  onPassing _ _ _ _ _ _ := rfl
  onImports _ _ _ := rfl
  onEnroll _ _ _ := rfl
  onAttach _ _ _ := rfl

variable {host : Host} {ev : Evaluator} {event : Event} {w w' : World}

theorem deliver_keepsBus (hev : ev.Obeys fun w w' => w'.bus = w.bus) (host : Host) (event : Event)
    (s : Subscriber) : Keeps (fun w w' => w'.bus = w.bus) (deliver host ev event s) :=
  deliver_keeps keepsBus_indifferent.toSteady hev host (keepsBus_indifferent.observe event s)

/-- Calling subscribers changes no subscription. -/
theorem hub_steadfast (hev : ev.Obeys fun w w' => w'.bus = w.bus) (host : Host) (event : Event) :
    (hub host ev).Steadfast event fun _ => True :=
  fun w _ _ sub _ => ⟨trivial, deliver_keepsBus hev host event sub.handler w⟩

/-- To publish an event is to call those who are told of it, one after another. -/
theorem run_publish_eq (hev : ev.Obeys fun w w' => w'.bus = w.bus) (host : Host)
    (ordered : w.bus.Ordered) (type : Text) (data : Option Portrait) (run : Option RunId) :
    ExceptT.run (publish host ev type data run) w =
      (hub host ev).callAll ⟨type, Clock.iso w.clock, run, data⟩
        (audience w ⟨type, Clock.iso w.clock, run, data⟩) w := by
  have emitted := Hub.emit_eq_callAll (hub_steadfast hev host ⟨type, Clock.iso w.clock, run, data⟩)
    trivial (s := w) ordered (Nat.lt_succ_self _)
  have bus : (hub host ev).bus w = w.bus := rfl
  rw [bus] at emitted
  unfold publish
  rw [run_bind_ok (run_get w)]
  simp only
  rw [emitted, audience]
  generalize (hub host ev).callAll _ _ w = answer
  obtain ⟨_ | _, _⟩ := answer <;> rfl

/-! ## Calling one subscriber after another -/

/-- What a report says of a failure. -/
def reportFields (event : Event) (words : Text) : List (Text × Datum) :=
  [("type", Value.text event.type), ("error", Value.text words)]

/-- A subscriber was called with an event; if it threw, that was described and reported once. -/
inductive Called (host : Host) (ev : Evaluator) (event : Event) (s : Subscriber) (w : World) :
    World → Prop
  /-- It did not throw. -/
  | bore {x : World} : ExceptT.run (react ev event s) w = (.ok ⟨⟩, x) → Called host ev event s w x
  /-- It threw, and was reported. -/
  | reported {v : Value} {words : Text} {x y z : World} :
      ExceptT.run (react ev event s) w = (.error v, x) →
      ExceptT.run (describe ev v) x = (.ok words, y) →
      ExceptT.run (log ev host.loggers.bus .error "Event handler failed" (reportFields event words))
        y =
        (.ok ⟨⟩, z) →
      Called host ev event s w z

/-- A subscriber threw what cannot be described, or the report of it threw. -/
inductive Overwhelms (host : Host) (ev : Evaluator) (event : Event) (s : Subscriber) (w : World) :
    Value → World → Prop
  /-- What it threw cannot be described. -/
  | undescribed {v u : Value} {x y : World} :
      ExceptT.run (react ev event s) w = (.error v, x) →
      ExceptT.run (describe ev v) x = (.error u, y) → Overwhelms host ev event s w u y
  /-- The logger throws. -/
  | unlogged {v u : Value} {words : Text} {x y z : World} :
      ExceptT.run (react ev event s) w = (.error v, x) →
      ExceptT.run (describe ev v) x = (.ok words, y) →
      ExceptT.run (log ev host.loggers.bus .error "Event handler failed" (reportFields event words))
        y =
        (.error u, z) →
      Overwhelms host ev event s w u z

/-- Every subscriber was called, each in the world that those before it left. -/
inductive Delivers (host : Host) (ev : Evaluator) (event : Event) :
    List Subscriber → World → World → Prop
  /-- Nobody is left. -/
  | nil {w : World} : Delivers host ev event [] w w
  /-- The first one was called, and then the others. -/
  | cons {s : Subscriber} {rest : List Subscriber} {w x w' : World} :
      Called host ev event s w x → Delivers host ev event rest x w' →
      Delivers host ev event (s :: rest) w w'

theorem deliver_ok_iff {s : Subscriber} :
    ExceptT.run (deliver host ev event s) w = (.ok ⟨⟩, w') ↔ Called host ev event s w w' := by
  unfold deliver
  rw [run_tryCatch]
  constructor
  · intro h
    cases hreact : ExceptT.run (react ev event s) w with
    | mk r x =>
      rw [hreact] at h
      cases r with
      | ok _ =>
        cases h
        exact .bore hreact
      | error v =>
        obtain ⟨words, y, hdescribed, hlogged⟩ := bind_eq_ok h
        exact .reported hreact hdescribed hlogged
  · rintro (hreact | ⟨hreact, hdescribed, hlogged⟩)
    · rw [hreact]
    · rw [hreact]
      exact (run_bind_ok hdescribed).trans hlogged

theorem deliver_error_iff {s : Subscriber} {u : Value} :
    ExceptT.run (deliver host ev event s) w = (.error u, w') ↔
      Overwhelms host ev event s w u w' := by
  unfold deliver
  rw [run_tryCatch]
  constructor
  · -- only the two things that reporting a failure does can throw
    intro h
    cases hreact : ExceptT.run (react ev event s) w with
    | mk r x =>
      rw [hreact] at h
      cases r with
      | ok _ => cases h
      | error v =>
        simp only [reportFailure, run_bind] at h
        cases hdescribed : ExceptT.run (describe ev v) x with
        | mk r y =>
          rw [hdescribed] at h
          cases r with
          | ok words => exact .unlogged hreact hdescribed h
          | error u' =>
            cases h
            exact .undescribed hreact hdescribed
  · rintro (⟨hreact, hdescribed⟩ | ⟨hreact, hdescribed, hlogged⟩)
    · rw [hreact]
      exact run_bind_error hdescribed
    · rw [hreact]
      exact (run_bind_ok hdescribed).trans hlogged

/-- Calling a subscriber answers or throws. -/
theorem deliver_cases (host : Host) (ev : Evaluator) (event : Event) (s : Subscriber) (w : World) :
    (∃ x, ExceptT.run (deliver host ev event s) w = (.ok ⟨⟩, x)) ∨
      ∃ u x, ExceptT.run (deliver host ev event s) w = (.error u, x) := by
  cases ExceptT.run (deliver host ev event s) w with
  | mk r x =>
    cases r with
    | ok _ => exact .inl ⟨x, rfl⟩
    | error u => exact .inr ⟨u, x, rfl⟩

/-- Calling subscribers answers exactly if each of them was called. -/
theorem callAll_ok_iff {subscribers : List Subscriber} :
    (hub host ev).callAll event subscribers w = (.ok ⟨⟩, w') ↔
      Delivers host ev event subscribers w w' := by
  constructor
  · intro h
    induction subscribers generalizing w with
    | nil =>
      cases h
      exact .nil
    | cons s rest ih =>
      rcases deliver_cases host ev event s w with ⟨x, called⟩ | ⟨u, x, thrown⟩
      · rw [Hub.callAll_cons_ok called] at h
        exact .cons (deliver_ok_iff.mp called) (ih h)
      · rw [Hub.callAll_cons_error thrown] at h
        cases h
  · intro h
    induction h with
    | nil => rfl
    | cons called _ ih => exact (Hub.callAll_cons_ok (deliver_ok_iff.mpr called)).trans ih

/-- Calling subscribers ends early exactly where one of them cannot be reported. -/
theorem callAll_error_iff {subscribers : List Subscriber} {u : Value} :
    (hub host ev).callAll event subscribers w = (.error u, w') ↔
      ∃ before s after x, subscribers = before ++ s :: after ∧
        Delivers host ev event before w x ∧ Overwhelms host ev event s x u w' := by
  constructor
  · intro h
    induction subscribers generalizing w with
    | nil => cases h
    | cons s rest ih =>
      rcases deliver_cases host ev event s w with ⟨x, called⟩ | ⟨u', x, thrown⟩
      · -- it is one of the others
        rw [Hub.callAll_cons_ok called] at h
        obtain ⟨before, t, after, y, rfl, delivered, overwhelmed⟩ := ih h
        exact ⟨s :: before, t, after, y, rfl, .cons (deliver_ok_iff.mp called) delivered,
          overwhelmed⟩
      · have failed := deliver_error_iff.mp thrown
        rw [Hub.callAll_cons_error thrown] at h
        cases h
        exact ⟨[], s, rest, w, rfl, .nil, failed⟩
  · rintro ⟨before, s, after, x, rfl, delivered, overwhelmed⟩
    rw [Hub.callAll_append, callAll_ok_iff.mpr delivered]
    exact Hub.callAll_cons_error (deliver_error_iff.mpr overwhelmed)

end Action

/-! ## Whether telling an event answers -/

namespace Action

section publish

variable {host : Host} {ev : Evaluator} {w w' : World}
  (hev : ev.Obeys fun w w' => w'.bus = w.bus) (ordered : w.bus.Ordered)
  {type : Text} {data : Option Portrait} {run : Option RunId}

include hev ordered

/-- Telling an event answers if and only if every subscriber was called, those of its type first and
then those of every event, and each that threw was described and reported once. -/
theorem publish_ok_iff : ExceptT.run (publish host ev type data run) w = (.ok ⟨⟩, w') ↔
    Delivers host ev ⟨type, Clock.iso w.clock, run, data⟩
      (audience w ⟨type, Clock.iso w.clock, run, data⟩) w w' := by
  rw [run_publish_eq hev host ordered]
  exact callAll_ok_iff

/-- Telling an event throws if and only if a subscriber throws what cannot be described, or the
report of it throws. Those behind it are not called. -/
theorem publish_error_iff {u : Value} :
    ExceptT.run (publish host ev type data run) w = (.error u, w') ↔
      ∃ before s after x, audience w ⟨type, Clock.iso w.clock, run, data⟩ = before ++ s :: after ∧
        Delivers host ev ⟨type, Clock.iso w.clock, run, data⟩ before w x ∧
        Overwhelms host ev ⟨type, Clock.iso w.clock, run, data⟩ s x u w' := by
  rw [run_publish_eq hev host ordered]
  exact callAll_error_iff

end publish

end Action

/-! ## What subscribers leave -/

open EvalPlan.Action

namespace Subscriber

/-- Telling an event to the subscriber leaves notices and marks and nothing else, whatever was noted
before. -/
def Leaves (host : Host) (ev : Evaluator) (event : Event) (w : World) (s : Subscriber)
    (notices : List Notice) (marks : List Mark) : Prop :=
  ∀ ns hs, ExceptT.run (deliver host ev event s) { w with notices := ns, history := hs } =
    (.ok ⟨⟩, { w with notices := ns ++ notices, history := hs ++ marks })

/-- Telling an event to the subscriber leaves notices and marks at most. -/
def Harmless (host : Host) (ev : Evaluator) (event : Event) (w : World) (s : Subscriber) : Prop :=
  ∃ notices marks, s.Leaves host ev event w notices marks

variable {host : Host} {ev : Evaluator} {event : Event} {w : World} {id : Nat}

theorem leaves_observe : (⟨id, .observe⟩ : Subscriber).Leaves host ev event w
    [.event event.type event.data event.run] [.told id event] :=
  fun _ _ => rfl

theorem leaves_logFinish {logger : Logger} (works : logger.Works w.heap) :
    (⟨id, .logFinish logger⟩ : Subscriber).Leaves host ev event w
      (logger.leaves .info "Script finished" event.data) [] := by
  intro ns hs
  have written := run_write_works ev (w := { w with notices := ns, history := hs }) works .info
    "Script finished" event.data
  have reacted : ExceptT.run (react ev event ⟨id, .logFinish logger⟩)
    { w with notices := ns, history := hs } = _ := written
  unfold deliver
  rw [run_tryCatch, reacted]
  simp [World.noting]

/-- A subscriber that throws what can be described leaves one error in the log. -/
theorem leaves_fail {v : Value} {words : Text} (described : w.Describes ev v words)
    (works : host.loggers.bus.Works w.heap) :
    (⟨id, .fail v⟩ : Subscriber).Leaves host ev event w (host.loggers.bus.leaves .error
      "Event handler failed" (some (fieldsPortrait w.heap (reportFields event words)))) [] := by
  intro ns hs
  have thrown : ExceptT.run (react ev event ⟨id, .fail v⟩) { w with notices := ns, history := hs } =
    (.error v, { w with notices := ns, history := hs }) := rfl
  have logged := run_log_works ev (w := { w with notices := ns, history := hs }) works .error
    "Event handler failed" (reportFields event words)
  unfold deliver
  rw [run_tryCatch, thrown]
  refine (run_bind_ok (described ns hs)).trans (logged.trans ?_)
  simp [World.noting]

end Subscriber

namespace Action

variable {host : Host} {ev : Evaluator} {event : Event} {w : World}
  {notices : Subscriber → List Notice} {marks : Subscriber → List Mark}

/-- Each subscriber leaves what it leaves, one after another. -/
theorem callAll_leaves {subscribers : List Subscriber}
    (leaves : ∀ s ∈ subscribers, s.Leaves host ev event w (notices s) (marks s)) (ns : List Notice)
    (hs : List Mark) :
    (hub host ev).callAll event subscribers { w with notices := ns, history := hs } =
      (.ok ⟨⟩, { w with
        notices := ns ++ subscribers.flatMap notices, history := hs ++ subscribers.flatMap marks }) := by
  induction subscribers generalizing ns hs with
  | nil => simp [Hub.callAll]
  | cons s rest ih =>
    have handled : (hub host ev).handle event s { w with notices := ns, history := hs } =
      (.ok ⟨⟩, { w with notices := ns ++ notices s, history := hs ++ marks s }) :=
      leaves s List.mem_cons_self ns hs
    rw [Hub.callAll, handled]
    simp only
    rw [ih fun s' mem => leaves s' (List.mem_cons_of_mem _ mem)]
    simp [List.append_assoc]

/-- Telling an event leaves what those leave who are told of it. -/
theorem run_publish_leaves (hev : ev.Obeys fun w w' => w'.bus = w.bus) (ordered : w.bus.Ordered)
    (type : Text) (data : Option Portrait) (run : Option RunId)
    (leaves : ∀ s ∈ audience w ⟨type, Clock.iso w.clock, run, data⟩,
      s.Leaves host ev ⟨type, Clock.iso w.clock, run, data⟩ w (notices s) (marks s)) :
    ExceptT.run (publish host ev type data run) w = (.ok ⟨⟩, { w with
      notices := w.notices ++ (audience w ⟨type, Clock.iso w.clock, run, data⟩).flatMap notices
      history := w.history ++ (audience w ⟨type, Clock.iso w.clock, run, data⟩).flatMap marks }) := by
  rw [run_publish_eq hev host ordered]
  exact callAll_leaves leaves w.notices w.history

end Action

/-! ## Failures that are described without running code -/

namespace World

/-- The world after an event was told to subscribers that left some notices. -/
def leaving (w : World) (event : Event) (subscribers : List Subscriber) (notices : List Notice) :
    World :=
  { w with
    notices := w.notices ++ notices
    history := w.history ++ subscribers.flatMap (Subscriber.hears event) }

/-- The engine's parts are as they were made, and to describe what subscribers throw runs no
code. -/
structure Tame (w : World) : Prop where
  intact : w.heap.Intact
  ordered : w.bus.Ordered
  describable : ∀ c, ∀ s ∈ w.bus.channel c, ∀ v, s.handler.reaction = .fail v → w.heap.Describable v

namespace Tame

variable {w w' : World}

/-- Added objects do not matter for tameness, and whatever else happens but new subscriptions. -/
theorem of_extends (tame : w.Tame) (hext : w.heap.Extends w'.heap) (hbus : w'.bus = w.bus) :
    w'.Tame where
  intact := tame.intact.extends_ hext
  ordered := by rw [hbus]; exact tame.ordered
  describable c s subscribed v fails := by
    rw [hbus] at subscribed
    exact (tame.describable c s subscribed v fails).extends_ hext

/-- Those who are told an event where all is tame leave notices at most, and marks if they observe
it. -/
theorem leaves (tame : w.Tame) (host : Host) (ev : Evaluator) (event : Event) :
    ∀ s ∈ audience w event, ∃ notices, s.Leaves host ev event w notices (s.hears event) := by
  intro s mem
  obtain ⟨c, ⟨serial, id, reaction⟩, subscribed, rfl⟩ := (List.mem_append.mp mem).elim
    Bus.exists_subscription Bus.exists_subscription
  cases reaction with
  | observe => exact ⟨_, Subscriber.leaves_observe⟩
  | logFinish logger => exact ⟨_, Subscriber.leaves_logFinish fun _ => tame.intact⟩
  | fail v =>
    obtain ⟨words, described⟩ := (tame.describable c _ subscribed v rfl).describes
    exact ⟨_, Subscriber.leaves_fail (described.describes ev) fun _ => tame.intact⟩

end Tame

end World

namespace Action

/-- Telling an event where all is tame is heard by everyone who observes it, and changes nothing
else. -/
theorem run_publish_tame (host : Host) {ev : Evaluator} {w : World}
    (hev : ev.Obeys fun w w' => w'.bus = w.bus) (tame : w.Tame) (type : Text)
    (data : Option Portrait) (run : Option RunId) :
    ∃ notices, ExceptT.run (publish host ev type data run) w =
      (.ok ⟨⟩, w.leaving ⟨type, Clock.iso w.clock, run, data⟩
        (audience w ⟨type, Clock.iso w.clock, run, data⟩) notices) := by
  choose! notices leaves using tame.leaves host ev ⟨type, Clock.iso w.clock, run, data⟩
  exact ⟨_, run_publish_leaves hev tame.ordered type data run leaves⟩

end Action

end EvalPlan

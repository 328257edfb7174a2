import EvalPlan.Proofs.Delivery

/-!
# Events that are published on the way

What an engine does publishes events here and there: when a run begins or ends, when a task or a
builder is registered, when a script asks for it. `Publishes` says that an action comes to publish
an event, and in which world. Whatever the steps of the engine keep is kept until then
(`Publishes.keeps`).
-/

namespace EvalPlan

open EvalPlan.Action

/-- An event that is about to be published. -/
structure Publication where
  /-- How the code that describing and reporting may call is carried out. -/
  evaluator : Evaluator
  /-- The type of the event. -/
  type : Text
  /-- What it says. -/
  data : Option Portrait
  /-- The run it belongs to. -/
  run : Option RunId
  /-- The world in which it is published. -/
  world : World

namespace Publication

/-- The event. -/
def event (p : Publication) : Event := ⟨p.type, Clock.iso p.world.clock, p.run, p.data⟩

/-- The subscribers that are told of it, in order. -/
def audience (p : Publication) : List Subscriber := Action.audience p.world p.event

/-- What comes of it. -/
def outcome (host : Host) (p : Publication) : Except Value PUnit × World :=
  ExceptT.run (publish host p.evaluator p.type p.data p.run) p.world

/-- Each of the subscribers that are told of it leaves notices and marks at most. -/
def Harmless (host : Host) (p : Publication) : Prop :=
  ∀ s ∈ p.audience, s.Harmless host p.evaluator p.event p.world

end Publication

/-- An action comes to publish an event. -/
inductive Publishes (host : Host) (p : Publication) : {α : Type} → Action α → World → Prop
  /-- The event is published. -/
  | here : Publishes host p (publish host p.evaluator p.type p.data p.run) p.world
  /-- The first part of the action publishes it. -/
  | first {α β : Type} {x : Action α} {f : α → Action β} {w : World} :
      Publishes host p x w → Publishes host p (x >>= f) w
  /-- The first part answers, and the second one publishes it. -/
  | next {α β : Type} {x : Action α} {f : α → Action β} {w w₁ : World} {a : α} :
      Ordinary x → ExceptT.run x w = (.ok a, w₁) → Publishes host p (f a) w₁ →
      Publishes host p (x >>= f) w
  /-- What may throw publishes it. -/
  | attempt {α : Type} {x : Action α} {f : Value → Action α} {w : World} :
      Publishes host p x w → Publishes host p (tryCatch x f) w
  /-- Something was thrown, and what handles it publishes the event. -/
  | handler {α : Type} {x : Action α} {f : Value → Action α} {w w₁ : World} {u : Value} :
      Ordinary x → ExceptT.run x w = (.error u, w₁) → Publishes host p (f u) w₁ →
      Publishes host p (tryCatch x f) w
  /-- It is published while a list is put into text. -/
  | joining {α : Type} {r : Ref} {x : Action α} {w : World} :
      Publishes host p x { w with joining := r :: w.joining } →
      Publishes host p (whileJoining r x) w
  /-- It is published while a run is bound. -/
  | binding {α : Type} {binding : Option RunId} {x : Action α} {w : World} :
      Publishes host p x (w.enter binding) → Publishes host p (withBinding binding x) w
  /-- It is published before the scope of a script ends. -/
  | ending {α : Type} {id : RunId} {script : Text} {x : Action α} {w : World} :
      Publishes host p x w → Publishes host p (endingScope id script x) w

/-- Until the event is published, everything is kept that the steps of an engine keep. -/
theorem Publishes.keeps {host : Host} {p : Publication} {α : Type} {act : Action α} {w : World}
    (h : Publishes host p act w) {R : World → World → Prop} (law : Indifferent R) :
    R w p.world := by
  induction h with
  | here => exact law.refl _
  | first _ ih => exact ih
  | next ordinary answers _ ih => exact law.trans ((ordinary R law).of_run answers) ih
  | attempt _ ih => exact ih
  | handler ordinary throws _ ih => exact law.trans ((ordinary R law).of_run throws) ih
  | joining _ ih => exact law.trans (law.onJoining _ _) ih
  | binding _ ih => exact law.trans (law.onBinding _ _ rfl) ih
  | ending _ ih => exact ih

/-! ## Requests -/

/-- Carrying requests out comes to publish an event. -/
inductive Request.Publishes (host : Host) (ev : Evaluator) (p : Publication) :
    List Request → World → Prop
  /-- What is asked first publishes it. -/
  | performing {r : Request} {rest : List Request} {w : World} :
      EvalPlan.Publishes host p (r.perform host ev) w → Publishes host ev p (r :: rest) w
  /-- What the first request left for later publishes it. -/
  | settling {r : Request} {rest : List Request} {w : World} :
      EvalPlan.Publishes host p (settle ev) (ExceptT.run (r.perform host ev) w).2 →
      Publishes host ev p (r :: rest) w
  /-- A later request publishes it. -/
  | later {r : Request} {rest : List Request} {w : World} :
      Publishes host ev p rest (r.serve host ev w) → Publishes host ev p (r :: rest) w

end EvalPlan

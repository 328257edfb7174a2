import EvalPlan.World.Journal

/-!
# A session with a bus

A bus whose handlers change subscriptions and emit events themselves. Each handler has a list of
acts that it performs in order when it is called; an act is performed a limited number of times in
all, and the first one that throws ends the call. The session remembers every subscription that was
made, so that it can be taken back by its number.
-/

namespace EvalPlan.Bus

/-- What a handler does. -/
inductive Act
  /-- Subscribes a handler to a type. -/
  | subscribe (type handler : Text)
  /-- Takes the subscription of a number back. -/
  | unsubscribe (number : Nat)
  /-- Emits an event that says nothing. -/
  | emit (type : Text)
  /-- Clears a type, or all of them. -/
  | clear (type : Option Text)
  /-- Throws a value. -/
  | fail (v : Value)

/-- An act that is performed a limited number of times. -/
structure Limited where
  /-- The act. -/
  act : Act
  /-- How often it may still be performed. -/
  left : Nat

/-- A session with handlers of some kind and what they keep. Unless said otherwise handlers are
named, and each keeps the acts that it has left. -/
structure Session (H : Type := Text) (A : Type := Table Text (List Limited)) where
  /-- The world that values live in and notices are left in. -/
  world : World
  /-- The bus. -/
  bus : Bus H
  /-- The subscriptions that were made, in order. -/
  made : List (Text × H)
  /-- What the handlers keep. -/
  acts : A

namespace Session

section handlers

variable {H A : Type}

/-- Subscribes a handler; answers the number of the subscription. -/
def subscribe [BEq H] (s : Session H A) (type : Text) (handler : H) : Nat × Session H A :=
  (s.made.length,
    { s with bus := s.bus.subscribe type handler, made := s.made ++ [(type, handler)] })

/-- Takes the subscription of a number back. -/
def unsubscribe [BEq H] (s : Session H A) (number : Nat) : Session H A :=
  match s.made[number]? with
  | some (type, handler) => { s with bus := s.bus.unsubscribe type handler }
  | none => s

/-- Clears a type, or all of them. -/
def clear (s : Session H A) (type : Option Text) : Session H A := { s with bus := s.bus.clear type }

/-- An event of a type. -/
def event (s : Session H A) (type : Text) (data : Option Portrait) : Event :=
  { type, timestamp := Clock.iso s.world.clock, run := none, data }

/-- Carries an action out in the session's world. -/
def lift (s : Session H A) (act : Action Unit) : Except Value Unit × Session H A :=
  let (r, world) := act.run s.world
  (r, { s with world })

/-- What handlers do with an event. -/
abbrev Reacting (H A : Type) := Event → H → Session H A → Except Value Unit × Session H A

variable (host : Host) (ev : Evaluator)

/-- Calls a handler with an event; what it throws is reported. -/
def call (react : Reacting H A) (event : Event) (handler : H) (s : Session H A) :
    Except Value Unit × Session H A :=
  match react event handler s with
  | (.ok _, s) => (.ok (), s)
  | (.error thrown, s) => s.lift (Action.reportFailure host ev event thrown)

/-- The number of handlers that one event may be delivered to beyond those that are subscribed. -/
def deliveryBound : Nat := 100000

/-- Tells an event to handlers that react in a given way. -/
def tell (react : Reacting H A) (event : Event) (s : Session H A) :
    Except Value Unit × Session H A :=
  let hub : Hub (Session H A) H Value := { bus := Session.bus, handle := call host ev react }
  match hub.emit (s.bus.serial + deliveryBound) event s with
  | some r => r
  | none => s.lift (Action.crash .range "an event is delivered without end")

end handlers

/-- Takes one performance of an act of a handler away; answers the act if it may be performed. -/
def take? (s : Session) (handler : Text) (i : Nat) : Option (Act × Session) :=
  let acts := (s.acts.get? handler).getD []
  match acts[i]? with
  | some ⟨act, left + 1⟩ => some (act, { s with acts := s.acts.put handler (acts.set i ⟨act, left⟩) })
  | _ => none

/-- Performs an act, given how events are emitted. -/
def perform (emit : Event → Session → Except Value Unit × Session) (act : Act) (s : Session) :
    Except Value Unit × Session :=
  match act with
  | .subscribe type handler => (.ok (), (s.subscribe type handler).2)
  | .unsubscribe number => (.ok (), s.unsubscribe number)
  | .emit type => emit (s.event type none) s
  | .clear type => (.ok (), s.clear type)
  | .fail v => (.error v, s)

/-- Performs acts of a handler from a position on, as many as there are. -/
def performFrom (emit : Event → Session → Except Value Unit × Session) (handler : Text) :
    Nat → Nat → Session → Except Value Unit × Session
  | 0, _, s => (.ok (), s)
  | n + 1, i, s =>
    match s.take? handler i with
    | none => performFrom emit handler n (i + 1) s
    | some (act, s) =>
      match perform emit act s with
      | (.ok _, s) => performFrom emit handler n (i + 1) s
      | r => r

/-- What a named handler does with an event, given how events are emitted: it notes the event and
performs its acts. -/
def react (emit : Event → Session → Except Value Unit × Session) :
    Reacting Text (Table Text (List Limited)) :=
  fun event handler s =>
    let noted := (s.lift (Action.note (.handled handler event.type event.data))).2
    performFrom emit handler ((s.acts.get? handler).getD []).length 0 noted

/-- Emits an event. The number bounds how deeply events are emitted by handlers. -/
def emit (host : Host) (ev : Evaluator) : Nat → Event → Session → Except Value Unit × Session
  | 0, _, s => s.lift (Action.crash .range "events are emitted too deeply")
  | n + 1, event, s => tell host ev (react (emit host ev n)) event s

end Session

end EvalPlan.Bus

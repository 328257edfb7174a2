import EvalPlan.Table
import EvalPlan.Text
import EvalPlan.Value.Portrait

/-!
# The event bus

Handlers subscribe to event types, or to every event under the type `*`. The handlers of a type
stand in a channel in the order of their subscriptions; a channel holds each handler once. Taking
the last handler out of a channel, or clearing its type, detaches the channel: the next
subscription of the type opens a new one.

`Hub.emit` delivers an event to the channel of its type and then to the channel of `*`. A handler
may change subscriptions while it is called. Delivery goes on through the channel that it started
with, in the order of subscription, up to handlers that were added meanwhile. Since handlers may
go on adding handlers for ever, delivery is bounded by a number of calls.
-/

namespace EvalPlan

/-- An event. -/
structure Event where
  /-- The type it is delivered under. -/
  type : Text
  /-- When it happened. -/
  timestamp : Text
  /-- The run it belongs to. -/
  run : Option RunId
  /-- What it says. -/
  data : Option Portrait

/-- The type that stands for every event. -/
def Event.any : Text := "*"

/-- A subscription of a handler; later ones have greater serial numbers. -/
structure Subscription (H : Type) where
  /-- The serial number. -/
  serial : Nat
  /-- The handler. -/
  handler : H

/-- The state of a bus. -/
structure Bus (H : Type) where
  /-- Every channel that was opened. -/
  channels : Array (List (Subscription H))
  /-- The channel of each type that has one. -/
  table : Table Text Nat
  /-- The serial number of the next subscription. -/
  serial : Nat

namespace Bus

variable {H : Type}

/-- A bus without subscriptions. -/
def empty : Bus H := ⟨#[], [], 0⟩

instance : Inhabited (Bus H) := ⟨empty⟩

/-- The subscriptions in a channel. -/
def channel (b : Bus H) (c : Nat) : List (Subscription H) := (b.channels[c]?).getD []

/-- The handlers of a type in order. -/
def handlers (b : Bus H) (type : Text) : List H :=
  match b.table.get? type with
  | some c => (b.channel c).map (·.handler)
  | none => []

/-- The number of handlers of a type. -/
def count (b : Bus H) (type : Text) : Nat := (b.handlers type).length

/-- The channel of a type, opened if there is none. -/
def openChannel (b : Bus H) (type : Text) : Nat × Bus H :=
  match b.table.get? type with
  | some c => (c, b)
  | none =>
    (b.channels.size,
      { b with channels := b.channels.push [], table := b.table.put type b.channels.size })

variable [BEq H]

/-- Subscribes a handler to a type. A handler that is subscribed already keeps its place. -/
def subscribe (b : Bus H) (type : Text) (handler : H) : Bus H :=
  let (c, b) := b.openChannel type
  -- a channel holds each handler once
  if (b.channel c).any (·.handler == handler) then b
  else
    { b with
      channels := b.channels.setIfInBounds c (b.channel c ++ [⟨b.serial, handler⟩])
      serial := b.serial + 1 }

/-- Takes a handler out of the channel of a type. -/
def unsubscribe (b : Bus H) (type : Text) (handler : H) : Bus H :=
  match b.table.get? type with
  | none => b
  | some c =>
    -- the channel keeps its number, so that a delivery that goes on in it sees what is left
    let rest := (b.channel c).filter fun s => !(s.handler == handler)
    { b with
      channels := b.channels.setIfInBounds c rest
      table := if rest.isEmpty then b.table.erase type else b.table }

omit [BEq H] in
/-- Detaches the channel of a type, or every channel. -/
def clear (b : Bus H) (type : Option Text) : Bus H :=
  match type with
  | none => { b with table := [] }
  | some t => { b with table := if t = Event.any then [] else b.table.erase t }

omit [BEq H] in
/-- The first subscription in a channel whose serial number is not below the given one. -/
def next? (b : Bus H) (c serial : Nat) : Option (Subscription H) :=
  (b.channel c).find? fun s => serial ≤ s.serial

end Bus

/-- A state that holds a bus, and what calling a handler does to it. A call may fail only where a
failure cannot even be reported. -/
structure Hub (σ H ε : Type) where
  /-- The bus in a state. -/
  bus : σ → Bus H
  /-- Calls a handler with an event. -/
  handle : Event → H → σ → Except ε Unit × σ

namespace Hub

variable {σ H ε : Type}

/-- Delivers an event to the subscriptions of a channel from a serial number on. -/
def walk (hub : Hub σ H ε) (event : Event) (c : Nat) : Nat → Nat → σ → Option (Except ε Unit × σ)
  | 0, _, _ => none
  | n + 1, serial, s =>
    match (hub.bus s).next? c serial with
    | none => some (.ok (), s)
    | some sub =>
      match hub.handle event sub.handler s with
      -- the next one is sought in the state that the handler left
      | (.ok _, s) => hub.walk event c n (sub.serial + 1) s
      | (.error e, s) => some (.error e, s)

/-- Delivers an event to the channel that a type has now. -/
def dispatch (hub : Hub σ H ε) (bound : Nat) (type : Text) (event : Event) (s : σ) :
    Option (Except ε Unit × σ) :=
  match (hub.bus s).table.get? type with
  | none => some (.ok (), s)
  | some c => hub.walk event c bound 0 s

/-- Delivers an event to the handlers of its type and then to those of every event. There is no
answer when more handlers are called than the bound allows. -/
def emit (hub : Hub σ H ε) (bound : Nat) (event : Event) (s : σ) : Option (Except ε Unit × σ) :=
  match hub.dispatch bound event.type event s with
  -- the channel of every event is looked up after the first deliveries
  | some (.ok _, s) => hub.dispatch bound Event.any event s
  | r => r

end Hub

end EvalPlan

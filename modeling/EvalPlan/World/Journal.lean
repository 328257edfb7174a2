import EvalPlan.World.Words

/-!
# The journal

What is logged, and what is told to the subscribers of the engine's bus.
-/

namespace EvalPlan.Action

/-- One field of what a log entry or an event says. -/
inductive Datum
  /-- A value. -/
  | value (v : Value)
  /-- The identifier of a run. -/
  | run (id : RunId)

instance : Coe Value Datum := ⟨Datum.value⟩

/-- A datum as it is now. -/
def Datum.portrait (h : Heap) : Datum → Portrait
  | .value v => h.portrait v
  | .run id => .run id

/-- Fields as they are now. -/
def fieldsPortrait (h : Heap) (fields : List (Text × Datum)) : Portrait :=
  .object (some "Object") (fields.map fun f => (f.1, f.2.portrait h))

/-! ### Logging -/

/-- Leaves an entry where the entries of a logger go. A message that is printed becomes text. -/
def deposit (ev : Evaluator) (sink : Sink) (level : Level) (message : Value)
    (data : Option Portrait) : Action Unit := do
  match sink with
  | .record => note (.entry level ((← heap).portrait message) data)
  | .console component threshold =>
    -- a message that is not printed is not put into text either
    if threshold.admits level then
      let t ← words ev .main message
      note (.line (.level level) [.text (Logger.bracketed component ++ t), data.getD (.text [])])

/-- Writes through the object of a logger: its own method of a level leaves the entry, and a method
that a script put in its place is called. -/
def writeThrough (ev : Evaluator) (logger : Value) (sink : Sink) (level : Level) (message : Value)
    (data : Option Portrait) : Action Unit := do
  let method ← property ev .main logger level.name
  match (← heap).callable? method with
  -- a script may have put the method of another level there
  | some (.logging level) => deposit ev sink level message data
  | _ => do
    -- what stands there instead is called without the fields
    let _ ← callProperty ev .main method logger [message]

/-- A message as a logger passes it on: it is put into text only where something stands in front of
it. -/
def labelledMessage (ev : Evaluator) (l : Logger) (message : Value) : Action Value := do
  match l.scopes with
  | [] => return message
  | _ => return .text (l.labelled (← words ev .main message))

/-- Writes to a logger. -/
def write (ev : Evaluator) (l : Logger) (level : Level) (message : Value) (data : Option Portrait) :
    Action Unit := do
  let message ← labelledMessage ev l message
  match l.reach with
  | .direct => deposit ev l.sink level message data
  | .object => writeThrough ev (.ref Fixture.logger.ref) l.sink level message data
  | .engine => do
    let logger ← property ev .main (.ref Fixture.engine.ref) "logger"
    writeThrough ev logger l.sink level message data

/-- Writes a message with fields to a logger. -/
def log (ev : Evaluator) (l : Logger) (level : Level) (message : Text)
    (fields : List (Text × Datum)) : Action Unit := do
  write ev l level (.text message) (some (fieldsPortrait (← heap) fields))

/-! ### Events -/

/-- Reports a subscriber that threw. -/
def reportFailure (host : Host) (ev : Evaluator) (event : Event) (thrown : Value) :
    Action Unit := do
  let error ← describe ev thrown
  log ev host.loggers.bus .error "Event handler failed"
    [("type", Value.text event.type), ("error", Value.text error)]

/-- Lets a subscriber note an event. -/
def observe (event : Event) (s : Subscriber) : Action Unit := do
  mark (.told s.id event)
  note (.event event.type event.data event.run)

/-- What a subscriber does with an event. -/
def react (ev : Evaluator) (event : Event) (s : Subscriber) : Action Unit :=
  match s.reaction with
  | .observe => observe event s
  | .fail v => throw v
  | .logFinish logger => write ev logger .info (.text "Script finished") event.data

/-- Calls a subscriber with an event. What it throws is reported. -/
def deliver (host : Host) (ev : Evaluator) (event : Event) (s : Subscriber) : Action Unit :=
  tryCatch (react ev event s) (reportFailure host ev event)

/-- The engine's bus within the world. -/
def hub (host : Host) (ev : Evaluator) : Hub World Subscriber Value :=
  { bus := World.bus
    handle := fun event s w => (deliver host ev event s).run w }

/-- Publishes an event to the subscribers. None of them subscribes another one, so that there are no
more of them than subscriptions were made. -/
def publish (host : Host) (ev : Evaluator) (type : Text) (data : Option Portrait)
    (run : Option RunId) : Action Unit := do
  let w ← get
  let event : Event := { type, timestamp := Clock.iso w.clock, run, data }
  match (hub host ev).emit (w.bus.serial + 1) event w with
  | some (.ok _, w) => set w
  -- what was done until then stays done
  | some (.error v, w) => do
    set w
    throw v
  | none => crash .range "an event is delivered without end"

/-- What a script sees of a datum. The identifier of a run is a text that says nothing else. -/
def Datum.shown : Datum → Value
  | .value v => v
  | .run _ => .text "run"

/-- An event as scripts see it. -/
def eventObject (type : Text) (fields : List (Text × Datum)) (run : Option RunId) :
    Action Value := do
  let timestamp := Clock.iso (← get).clock
  let data ← record .main (fields.map fun f => (f.1, f.2.shown))
  record .main
    [("type", .text type), ("timestamp", .text timestamp),
      ("traceId", (run.map fun id => (Datum.run id).shown).getD .undefined), ("data", data)]

/-- The property of an object is an operation, on which no script put something else. -/
def isOperation (h : Heap) (v : Value) (o : Operation) : Bool :=
  match h.callable? v with
  | some (.operation found) => found == o
  | _ => false

/-- Emits an event with fields: the engine is asked to emit it, and asks its bus. -/
def emit (host : Host) (ev : Evaluator) (type : Text) (fields : List (Text × Datum))
    (run : Option RunId) : Action Unit := do
  let engine : Value := .ref host.role.facade
  let own ← property ev .main engine Operation.emit.name
  -- what a script put in the place of either step gets the event as an object
  if isOperation (← heap) own .emit then
    let bus ← property ev .main engine "eventBus"
    let deliver ← property ev .main bus Operation.publish.name
    if isOperation (← heap) deliver .publish then
      publish host ev type (some (fieldsPortrait (← heap) fields)) run
    else
      let _ ← callProperty ev .main deliver bus [← eventObject type fields run]
  else
    let _ ← callProperty ev .main own engine [← eventObject type fields run]

/-- Subscribes to the engine's bus. -/
def subscribe (type : Text) (reaction : Reaction) : Action Nat := do
  let w ← get
  let id := w.bus.serial
  set { w with bus := w.bus.subscribe type ⟨id, reaction⟩ }
  return id

/-- Takes a subscription back. -/
def unsubscribe (type : Text) (id : Nat) : Action Unit :=
  modify fun w => { w with bus := w.bus.unsubscribe type ⟨id, .observe⟩ }

end EvalPlan.Action

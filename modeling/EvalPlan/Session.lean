import EvalPlan.Engine

/-!
# Sessions

What may be asked of an engine from outside, and what a sequence of requests leaves. A request may
fail; what it left for later runs before the next one, whether it failed or not.
-/

namespace EvalPlan

open Script (Program)

/-- A request. -/
inductive Request
  /-- The engine is started. -/
  | start
  /-- A script is loaded and run. -/
  | load (source : Source)
  /-- A program is run. -/
  | run (name : Text) (program : Program)
  /-- Scripts are loaded and run at once. -/
  | together (sources : List Source)
  /-- The engine is asked to carry an operation out. -/
  | ask (o : Operation) (arguments : List Value)
  /-- A builder is registered for a type. -/
  | register (type builder : Value)
  /-- A type is marked with a default builder. -/
  | mark (type builder : Value)
  /-- A type is defined under a full name. -/
  | define (name : Text) (type : Value)

namespace Request

/-- Does what is asked. -/
def perform (host : Host) (ev : Evaluator) : Request → Action Unit
  | start => Action.startEngine host ev
  | load source => do
    let _ ← Action.awaiting ev (Action.requestLoad host ev source)
  | run name program => do
    let _ ← Action.requestRun host ev name program
  | together sources => do
    let _ ← Action.loadTogether host ev sources
  | ask o arguments => do
    let _ ← Action.askEngine host ev o arguments
  | register type builder => Action.register host ev type builder
  | mark type builder => Action.markType type builder
  | define name type => Action.defineType name type

/-- The world after a request and what it left for later. -/
def serve (host : Host) (ev : Evaluator) (w : World) (r : Request) : World :=
  ((Action.settle ev).run ((r.perform host ev).run w).2).2

/-- The world after requests, one after another. -/
def session (host : Host) (ev : Evaluator) (w : World) (rs : List Request) : World :=
  rs.foldl (serve host ev) w

end Request

end EvalPlan

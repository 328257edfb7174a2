import EvalPlan.Clock
import EvalPlan.Scope
import EvalPlan.Table
import EvalPlan.Text

/-!
# Schedules of scopes

Steps that begin and end scopes, offer tasks to them, and run other steps with a scope bound. A
fiber is code whose segments are carried out one at a time, whenever it is resumed; all of them have
the bindings that held where the fiber was spawned.

Several trackers may be used side by side. Each has a binding of its own.

Steps are carried out less deeply than a number says. `bound` is a number that is never reached: to
resume a fiber uses up one of its segments, and whatever a step carries out is part of it. The
history of a schedule says what was done; no step depends on it.
-/

namespace EvalPlan.Schedule

/-- One step. -/
inductive Step (ε : Type)
  /-- Begins the scope of a name. -/
  | start (scope : Text)
  /-- Asks for the state of a scope. -/
  | state (scope : Text)
  /-- Offers a task to a scope. -/
  | register (scope task : Text)
  /-- Offers a task to the current scope of a tracker. -/
  | registerCurrent (tracker task : Text)
  /-- Ends a scope. -/
  | finish (scope : Text)
  /-- Asks for the current scope of a tracker. -/
  | current (tracker : Text)
  /-- Asks how many different identifiers some scopes have. -/
  | distinct (scopes : List Text)
  /-- Asks whether the identifier of a scope has the form of one. -/
  | wellNamed (scope : Text)
  /-- Carries steps out with a scope bound. -/
  | run (tracker scope : Text) (steps : List (Step ε))
  /-- Spawns a fiber, with a scope bound if one is given. -/
  | spawn (tracker fiber : Text) (scope : Option Text) (segments : List (List (Step ε)))
  /-- Carries the next segment of a fiber out. -/
  | resume (fiber : Text)
  /-- Throws. -/
  | fail (thrown : ε)
deriving Inhabited

/-- What a step answers. -/
inductive Answer (ε : Type)
  /-- Nothing. -/
  | nothing
  /-- Whether a scope is open, and how many tasks it holds. -/
  | state (isOpen : Bool) (size : Nat)
  /-- A truth value. -/
  | truth (b : Bool)
  /-- A number. -/
  | count (n : Nat)
  /-- The name of a scope. -/
  | name (scope : Text)
  /-- Tasks. -/
  | tasks (names : List Text)
  /-- How further steps came out. -/
  | steps (outcomes : List (Except ε (Answer ε)))
deriving Inhabited

/-- The scope that is bound for each tracker. -/
abbrev Bindings := Table Text Nat

/-- A fiber: the bindings it has and the segments that are left. -/
structure Fiber (ε : Type) where
  /-- Its bindings. -/
  bindings : Bindings
  /-- Its segments. -/
  segments : List (List (Step ε))

/-- Something that was done. Scopes are referred to by number. -/
inductive Deed
  /-- A scope was begun. -/
  | began (scope : Nat)
  /-- Steps began to be carried out with a scope bound. -/
  | entered (tracker : Text) (scope : Nat)
  /-- A fiber was spawned, with a scope bound if one was given. -/
  | spawned (fiber : Text) (bound : Option (Text × Nat))
  /-- A segment of a fiber began to be carried out. -/
  | resumed (fiber : Text)
  /-- The steps or the segment that began last came to an end. -/
  | left
  /-- A task was offered to a scope. -/
  | offered (scope : Nat) (task : Text) (taken : Bool)
  /-- A task was offered to the current scope of a tracker, where a scope was bound or none. -/
  | offeredCurrent (tracker : Text) (binding : Option Nat) (task : Text) (taken : Bool)
  /-- A scope was ended, and handed tasks over. -/
  | ended (scope : Nat) (tasks : List Text)

/-- The state of a schedule. -/
structure State (ε : Type) where
  /-- The scopes with the names of their tasks. -/
  scopes : Scopes Text
  /-- The scopes by name. -/
  names : Table Text Nat
  /-- The fibers by name. -/
  fibers : Table Text (Fiber ε)
  /-- What was done so far, in order. -/
  history : List Deed

variable {ε : Type}

/-- Nothing was begun. -/
def State.initial : State ε := ⟨.empty, [], [], []⟩

/-- The state with one more thing done. -/
def State.did (s : State ε) (d : Deed) : State ε := { s with history := s.history ++ [d] }

/-- How a step is carried out: with bindings, from a state. -/
abbrev Exec (ε : Type) := Bindings → Step ε → State ε → Except ε (Answer ε) × State ε

/-- How steps come out one after another, each for itself. A step that is there to throw ends
them. -/
def runSteps (exec : Exec ε) (bindings : Bindings) :
    List (Step ε) → State ε → Except ε (List (Except ε (Answer ε))) × State ε
  | [], s => (.ok [], s)
  | .fail thrown :: _, s => (.error thrown, s)
  | step :: rest, s =>
    let (r, s) := exec bindings step s
    let (rs, s) := runSteps exec bindings rest s
    (rs.map (r :: ·), s)

/-- The number of a scope. -/
def State.scope (s : State ε) (name : Text) : Nat := (s.names.get? name).getD s.scopes.tasks.size

/-- The name of a scope. -/
def State.nameOf (s : State ε) (id : Nat) : Option Text := (s.names.find? (·.2 == id)).map (·.1)

/-- The state of a scope as an answer. -/
def State.view (s : State ε) (id : Nat) : Answer ε := .state (s.scopes.isOpen id) (s.scopes.size id)

/-- The bindings with a scope bound for a tracker. -/
def Bindings.bind (b : Bindings) (tracker : Text) (id : Nat) : Bindings := Table.put b tracker id

/-- Carries a step out, given how steps within it are. -/
def execStep (inner : Exec ε) (bindings : Bindings) (step : Step ε) (s : State ε) :
    Except ε (Answer ε) × State ε :=
  match step with
  | .start name =>
    let (id, scopes) := s.scopes.start
    (.ok (.state (scopes.isOpen id) (scopes.size id)),
      { s.did (.began id) with scopes, names := s.names.put name id })
  | .state name => (.ok (s.view (s.scope name)), s)
  | .register name task =>
    let (taken, scopes) := s.scopes.register (s.scope name) task
    (.ok (.truth taken), { s.did (.offered (s.scope name) task taken) with scopes })
  | .registerCurrent tracker task =>
    let binding := Table.get? bindings tracker
    let (taken, scopes) := s.scopes.registerCurrent binding task
    (.ok (.truth taken), { s.did (.offeredCurrent tracker binding task taken) with scopes })
  | .finish name =>
    let (tasks, scopes) := s.scopes.finish (s.scope name)
    (.ok (.tasks tasks), { s.did (.ended (s.scope name) tasks) with scopes })
  | .current tracker =>
    match (s.scopes.current? (Table.get? bindings tracker)).bind s.nameOf with
    | some name => (.ok (.name name), s)
    | none => (.ok .nothing, s)
  | .distinct names => (.ok (.count (names.map s.scope).eraseDups.length), s)
  | .wellNamed name => (.ok (.truth (Clock.isRunName (Clock.runName 0 (s.scope name)))), s)
  | .run tracker name steps =>
    let id := s.scope name
    let (rs, s) := runSteps inner (bindings.bind tracker id) steps (s.did (.entered tracker id))
    (rs.map .steps, s.did .left)
  | .spawn tracker name scope segments =>
    let bound := scope.map fun scope => (tracker, s.scope scope)
    let bindings := match bound with
      | some (tracker, id) => bindings.bind tracker id
      | none => bindings
    (.ok .nothing,
      { s.did (.spawned name bound) with fibers := s.fibers.put name ⟨bindings, segments⟩ })
  | .resume name =>
    match s.fibers.get? name with
    | none => (.ok .nothing, s)
    | some ⟨_, []⟩ => (.ok .nothing, s)
    | some ⟨bound, segment :: rest⟩ =>
      let s := { s.did (.resumed name) with fibers := s.fibers.put name ⟨bound, rest⟩ }
      let (rs, s) := runSteps inner bound segment s
      (rs.map .steps, s.did .left)
  | .fail thrown => (.error thrown, s)

/-- Carries a step out; steps are nested less deeply than the number says. -/
def exec : Nat → Exec ε
  | 0 => fun _ _ s => (.ok .nothing, s)
  | n + 1 => execStep (exec n)

mutual

/-- The number of steps and segments that a step holds. -/
def Step.weight : Step ε → Nat
  | .run _ _ steps => stepsWeight steps + 1
  | .spawn _ _ _ segments => segmentsWeight segments + 1
  | _ => 1

/-- The number of steps and segments in a list of steps. -/
def stepsWeight : List (Step ε) → Nat
  | [] => 0
  | step :: rest => step.weight + stepsWeight rest

/-- The number of steps and segments in a list of segments. -/
def segmentsWeight : List (List (Step ε)) → Nat
  | [] => 0
  | segment :: rest => stepsWeight segment + segmentsWeight rest + 1

end

/-- The number of steps and segments that fibers have left. -/
def fibersWeight : Table Text (Fiber ε) → Nat
  | [] => 0
  | (_, fiber) :: rest => segmentsWeight fiber.segments + fibersWeight rest

/-- The number of steps and segments that the fibers of a state have left. -/
def State.weight (s : State ε) : Nat := fibersWeight s.fibers

/-- How deeply the steps of a schedule can be nested at most. -/
def bound (steps : List (Step ε)) (s : State ε) : Nat := stepsWeight steps + s.weight

/-- Carries steps out one after another, each for itself; they are nested less deeply than the
number says. -/
def runEach (n : Nat) : List (Step ε) → State ε → List (Except ε (Answer ε)) × State ε
  | [], s => ([], s)
  | step :: rest, s =>
    let (r, s) := exec n [] step s
    let (rs, s) := runEach n rest s
    (r :: rs, s)

/-- Carries a schedule out. -/
def carryOut (steps : List (Step ε)) (s : State ε) : List (Except ε (Answer ε)) × State ε :=
  runEach (bound steps s) steps s

/-- How the steps of a schedule come out. -/
def runAll (steps : List (Step ε)) (s : State ε) : List (Except ε (Answer ε)) :=
  (carryOut steps s).1

end EvalPlan.Schedule

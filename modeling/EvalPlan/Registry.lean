import EvalPlan.Manifest
import EvalPlan.Types

/-!
# The builder registry

Builders are registered for types by hand or by manifests. A type without a registration may carry
a marker that names its default builder.

The default builders come from every manifest that is found: the manifests are read first, and
their rows merged so that later ones win; then each row is resolved, and one that cannot be
resolved is logged and skipped.
-/

namespace EvalPlan

/-- The rows of manifests merged in order: each type name where it first came, with the builder
name that came last. -/
def mergeManifests (texts : List Text) : Table Text Text :=
  texts.foldl (fun table t => table.putAll (Manifest.parse t)) []

/-- The builder of a type: a registration, else its own marker. -/
def resolveBuilder? (h : Heap) (mappings : Table Value Value) (type : Value) : Option Value :=
  match mappings.get? type with
  | some builder => some builder
  | none => h.defaultBuilder? type

namespace Action

/-- Announces a registration. -/
def announceRegistration (host : Host) (ev : Evaluator) (type builder : Value) : Action Unit := do
  let h ← heap
  match host.onRegister with
  | .absent => return
  | .note => note (.registered (h.portrait type) (h.portrait builder))
  | .fail message => crash .general message
  -- the registration stands, whatever its announcement throws
  | .noteThenFail message => do
    note (.registered (h.portrait type) (h.portrait builder))
    crash .general message
  | .emit =>
    emit host ev "builder:registered" [("type", ← nameOf ev type), ("builder", ← nameOf ev builder)] none

/-- The name of what was given as a builder, for a message. -/
def givenName (ev : Evaluator) (v : Value) : Action Text := do
  let name ← nameOf ev v
  if name.isTruthy then words ev .main name else return "anonymous class"

/-- Keeps a builder for a type in place of an earlier one, if it is accepted; says whether it is. -/
def enroll (type builder : Value) : Action Bool :=
  modifyGet fun w =>
    -- whether it is a builder is judged once, now
    let accepted := w.heap.accepts type builder
    (accepted,
      { w with
        mappings := if accepted then w.mappings.put type builder else w.mappings
        history := w.history ++ [.registered type builder accepted] })

/-- What is wrong with a registration that was not accepted. -/
def registrationProblem (ev : Evaluator) (type builder : Value) : Action Problem := do
  if type.isNullish then return .typeMissing
  else if builder.isNullish then return .builderMissing
  else return .notBuilder (← givenName ev builder)

/-- Refuses a registration that was not accepted. -/
def refuseRegistration (ev : Evaluator) (type builder : Value) : Action Unit := do
  refuse (← registrationProblem ev type builder)

/-- Logs and announces a registration that was accepted. -/
def reportRegistration (host : Host) (ev : Evaluator) (type builder : Value) : Action Unit := do
  log ev host.loggers.registry .debug "Builder registered"
    [("type", ← nameOf ev type), ("builder", ← nameOf ev builder)]
  announceRegistration host ev type builder

/-- Registers a builder for a type, in place of an earlier one. -/
def register (host : Host) (ev : Evaluator) (type builder : Value) : Action Unit := do
  if ← enroll type builder then reportRegistration host ev type builder
  else refuseRegistration ev type builder

/-- Finds the builder of a type. -/
def resolve (type : Value) : Action (Option Value) := do
  let w ← get
  if type.isNullish then typeError "a type is missing"
  else return resolveBuilder? w.heap w.mappings type

/-- Attaches a default builder to a type. -/
def attach (type builder : Value) : Action Unit :=
  modify fun w => { w with heap := w.heap.mark type builder, history := w.history ++ [.marked type builder] }

/-- Marks a type with a default builder. Only objects that can change can be marked. -/
def markType (type builder : Value) : Action Unit := do
  match (← heap).object? type with
  | none => typeError "only objects can be marked"
  | some o => if o.frozen then typeError "the object cannot change" else attach type builder

/-- Reads a resource that was found. -/
def readResource (r : Resource) : Action Text := do
  match r.read (← get).files with
  | .ok t => return t
  | .error fault => do
    let cause ← alloc (errorObject .general .main (some fault.message))
    refuse (.unreadable r.origin ⟨cause, fault.message⟩)

/-- Finds the resources at a logical path. -/
def findResources (path : Text) : Action (List Resource) := do
  let w ← get
  match w.resources with
  | .listed _ => note (.lookup path)
  | .roots _ => pure ()
  return w.resources.find w.files path

/-- Reads manifests in order. -/
def readManifests (host : Host) (ev : Evaluator) : List Resource → Action (List Text)
  | [] => return []
  | r :: rest => do
    log ev host.loggers.registry .debug "Reading builder manifest" [("origin", Value.text r.origin)]
    -- a manifest that cannot be read keeps all the others from being used
    let t ← readResource r
    let ts ← readManifests host ev rest
    return t :: ts

/-- Resolves one row of the merged manifests and registers it; says whether it could be. -/
def registerRow (host : Host) (ev : Evaluator) (typeName builderName : Text) : Action Bool := do
  match ← tryLoad typeName with
  | none => do
    log ev host.loggers.registry .warn "Builder registered for nonexistent type"
      [("type", Value.text typeName)]
    return false
  | some type => do
    let names : List (Text × Datum) := [("type", Value.text typeName), ("builder", Value.text builderName)]
    -- a builder that is missing is an error, unlike a missing type
    match ← tryLoad builderName with
    | none => do
      log ev host.loggers.registry .error "Builder class not found" names
      return false
    | some builder => do
      if (← heap).isBuilder builder then
        register host ev type builder
        return true
      else
        log ev host.loggers.registry .error "Class is not a builder" names
        return false

/-- Registers the rows of the merged manifests in order and counts those that could be. -/
def registerRows (host : Host) (ev : Evaluator) : List (Text × Text) → Action Nat
  | [] => return 0
  | (typeName, builderName) :: rest => do
    let done ← registerRow host ev typeName builderName
    let count ← registerRows host ev rest
    return if done then count + 1 else count

/-- Registers the default builders that manifests name; answers how many rows were registered. -/
def loadDefaults (host : Host) (ev : Evaluator) : Action Nat := do
  let found ← findResources Manifest.buildersPath
  let merged := mergeManifests (← readManifests host ev found)
  let registered ← registerRows host ev merged
  log ev host.loggers.registry .info "Default builders loaded"
    [("entries", Value.ofNat merged.length), ("registered", Value.ofNat registered)]
  return registered

end Action

end EvalPlan

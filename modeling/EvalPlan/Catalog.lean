import EvalPlan.Json.Writer
import EvalPlan.Manifest
import EvalPlan.Registry

/-!
# Named builders

Scripts know some builders by short names. The manifest of a name lies below the directory of
named manifests, under the segments of the name; its `builder` entry is the full name of the class.
A name that could lead out of that directory is refused without any lookup. Only the first manifest
that is found counts.

What a script gives as a name need not be a text. Another value is asked for its length, whether it
includes a backslash, and for its segments by methods of its own.
-/

namespace EvalPlan

/-- A segment that stays below the directory it is in. -/
def isPlainSegment (s : Text) : Bool := !s.isEmpty && s != "." && s != ".."

/-- A name that names a builder: no backslash, and only plain segments. -/
def isBuilderName (name : Text) : Bool :=
  !name.isEmpty && !name.contains Text.backslash && (name.splitOn Text.slash).all isPlainSegment

/-- The builder entry of a manifest; an empty one does not count. -/
def builderEntry? (manifest : Text) : Option Text :=
  match (Manifest.parse manifest).get? Manifest.builderKey with
  | some name => if name.isEmpty then none else some name
  | none => none

namespace Action

/-- The value, asked as a segment of a name, is a plain one. -/
def isPlainSegmentValue (ev : Evaluator) (v : Value) : Action Bool := do
  let length ← property ev .main v "length"
  if 0 < (← magnitude ev .main length) then return !(v == .text "." || v == .text "..") else return false

/-- The value, asked as a name, names a builder. -/
def namesBuilder (ev : Evaluator) (name : Value) : Action Bool := do
  if (← property ev .main name "length") == .number 0 then return false
  else if (← invoke ev .main name "includes" [.text [Text.backslash]]).isTruthy then return false
  else
    let segments ← invoke ev .main name "split" [.text [Text.slash]]
    let test ← alloc (Object.function .main .segmentTest [] 1)
    return (← invoke ev .main segments "every" [test]).isTruthy

/-- The words of a name in a message that refuses it: its JSON text, if it has one. -/
def shownName (ev : Evaluator) (name : Value) : Action Text := do
  return (← ev.json [] [] name).getD "undefined"

/-- Loads the class that a manifest names, which must be a builder. -/
def loadNamed (ev : Evaluator) (name : Value) (origin builderName : Text) : Action Value := do
  let builder ← tryCatch (loadExact builderName) fun thrown => do
    let name ← words ev .main name
    let c ← cause ev thrown
    refuse (.builderNotFound builderName name c)
  if (← heap).isBuilder builder then return builder
  else refuse (.namedNotBuilder builderName origin)

/-- Finds the builder of an accepted name, if there is a manifest for it at a path. -/
def findAccepted (host : Host) (ev : Evaluator) (name : Value) (path : Text) :
    Action (Option Value) := do
  log ev host.loggers.catalog .debug "Looking up named builder" [("name", name), ("path", Value.text path)]
  match ← findResources path with
  | [] => do
    log ev host.loggers.catalog .debug "Named builder manifest not found" [("path", Value.text path)]
    return none
  | manifest :: _ => do
    match builderEntry? (← readResource manifest) with
    | none => refuse (.noBuilderEntry manifest.origin (← words ev .main name))
    | some builderName => return some (← loadNamed ev name manifest.origin builderName)

/-- Finds the builder of a short name, if there is a manifest for it. -/
def findNamed (host : Host) (ev : Evaluator) (name : Text) : Action (Option Value) := do
  if isBuilderName name then findAccepted host ev (.text name) (Manifest.namedPath name)
  else refuse (.invalidBuilderName (Json.quoted name))

/-- Finds the builder that a value names, if there is a manifest for it. -/
def findNamedBy (host : Host) (ev : Evaluator) (name : Value) : Action (Option Value) := do
  match name with
  | .text t => findNamed host ev t
  | v => do
    if ← namesBuilder ev v then findAccepted host ev v (Manifest.namedPath (← words ev .main v))
    else refuse (.invalidBuilderName (← shownName ev v))

end Action

end EvalPlan

import EvalPlan.Text.Blank
import EvalPlan.World.Journal

/-!
# Named types

Types are known by full names, in the order in which the names were first defined. Scripts may
leave out the namespaces that the engine imports: a name stands for the first of the name itself
and the name behind each imported namespace that is defined.
-/

namespace EvalPlan

/-- A name behind a namespace. -/
def qualified (space name : Text) : Text := space ++ [Text.dot] ++ name

/-- The names that a name may stand for, in order. -/
def candidates (imports : List Text) (name : Text) : List Text :=
  name :: imports.map fun space => qualified space name

namespace Action

/-- Defines a type under a full name. Defining a name again replaces its type. -/
def defineType (name : Text) (type : Value) : Action Unit := do
  let w ← get
  if Text.isBlankOnly name then refuse .typeNameBlank
  else if !w.heap.isType type then refuse (.notConstructor name)
  else set { w with types := { w.types with table := w.types.table.put name type } }

/-- Breaks the source of types: every lookup throws a value from now on. -/
def breakTypes (v : Value) : Action Unit :=
  modify fun w => { w with types := { w.types with broken := some v } }

/-- Loads the type of a full name. -/
def loadExact (name : Text) : Action Value := do
  let w ← get
  match w.types.broken with
  | some v => throw v
  | none =>
    match w.types.table.get? name with
    | some type => return type
    | none => refuse (.unknownType (.text name) name)

/-- Loads the type that a name stands for. -/
def loadType (imports : List Text) (name : Text) : Action Value := do
  let w ← get
  match (candidates imports name).find? w.types.table.has with
  | some full => loadExact full
  -- a name that is defined nowhere is refused as it was given
  | none => loadExact name

/-- The first defined name among those of a value behind namespaces. Both are put into text for each
of them. -/
def qualifiedName? (ev : Evaluator) (name : Value) : List Value → Action (Option Text)
  | [] => return none
  | space :: rest => do
    let space ← words ev .main space
    let full := qualified space (← words ev .main name)
    if (← get).types.table.has full then return some full else qualifiedName? ev name rest

/-- The items of a value that is gone through. -/
def itemsOf (v : Value) : Action (List Value) := do
  match (← heap).list? v, v with
  | some items, _ => return items
  | none, .text t => return (Text.characters t).map Value.text
  | none, _ => typeError "the value has no items"

/-- Loads the type that a value names. Only a text is a name by itself. -/
def loadQualified (ev : Evaluator) (imports : List Value) (name : Value) : Action Value := do
  match ← qualifiedName? ev name imports with
  | some full => loadExact full
  | none => refuse (.unknownType name (← words ev .main name))

/-- Loads the type that a value names for a script. The engine holds the namespaces that may be left
out; without one, every name must be full. -/
def loadNamedType (host : Host) (ev : Evaluator) (name : Value) : Action Value := do
  match name, host.role with
  | .text t, .bench => loadExact t
  | v, .bench => loadQualified ev [] v
  | .text t, .engine => do
    if (← get).types.table.has t then loadExact t
    else
      let imports ← itemsOf (← property ev .main (.ref host.role.facade) "imports")
      match imports.mapM Value.text? with
      | some spaces => loadType spaces t
      | none => loadQualified ev imports name
  | v, .engine => do
    loadQualified ev (← itemsOf (← property ev .main (.ref host.role.facade) "imports")) v

/-- Loads the type of a full name, if it has one. Any other failure is thrown. -/
def tryLoad (name : Text) : Action (Option Value) :=
  tryCatch (do return some (← loadExact name)) fun thrown => do
    -- the kind is that of the error, whoever made it
    match (← heap).errorKind? thrown with
    | some .typeLoad => return none
    | _ => throw thrown

end Action

end EvalPlan

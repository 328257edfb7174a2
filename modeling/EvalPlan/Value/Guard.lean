import EvalPlan.Value.Heap

/-!
# What values can serve as

Types are callables with a template for instances; builders are types whose instances have a
`build` method; tasks are objects with a name. A type may carry a marker that names its default
builder. Markers are not inherited, and one that is no builder does not count.
-/

namespace EvalPlan.Heap

/-- What the instances of a callable inherit from, if that is an object and no callable. -/
def template? (h : Heap) (v : Value) : Option Value :=
  if h.isCallable v then
    match h.value? v "prototype" with
    | some t => if h.isObject t then some t else none
    | none => none
  else none

/-- The value is a class that objects can be instances of. -/
def isType (h : Heap) (v : Value) : Bool := (h.template? v).isSome

/-- The value is a class whose instances can build. -/
def isBuilder (h : Heap) (v : Value) : Bool :=
  match h.template? v with
  | some t => h.hasMethod t "build"
  | none => false

/-- The value is an object with a name. -/
def isTask (h : Heap) (v : Value) : Bool := h.isObject v && (h.text? v "name").isSome

/-- The marker that a value carries itself. -/
def marker? (h : Heap) (v : Value) : Option Value := (h.object? v).bind (·.marker)

/-- The builder that a type's own marker names. -/
def defaultBuilder? (h : Heap) (type : Value) : Option Value :=
  (h.marker? type).bind fun m => if h.isBuilder m then some m else none

/-- A builder that is given for a type is accepted. -/
def accepts (h : Heap) (type builder : Value) : Bool :=
  !type.isNullish && !builder.isNullish && h.isBuilder builder

/-- The heap after a type was marked with a default builder. -/
def mark (h : Heap) (type builder : Value) : Heap :=
  h.update type fun o => { o with marker := some builder }

end EvalPlan.Heap

import EvalPlan.Declaration.Draft
import EvalPlan.Script.Eval

/-!
# Declaring classes

Classes that are described together may refer to each other in any order: every class has its
object before any description is carried out. A class extends one that was described before it.
Values that stand in the place of methods, and the builders that classes are marked with, are
evaluated when all the classes are there.
-/

namespace EvalPlan

open Script (ClassKeys Expr Reading Scene)

/-- A class to declare: the key that others refer to it by, the key that requests know it by, its
name and its description. -/
structure Declaration where
  /-- What other descriptions call it. -/
  label : Text
  /-- What requests call it. -/
  key : Option Text
  /-- Its own name. -/
  name : Text
  /-- Its description. -/
  spec : Json

/-- What keys stand for, where classes are known under labels. -/
def ClassKeys.ofTable (t : Table Text Value) : ClassKeys := fun key => (t.get? key).getD .undefined

namespace Action

/-- What was read, or else an error with the message of what could not be. -/
def accept {α : Type} (r : Reading α) : Action α :=
  match r with
  | .ok a => return a
  | .error message => crash .general message

/-- Evaluates an expression that a description holds. -/
def describedValue (ev : Evaluator) (keys : ClassKeys) (j : Json) : Action Value := do
  let e ← accept (Expr.ofJson keys j)
  ev.expr .outside e

/-- Makes the objects of classes and enters them under their labels. -/
def reserve (known : Table Text Value) : List Declaration → Action (Table Text Value)
  | [] => return known
  | d :: rest => do
    if Draft.isValue d.spec then reserve known rest
    else
      let v ← alloc (Object.empty .plain none)
      reserve (known.put d.label v) rest

/-- The objects of the methods among what instances share. -/
def newMethods : List (Text × Share) → Action (List (Text × Value))
  | [] => return []
  | (name, .method m) :: rest => do
    let f ← newMethod .main name m
    let fs ← newMethods rest
    return (name, f) :: fs
  | (_, .value _) :: rest => newMethods rest

/-- Carries the description of a class out on its object. -/
def fillClass (keys : ClassKeys) (v : Value) (d : Declaration) : Action Unit := do
  let fields ← accept (Draft.fields keys d.spec)
  let shared ← newMethods (← accept (Draft.shares keys d.spec))
  defineClass .main v
    { key := d.key, name := d.name, making := Draft.making (Draft.kind d.spec)
      base := Draft.base? keys d.spec, fields, shared, source := Draft.source d.spec }

/-- Carries the descriptions out in order. -/
def fillClasses (ev : Evaluator) (known : Table Text Value) : List Declaration →
    Action (Table Text Value)
  | [] => return known
  | d :: rest => do
    let keys := ClassKeys.ofTable known
    if Draft.isValue d.spec then
      let v ← describedValue ev keys ((d.spec.get? "value").getD .null)
      fillClasses ev (known.put d.label v) rest
    else
      fillClass keys (keys d.label) d
      fillClasses ev known rest

/-- Lets the instances of a class share the values that stand in the place of methods. -/
def shareValues (ev : Evaluator) (cls : Value) : List (Text × Share) → Action Unit
  | [] => return
  | (_, .method _) :: rest => shareValues ev cls rest
  | (name, .value e) :: rest => do
    let x ← ev.expr .outside e
    change (((← heap).value? cls "prototype").getD .undefined) fun o =>
      { o with slots := o.slots.put name (.hidden x) }
    shareValues ev cls rest

/-- Marks a class with the builder that its description names. -/
def markClass (ev : Evaluator) (keys : ClassKeys) (cls : Value) (spec : Json) : Action Unit := do
  match spec.get? "marker" with
  | none => return
  | some j => do
    let builder ← describedValue ev keys j
    attach cls builder

/-- Completes the classes that were declared. -/
def completeClasses (ev : Evaluator) (known : Table Text Value) : List Declaration → Action Unit
  | [] => return
  | d :: rest => do
    let keys := ClassKeys.ofTable known
    if !Draft.isValue d.spec then
      shareValues ev (keys d.label) (← accept (Draft.shares keys d.spec))
      markClass ev keys (keys d.label) d.spec
    completeClasses ev known rest

/-- Declares classes beside those that are known; answers all of them by label. -/
def declare (ev : Evaluator) (known : Table Text Value) (ds : List Declaration) :
    Action (Table Text Value) := do
  let reserved ← reserve known ds
  let filled ← fillClasses ev reserved ds
  completeClasses ev filled ds
  return filled

end Action

end EvalPlan

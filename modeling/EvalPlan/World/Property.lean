import EvalPlan.World

/-!
# Properties

Reading, calling and assigning the properties of values. Each belongs to the code of a realm, which
the errors that it throws are errors of. Code of the library and fields of classes insist on an
assignment; code of a script goes on when one is refused.
-/

namespace EvalPlan.Action

/-- Reads a property of a value. -/
def property (ev : Evaluator) (realm : Realm) (v : Value) (name : Text) : Action Value := do
  if v.isNullish then crashIn realm .type "a property of nothing is read"
  else
    match (← heap).find? realm v name with
    | none => return .undefined
    | some (.data x _ _) => return x
    | some (.computed getter _) => ev.call getter v []

/-- Calls what a property holds on its owner. -/
def callProperty (ev : Evaluator) (realm : Realm) (callee owner : Value) (arguments : List Value) :
    Action Value := do
  if (← heap).isCallable callee then ev.call callee owner arguments
  else crashIn realm .type "what is called is not a function"

/-- Calls the method of a name on a value. -/
def invoke (ev : Evaluator) (realm : Realm) (v : Value) (name : Text) (arguments : List Value) :
    Action Value := do
  callProperty ev realm (← property ev realm v name) v arguments

/-- The name of a value, undefined if it has none. -/
def nameOf (ev : Evaluator) (v : Value) : Action Value := property ev .main v "name"

/-! ### Numbers -/

/-- The ways to find a value that is no object in the place of an object, in order. -/
inductive Wish
  /-- A text is wanted. -/
  | text
  /-- Anything else. -/
  | other
deriving DecidableEq

/-- The methods that are asked, in order. -/
def Wish.methods : Wish → List Text
  | text => ["toString", "valueOf"]
  | other => ["valueOf", "toString"]

/-- What the first method answers that can be called and answers no object. -/
def plainBy (ev : Evaluator) (realm : Realm) (v : Value) : List Text → Action Value
  | [] => crashIn realm .type "the object stands for no plain value"
  | name :: rest => do
    let f ← property ev realm v name
    if (← heap).isCallable f then
      match ← ev.call f v [] with
      | .ref _ => plainBy ev realm v rest
      | x => return x
    else plainBy ev realm v rest

/-- The value that is no object in the place of a value. -/
def plain (ev : Evaluator) (realm : Realm) (wish : Wish) (v : Value) : Action Value :=
  match v with
  | .ref _ => plainBy ev realm v wish.methods
  | v => return v

/-- The number that a value is taken for where numbers are compared. -/
def magnitude (ev : Evaluator) (realm : Realm) (v : Value) : Action Float := do
  match ← plain ev realm .other v with
  | .undefined => return (0.0 / 0.0)
  | .null => return 0
  | .bool b => return if b then 1 else 0
  | .number x => return x
  | .text t => return Decimal.ofText t
  | .bigint n => return Float.ofInt n
  | .symbol _ _ => crashIn realm .type "a symbol is no number"
  | .ref _ => crashIn realm .type "an object is no number"

/-- The number that a value is taken for where one is computed with; integers without bound are not
taken for numbers there. -/
def toNumber (ev : Evaluator) (realm : Realm) (v : Value) : Action Float := do
  match ← plain ev realm .other v with
  | .bigint _ => crashIn realm .type "an integer without bound is no number"
  | x => magnitude ev realm x

/-! ### Assigning -/

/-- The length that a number is, if a list can have it. -/
def listLength? (x : Float) : Option Nat :=
  if Decimal.isInteger x && 0 ≤ x && x ≤ 4294967295 then some x.toUInt64.toNat else none

/-- Cuts or stretches a list to the length that a value is. The value is asked for it twice. -/
def resize (ev : Evaluator) (realm : Realm) (v length : Value) : Action Unit := do
  let _ ← toNumber ev realm length
  match listLength? (← toNumber ev realm length) with
  | some n => change v (Object.resize n)
  | none => crashIn realm .range "no list has this length"

/-- Assigns a property of a value. Where the assignment is refused, insisting on it throws. -/
def assign (ev : Evaluator) (realm : Realm) (insisting : Bool) (v : Value) (name : Text)
    (x : Value) : Action Unit := do
  if v.isNullish then crashIn realm .type "a property of nothing is assigned"
  else
    let h ← heap
    match h.assignment realm v name with
    | .taken =>
      if name = "length" && h.isList v then resize ev realm v x
      else change v (Object.put name x)
    | .handed setter => do
      let _ ← ev.call setter v [x]
    | .refused => if insisting then crashIn realm .type "the property cannot be assigned"

/-- Assigns properties one after another, insisting on each. -/
def assignAll (ev : Evaluator) (v : Value) : List (Text × Value) → Action Unit
  | [] => return
  | (name, x) :: rest => do
    assign ev .main true v name x
    assignAll ev v rest

end EvalPlan.Action

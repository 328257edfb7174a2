import EvalPlan.Text

/-!
# JSON trees

The data format of configuration files, script programs and class descriptions. Members of an
object keep the order in which they stand.
-/

namespace EvalPlan

/-- A JSON value. -/
inductive Json
  /-- The null value. -/
  | null
  /-- A truth value. -/
  | bool (b : Bool)
  /-- A number. -/
  | number (x : Float)
  /-- A text. -/
  | text (t : Text)
  /-- A list. -/
  | list (items : List Json)
  /-- An object with its members in order. -/
  | object (members : List (Text × Json))
deriving Inhabited

namespace Json

/-- The member of an object under a name. -/
def get? (j : Json) (name : Text) : Option Json :=
  match j with
  | .object members => members.lookup name
  | _ => none

/-- The items of a list; any other value has none. -/
def items : Json → List Json
  | .list xs => xs
  | _ => []

/-- The members of an object; any other value has none. -/
def members : Json → List (Text × Json)
  | .object ms => ms
  | _ => []

/-- The text that a value is. -/
def text? : Json → Option Text
  | .text t => some t
  | _ => none

/-- The number that a value is. -/
def number? : Json → Option Float
  | .number x => some x
  | _ => none

/-- The natural number that a value is. -/
def nat? : Json → Option Nat
  | .number x => if 0 ≤ x then some x.toUInt64.toNat else none
  | _ => none

/-- The truth value that a value is; anything else is false. -/
def isTrue : Json → Bool
  | .bool b => b
  | _ => false

/-- A list of texts, without the items that are none. -/
def texts (j : Json) : List Text := j.items.filterMap text?

end Json

end EvalPlan

import EvalPlan.Json
import EvalPlan.Value.Portrait

/-!
# Portraits as trees

Portraits are written as JSON trees in which nothing is lost: what JSON has no form for is an object
whose member `$` says what it is. Runs are numbered by their place in a list of runs.
-/

namespace EvalPlan.Portrait

/-- An object that says what it is. -/
def tagged (tag : Text) (members : List (Text × Json)) : Json :=
  .object (("$", .text tag) :: members)

/-- A text; one with a surrogate that has no partner is written by its units. -/
def ofText (t : Text) : Json :=
  if t.wellFormed then .text t
  else tagged "utf16" [("units", .list (t.map fun u => .number (Float.ofNat u.toNat)))]

/-- A number; what is no integer of at most 53 bits, or the negative zero, is written as text. -/
def ofNumber (x : Float) : Json :=
  if Decimal.isNegativeZero x then tagged "num" [("v", .text "-0")]
  else if (Decimal.toInt? x).any (·.natAbs < Nat.pow 2 53) then .number x
  else tagged "num" [("v", .text (Decimal.text x))]

/-- The name of a run by its place among those that were seen. -/
def runName (order : List RunId) (id : RunId) : Json :=
  .text ("run#" ++ Text.ofNat (order.idxOf id + 1))

mutual

/-- A portrait as a tree. -/
def toTree (order : List RunId) : Portrait → Json
  | .undefined => tagged "undefined" []
  | .null => .null
  | .bool b => .bool b
  | .number x => ofNumber x
  | .text t => ofText t
  | .bigint n => tagged "bigint" [("v", .text (Text.ofInt n))]
  | .symbol d => tagged "symbol" [("v", ofText d)]
  | .cls key => tagged "class" [("key", ofText key)]
  | .function name => tagged "function" [("name", ofText name)]
  | .list items => .list (itemTrees order items)
  | .error _ name message none _ _ _ =>
    tagged "error" [("name", toTree order name), ("message", toTree order message)]
  | .error _ name message (some code) _ _ _ =>
    tagged "error" [("name", toTree order name), ("message", toTree order message), ("code", ofText code)]
  | .object owner members =>
    tagged "object" [("class", (owner.map ofText).getD .null), ("fields", .list (memberTrees order members))]
  | .cycle => tagged "cycle" []
  | .run id => runName order id

/-- The items of a list as trees. -/
def itemTrees (order : List RunId) : List Portrait → List Json
  | [] => []
  | p :: rest => toTree order p :: itemTrees order rest

/-- Properties as trees, each a pair. -/
def memberTrees (order : List RunId) : List (Text × Portrait) → List Json
  | [] => []
  | (name, p) :: rest => .list [ofText name, toTree order p] :: memberTrees order rest

end

mutual

/-- The runs that a portrait refers to. -/
def runs : Portrait → List RunId
  | .run id => [id]
  | .list items => runsOfItems items
  | .object _ members => runsOfMembers members
  | _ => []

/-- The runs that items refer to. -/
def runsOfItems : List Portrait → List RunId
  | [] => []
  | p :: rest => runs p ++ runsOfItems rest

/-- The runs that properties refer to. -/
def runsOfMembers : List (Text × Portrait) → List RunId
  | [] => []
  | (_, p) :: rest => runs p ++ runsOfMembers rest

end

end EvalPlan.Portrait

import EvalPlan.Script.Reader
import EvalPlan.World.Definition

/-!
# Class descriptions

Classes are described by JSON trees: how they came about, what they extend, the fields of their
instances and the methods that these share. A description refers to other classes by keys.
-/

namespace EvalPlan

open Script (Answer ClassKeys Expr Reading Scene)

/-- What the instances of a described class share under a name. -/
inductive Share
  /-- A method. -/
  | method (m : Method)
  /-- The value of an expression. -/
  | value (e : Expr)

namespace Draft

/-- The kind of a description. -/
def kind (spec : Json) : Text := ((spec.get? "kind").bind Json.text?).getD "class"

/-- The description is that of a plain value, not of a class. -/
def isValue (spec : Json) : Bool := kind spec == ("value" : Text)

/-- How a class comes about, where the template for its instances is known. -/
def making (kind : Text) (template : Ref) : Making :=
  if kind = "class" then .classDefinition
  else if kind = "function" then .function
  else if kind = "generator" then .generator
  else if kind = "bound" then .bound template
  else if kind = "nullProto" then .nullTemplate
  else if kind = "fnProto" then .callableTemplate
  else .plain

/-- One piece of what an instance says about itself. -/
def part (j : Json) : Part :=
  match j with
  | .text t => .words t
  | _ => .field (((j.get? "field").bind Json.text?).getD [])

/-- What a fixed answer is shared as. -/
def shareOf : Answer → Share
  | .value e => .value e
  | a => .method (.answer .outside a)

/-- What the description of a method describes. -/
def share (keys : ClassKeys) (spec : Json) : Reading Share :=
  match spec.get? "new", spec.get? "parts" with
  | some cls, _ =>
    .ok (.method (.produces (keys (Script.textOf cls)) ((spec.get? "copy").getD .null).texts
      ((spec.get? "register").any Json.isTrue)))
  | none, some parts => .ok (.method (.parts (parts.items.map part)))
  | none, none => return shareOf (← Script.readAnswer keys Script.readingBound spec)

/-- The names of the methods that a description may give. -/
def methodNames : List String := ["build", "describe"]

/-- The methods that a description gives. -/
def shares (keys : ClassKeys) (spec : Json) : Reading (List (Text × Share)) :=
  (methodNames.filterMap fun (name : String) => (spec.get? name).map fun m => (name, m)).mapM
    fun row => do return (Text.ofString row.1, ← share keys row.2)

/-- The fields that a description gives to instances. -/
def fields (keys : ClassKeys) (spec : Json) : Reading (List (Text × Expr)) :=
  Script.readMembers keys Script.readingBound ((spec.get? "fields").getD .null).items

/-- The class that a description extends. -/
def base? (keys : ClassKeys) (spec : Json) : Option Value :=
  ((spec.get? "extends").bind Json.text?).map keys

/-! ### Declarations

The declaration of a described class, as it is shown where the class itself is written out. -/

/-- A text in quotation marks within brackets behind the instance. -/
def fieldAccess (name : Text) : Text := "this[" ++ Json.quoted name ++ "]"

/-- What one piece contributes to the declaration of a description. -/
def partSource : Part → Text
  | .words t => Json.quoted t
  | .field name => fieldAccess name

/-- The declaration of a method. -/
def methodSource (name : String) (spec : Json) : Text :=
  let body : Text := match spec.get? "parts", spec.get? "returns" with
    | some parts, _ =>
      "return " ++ Text.join "+" (Json.quoted [] :: parts.items.map fun p => partSource (part p)) ++ ";"
    | none, some v => "return " ++ v.write ++ ";"
    | none, none => []
  Text.ofString name ++ "()" ++ Text.openBrace ++ body ++ Text.closeBrace

/-- The declaration of a class without its name. -/
def source (spec : Json) : Text :=
  let heritage : Text := match (spec.get? "extends").bind Json.text? with
    | some key => "extends " ++ key
    | none => []
  let fields : List Text := ((spec.get? "fields").getD .null).items.map fun (row : Json) =>
    match row.items with
    | [name, v] => fieldAccess (Script.textOf name) ++ "=" ++ v.write ++ ";"
    | _ => []
  let super : Text := if heritage.isEmpty then [] else "super();"
  let methods : Text :=
    (methodNames.filterMap fun (name : String) => (spec.get? name).map (methodSource name)).flatten
  "class " ++ heritage ++ Text.openBrace ++ "constructor()" ++ Text.openBrace ++ super ++ fields.flatten
    ++ Text.closeBrace ++ methods ++ Text.closeBrace

end Draft

end EvalPlan

import EvalPlan.World.Property

/-!
# Defining classes

Makes the objects of a class: the callable itself and the template that its instances inherit from.
A class that extends another one inherits from it, its template from the other's template, and its
instances get the other's fields before their own.
-/

namespace EvalPlan

open Script (Expr)

/-- What is said about a class. -/
structure Definition where
  /-- The key under which a request knows it. -/
  key : Option Text
  /-- Its own name. -/
  name : Text
  /-- How it comes about, where the template for its instances is known. -/
  making : Ref → Making
  /-- The class it extends. -/
  base : Option Value
  /-- The fields that it adds. -/
  fields : List (Text × Expr)
  /-- What its instances share by name. -/
  shared : List (Text × Value)
  /-- Its declaration. -/
  source : Text

namespace Action

/-- Adds a method of a name. -/
def newMethod (realm : Realm) (name : Text) (m : Method) : Action Value :=
  alloc (Object.function realm (.method m) name 0)

/-- What the template of a class inherits from, if anything. Only a callable that can be
instantiated and has a template, be it null, can be extended. -/
def baseTemplate (realm : Realm) (base : Option Value) : Action (Option Ref) := do
  match base with
  | none => return some (realm.template .object)
  | some v => do
    let h ← heap
    if !(h.callable? v).any Callable.isConstructor then crashIn realm .type "what is extended is no class"
    else
      match h.value? v "prototype" with
      | some (.ref r) => return some r
      | some .null => return none
      | _ => crashIn realm .type "what is extended has no template"

/-- The fields of the instances of a class. -/
def baseFields (h : Heap) (base : Option Value) : List (Text × Expr) :=
  match base.bind h.blueprint? with
  | some b => b.fields
  | none => []

/-- The template for the instances of a class. -/
def templateObject (realm : Realm) (making : Making) (cls : Value) (parent : Option Ref)
    (d : Definition) : Object :=
  let shared : Table Text Slot := d.shared.map fun row => (row.1, Slot.hidden row.2)
  match making with
  | .generator => { Object.empty .plain parent with slots := shared }
  | .callableTemplate =>
    let f := Object.function realm (.standard .idle realm) [] 0
    { f with slots := f.slots ++ shared }
  | .bound _ =>
    { Object.empty .plain parent with
      slots := shared.put "constructor" (.hidden (.ref (realm.template .function))) }
  | _ => { Object.empty .plain parent with slots := shared.put "constructor" (.hidden cls) }

/-- The property by which a callable gives the template for its instances, if it gives one. That of
a class stays as it is. -/
def templateSlot? (making : Making) (template : Ref) : Option Slot :=
  match making with
  | .plain => none
  | .bound _ => none
  | .nullTemplate => some (.hidden .null)
  | .classDefinition => some (.fixed (.ref template))
  | _ => some (.hidden (.ref template))

/-- A class as an object whose template is known; `fields` are those of the class that it
extends. -/
def classObject (realm : Realm) (d : Definition) (fields : List (Text × Expr)) (template : Ref) :
    Object :=
  let making := d.making template
  let o := Object.function realm
    (.blueprint { key := d.key, making, fields := fields ++ d.fields, source := d.source, realm }) d.name 0
  let slots := match templateSlot? making template with
    | some slot => o.slots.put "prototype" slot
    | none => o.slots
  let parent := match d.base with
    | some (.ref r) => some r
    | _ => o.parent
  { o with slots, parent }

/-- Defines a class in the place of an object, whose marker stays. -/
def defineClass (realm : Realm) (cls : Value) (d : Definition) : Action Unit := do
  let parent ← baseTemplate realm d.base
  let h ← heap
  let template := h.size
  let _ ← alloc (templateObject realm (d.making template) cls parent d)
  let o := classObject realm d (baseFields h d.base) template
  change cls fun old => { o with marker := old.marker, frozen := old.frozen }

/-- Makes a class. Its template is made first and refers to it. -/
def newClass (realm : Realm) (d : Definition) : Action Value := do
  let parent ← baseTemplate realm d.base
  let h ← heap
  let template := h.size
  let cls : Value := .ref (template + 1)
  let _ ← alloc (templateObject realm (d.making template) cls parent d)
  alloc (classObject realm d (baseFields h d.base) template)

end Action

end EvalPlan

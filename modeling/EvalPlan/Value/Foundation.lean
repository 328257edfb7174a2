import EvalPlan.Value.Heap

/-!
# What every world begins with

The objects of a realm, and the objects through which scripts reach the engine: the engine itself
with its operations, the stand-in that takes its place where a runner is used alone, and the logger
that scripts hold. `Realm.objects` lists the objects of a realm in the order of their references,
and `Fixture.objects` those of the engine, which follow the main realm.
-/

namespace EvalPlan

/-- A callable with its name and the number of its parameters. -/
def Object.function (realm : Realm) (c : Callable) (name : Text) (arity : Nat) : Object :=
  { Object.empty (.callable c) (some (realm.template .function)) with
    slots := [("length", .fixed (Value.ofNat arity)), ("name", .fixed (.text name))] }

/-- A callable whose instances inherit from a template. -/
def Object.constructor (realm : Realm) (c : Callable) (name : Text) (arity : Nat)
    (template : Value) : Object :=
  let f := Object.function realm c name arity
  { f with slots := f.slots.put "prototype" (.fixed template) }

/-! ### Realms -/

namespace Family

/-- The standard functions that the values of a family inherit. -/
def methods : Family → List Standard
  | object => [.owns, .isAncestor, .shows, .localText, .objectText, .itself]
  | function => [.call, .apply, .bind, .declaration]
  | list => [.join, .listText, .map, .every, .includes, .push]
  | text => [.textIncludes, .split, .trim, .plainText, .plainValue]
  | number => [.plainText, .plainValue]
  | truth => [.plainText, .plainValue]
  | integer => [.plainText, .plainValue]
  | symbol => [.plainText, .plainValue]
  | error .general => [.errorText]
  | _ => []

/-- What else the values of a family inherit. -/
def traits (f : Family) (realm : Realm) : List (Text × Slot) :=
  match f with
  | object => [("__proto__", .computed (.ref (realm.standard .parent)) (.ref (realm.standard .setParent)))]
  | function =>
    let unsaid : Slot := .computed (.ref (realm.standard .unsaid)) (.ref (realm.standard .unsaid))
    [("length", .fixed (.number 0)), ("name", .fixed (.text [])), ("arguments", unsaid), ("caller", unsaid)]
  | symbol => [("description", .computed (.ref (realm.standard .description)) .undefined)]
  | error kind =>
    if kind.isEngine then []
    else [("name", .hidden (.text kind.name)), ("message", .hidden (.text []))]
  | _ => []

/-- What the template of a family is itself. -/
def shape (f : Family) (realm : Realm) : Shape :=
  match f with
  | function => .callable (.standard .idle realm)
  | list => .list [] 0
  | _ => .plain

/-- How the values of a family are gone through. -/
def walk (f : Family) (realm : Realm) : Option Walk :=
  match f with
  | list => some .byItems
  | text => some (.byText realm)
  | _ => none

/-- The template of a family. -/
def template (f : Family) (realm : Realm) : Object :=
  { Object.empty (f.shape realm) (f.base?.map realm.template) with
    walk := f.walk realm
    slots := (Text.ofString "constructor", Slot.hidden (.ref (realm.maker f))) ::
      (f.methods.map fun m => (m.name, Slot.hidden (.ref (realm.standard m)))) ++ f.traits realm }

/-- The maker of a family. Makers of errors inherit from each other as their templates do. -/
def maker (f : Family) (realm : Realm) : Object :=
  let o := Object.constructor realm (.maker f realm) f.name 1 (.ref (realm.template f))
  match f.base? with
  | some .refusal => { o with parent := some (realm.maker .refusal) }
  | some (.error kind) => { o with parent := some (realm.maker (.error kind)) }
  | _ => o

end Family

namespace Realm

/-- The object of a standard function. -/
def function (realm : Realm) (f : Standard) : Object :=
  Object.function realm (.standard f realm) f.name f.arity

/-- The objects of a realm in the order of their references. -/
def objects (realm : Realm) : List Object :=
  (Family.all.flatMap fun f => [f.template realm, f.maker realm]) ++ Standard.all.map realm.function

theorem length_objects (realm : Realm) : realm.objects.length = size := rfl

end Realm

/-! ### The engine -/

/-- The objects through which scripts reach the engine. -/
inductive Fixture
  /-- What the engine inherits from. -/
  | engineTemplate
  /-- The class of the engine. -/
  | engineMaker
  /-- The engine. -/
  | engine
  /-- The stand-in of the engine. -/
  | bench
  /-- The logger that scripts hold. -/
  | logger
  /-- The bus of the engine. -/
  | bus
  /-- An operation of the engine. -/
  | operation (o : Operation)
  /-- A method of the logger. -/
  | logging (level : Level)
deriving DecidableEq, Inhabited

/-- The operations of the engine. -/
def Operation.ofEngine : List Operation :=
  [load, run, getBuilder, getBuilderForType, registerBuilder, registerTask, loadType, emit]

/-- The operations of the stand-in. -/
def Operation.ofBench : List Operation :=
  [getBuilder, getBuilderForType, loadType, registerTask, current]

namespace Fixture

/-- The fixtures in the order of their references. -/
def all : List Fixture :=
  [engineTemplate, engineMaker, engine, bench, logger, bus]
    ++ (Operation.ofEngine ++ [Operation.publish, Operation.current]).map operation ++ Level.all.map logging

/-- The object that a fixture is. -/
def ref (x : Fixture) : Ref := Realm.size + all.idxOf x

/-- The number of objects that come before those of the domain. -/
def bound : Nat := Realm.size + all.length

/-- The object is a fixture. -/
def has (r : Ref) : Bool := Realm.size ≤ r && r < bound

/-- The properties that operations are. -/
def operations (slot : Value → Slot) (os : List Operation) : List (Text × Slot) :=
  os.map fun o => (o.name, slot (.ref (operation o).ref))

/-- A fixture as an object. -/
def object (x : Fixture) : Object :=
  let plain : Object := Object.empty .plain (some (Realm.main.template .object))
  match x with
  | engineTemplate =>
    { plain with
      slots := (Text.ofString "constructor", Slot.hidden (.ref engineMaker.ref)) ::
        operations .hidden Operation.ofEngine }
  | engineMaker =>
    Object.constructor .main
      (.blueprint ⟨none, .plain, [], "class ConfigEngine", .main⟩)
      "ConfigEngine" 1 (.ref engineTemplate.ref)
  | engine =>
    { Object.empty .plain (some engineTemplate.ref) with
      slots := [("eventBus", .ordinary (.ref bus.ref)), ("logger", .ordinary (.ref logger.ref))] }
  | bench =>
    { plain with
      slots := (Text.ofString "logger", Slot.ordinary (.ref logger.ref)) ::
        operations .ordinary Operation.ofBench }
  | logger =>
    { plain with slots := Level.all.map fun l => (l.name, .ordinary (.ref (logging l).ref)) }
  | bus => { plain with slots := operations .hidden [.publish] }
  | operation o => Object.function .main (.operation o) o.name o.arity
  | logging l => Object.function .main (.logging l) l.name 2

/-- The fixtures as objects. -/
def objects : List Object := all.map object

end Fixture

end EvalPlan

import EvalPlan.Value.Heap

/-!
# Portraits

A portrait shows a value as it was at one moment, with everything that can be reached from it.
Log entries, events and answers hold portraits, so that later changes do not show in them.
-/

namespace EvalPlan

/-- A value as it was at one moment. -/
inductive Portrait
  /-- What is absent. -/
  | undefined
  /-- The null value. -/
  | null
  /-- A truth value. -/
  | bool (b : Bool)
  /-- A number. -/
  | number (x : Float)
  /-- A text. -/
  | text (t : Text)
  /-- An integer without bound. -/
  | bigint (n : Int)
  /-- A symbol. -/
  | symbol (description : Text)
  /-- A class that has a key. -/
  | cls (key : Text)
  /-- Another callable. -/
  | function (name : Text)
  /-- A list. -/
  | list (items : List Portrait)
  /-- An error object: its kind, name, message and code, what it is about, its cause and what
  enumeration shows of it. -/
  | error (kind : ErrorKind) (name message : Portrait) (code : Option Text)
      (subject : Option (Text × Text)) (cause : Option Portrait) (members : List (Text × Portrait))
  /-- Another object with the name of its class, if it has one, and what enumeration shows. -/
  | object (cls : Option Text) (members : List (Text × Portrait))
  /-- An object that is already being shown. -/
  | cycle
  /-- The identifier of a run. -/
  | run (id : RunId)
deriving Inhabited

namespace Heap

/-- The first text among properties of these names. -/
def subject? (h : Heap) (v : Value) : Option (Text × Text) :=
  ["resource", "script", "typeName"].findSome? fun (name : String) =>
    (h.text? v name).map fun t => (Text.ofString name, t)

/-- The name of the class of an object: the key or the name of what its parent calls the maker of
its instances. An object without parent belongs to no class. -/
def className? (h : Heap) (o : Object) : Option Text :=
  o.parent.bind fun p =>
    (h.value? (.ref p) "constructor").bind fun maker =>
      match h.blueprint? maker with
      | some ⟨some key, _, _, _, _⟩ => some key
      | _ => if h.isCallable maker then some (h.nameOf maker) else none

/-- The portrait of a value within that of the objects on the path. The number bounds the
nesting. -/
def portraitWithin (h : Heap) : Nat → List Ref → Value → Portrait
  | 0, _, _ => .cycle
  | n + 1, path, v =>
    match v with
    | .undefined => .undefined
    | .null => .null
    | .bool b => .bool b
    | .number x => .number x
    | .text t => .text t
    | .bigint i => .bigint i
    | .symbol description _ => .symbol description
    | .ref r =>
      match h[r]? with
      | none => .undefined
      | some o =>
        match o.shape with
        | .callable (.blueprint ⟨some key, _, _, _, _⟩) => .cls key
        | .callable _ => .function (h.nameOf v)
        | shape =>
          if path.contains r then .cycle
          else
            let within : Value → Portrait := h.portraitWithin n (r :: path)
            let members : List (Text × Portrait) := (h.members v).map fun row => (row.1, within row.2)
            match shape with
            | .list cells length => .list ((itemsFrom cells 0 length).map within)
            | .error kind =>
              let part (name : Text) : Portrait := within ((h.value? v name).getD .undefined)
              .error kind (part "name") (part "message") (h.text? v "code") (h.subject? v)
                (((o.slots.get? "cause").bind Slot.value?).map within) members
            | _ => .object (h.className? o) members

/-- The portrait of a value. -/
def portrait (h : Heap) (v : Value) : Portrait := h.portraitWithin (h.size + 2) [] v

/-- A value as what an entry says: of a plain object each property is shown by itself. -/
def account (h : Heap) (v : Value) : Portrait :=
  match h.object? v, h.shape? v with
  | some o, some .plain => .object (h.className? o) ((h.members v).map fun row => (row.1, h.portrait row.2))
  | _, _ => h.portrait v

end Heap

end EvalPlan

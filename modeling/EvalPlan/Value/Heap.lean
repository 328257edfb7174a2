import EvalPlan.Table
import EvalPlan.Value.Callable

/-!
# The heap

Objects live in a heap that only grows. An object has a shape, which says what it is, properties of
its own in the order in which they were first set, and may have a parent, from which it inherits
whatever it does not have itself. A property holds a value or is computed by a function; it may be
hidden from enumeration, and it may be fixed so that it cannot be assigned. An object may carry a
marker: the builder that its declaration names for it. And it may say how it is gone through, which
the objects that inherit from it are, too.

Reading a property follows the parents. What assigning one comes to is decided here too: the object
itself takes the value, a function is called with it, or the assignment is refused.
-/

namespace EvalPlan

/-- What an object is. -/
inductive Shape
  /-- An object of no particular kind. -/
  | plain
  /-- A list: the items that it has, by ascending position, and its length. -/
  | list (cells : List (Nat × Value)) (length : Nat)
  /-- An error object. -/
  | error (kind : ErrorKind)
  /-- A callable. -/
  | callable (c : Callable)

/-- The shape of a list with items one after another. -/
def Shape.ofItems (items : List Value) : Shape :=
  .list (items.zipIdx.map fun (v, i) => (i, v)) items.length

/-- A property of an object. -/
inductive Slot
  /-- It holds a value; enumeration may show it, and it may be fixed. -/
  | data (value : Value) (shown fixed : Bool)
  /-- Reading it calls one function, and assigning it another one, if that can be called. -/
  | computed (getter setter : Value)

namespace Slot

/-- A property like any other. -/
def ordinary (v : Value) : Slot := .data v true false

/-- A property that enumeration does not show. -/
def hidden (v : Value) : Slot := .data v false false

/-- A property that is neither shown nor assigned. -/
def fixed (v : Value) : Slot := .data v false true

/-- The value that a property holds. -/
def value? : Slot → Option Value
  | data v _ _ => some v
  | computed _ _ => none

/-- Enumeration shows the property. -/
def isShown : Slot → Bool
  | data _ shown _ => shown
  | computed _ _ => false

end Slot

/-- How something is gone through. -/
inductive Walk
  /-- By its items, one position after another. -/
  | byItems
  /-- By the characters of its text, for which the code of a realm asks. -/
  | byText (realm : Realm)

/-- An object. -/
structure Object where
  /-- What it is. -/
  shape : Shape
  /-- What it inherits from. -/
  parent : Option Ref
  /-- Its own properties. -/
  slots : Table Text Slot
  /-- The builder its declaration names. -/
  marker : Option Value
  /-- Its properties can no longer change. -/
  frozen : Bool
  /-- How it and what inherits from it are gone through, if it says so. -/
  walk : Option Walk

namespace Object

/-- An object of a shape with no properties. -/
def empty (shape : Shape) (parent : Option Ref) : Object :=
  ⟨shape, parent, [], none, false, none⟩

/-- An object with properties like any other. -/
def holding (shape : Shape) (parent : Option Ref) (members : List (Text × Value)) : Object :=
  { empty shape parent with
    slots := members.foldl (fun (slots : Table Text Slot) m => slots.put m.1 (.ordinary m.2)) [] }

/-- A property of the object itself; lists have one for each item that is there and for their
length. -/
def own? (o : Object) (name : Text) : Option Slot :=
  match o.shape with
  | .list cells length =>
    if name = "length" then some (.hidden (Value.ofNat length))
    else
      match name.toIndex?.bind fun i => cells.lookup i with
      | some v => some (.ordinary v)
      | none => o.slots.get? name
  | _ => o.slots.get? name

/-- The property as the object lets it be assigned: where the object is frozen, it is fixed. -/
def guarded (o : Object) : Slot → Slot
  | .data v shown fixed => .data v shown (fixed || o.frozen)
  | s => s

end Object

/-- The objects that were made so far. -/
abbrev Heap := Array Object

namespace Heap

/-- The object that a value refers to. -/
def object? (h : Heap) (v : Value) : Option Object :=
  match v with
  | .ref r => h[r]?
  | _ => none

/-- Changes the object that a value refers to, unless it is frozen. -/
def update (h : Heap) (v : Value) (f : Object → Object) : Heap :=
  match v with
  | .ref r => h.modify r fun o => if o.frozen then o else f o
  | _ => h

/-- The shape of the object that a value refers to. -/
def shape? (h : Heap) (v : Value) : Option Shape := (h.object? v).map (·.shape)

/-- The callable that a value refers to. -/
def callable? (h : Heap) (v : Value) : Option Callable :=
  match h.shape? v with
  | some (.callable c) => some c
  | _ => none

/-- The value can be called. -/
def isCallable (h : Heap) (v : Value) : Bool := (h.callable? v).isSome

/-- The value is an object and no callable. -/
def isObject (h : Heap) (v : Value) : Bool := (h.object? v).isSome && !h.isCallable v

/-- The value is a list. -/
def isList (h : Heap) (v : Value) : Bool :=
  match h.shape? v with
  | some (.list _ _) => true
  | _ => false

/-- The kind of the error object that a value refers to. -/
def errorKind? (h : Heap) (v : Value) : Option ErrorKind :=
  match h.shape? v with
  | some (.error kind) => some kind
  | _ => none

/-- The described class or function that a value refers to. -/
def blueprint? (h : Heap) (v : Value) : Option Blueprint :=
  match h.callable? v with
  | some (.blueprint b) => some b
  | _ => none

/-! ### Parents -/

/-- One object inherits from another one. The number bounds the parents that are looked at. -/
def inheritsWithin (h : Heap) (ancestor : Ref) : Nat → Ref → Bool
  | 0, _ => false
  | n + 1, r =>
    match (h[r]?).bind (·.parent) with
    | some p => p == ancestor || h.inheritsWithin ancestor n p
    | none => false

/-- The object that a value refers to inherits from another one. -/
def inherits (h : Heap) (v : Value) (ancestor : Ref) : Bool :=
  match v with
  | .ref r => h.inheritsWithin ancestor h.size r
  | _ => false

/-- The property of an object or, where it has none, of what it inherits from. The number bounds
the objects that are looked at. -/
def slotWithin (h : Heap) (name : Text) : Nat → Ref → Option Slot
  | 0, _ => none
  | n + 1, r =>
    match h[r]? with
    | none => none
    | some o =>
      match o.own? name with
      | some s => some (o.guarded s)
      | none => o.parent.bind (h.slotWithin name n)

/-- The property of an object that it has or inherits. -/
def slot? (h : Heap) (r : Ref) (name : Text) : Option Slot := h.slotWithin name h.size r

/-! ### Reading properties -/

/-- A property that a text has itself. -/
def ofText? (t : Text) (name : Text) : Option Slot :=
  if name = "length" then some (.fixed (Value.ofNat t.length))
  else (name.toIndex?.bind fun i => t[i]?).map fun u => .data (.text [u]) true true

/-- The property that a value has or inherits, within a realm. -/
def find? (h : Heap) (realm : Realm) (v : Value) (name : Text) : Option Slot :=
  match v with
  | .undefined => none
  | .null => none
  | .bool _ => h.slot? (realm.template .truth) name
  | .number _ => h.slot? (realm.template .number) name
  | .bigint _ => h.slot? (realm.template .integer) name
  | .symbol _ _ => h.slot? (realm.template .symbol) name
  | .text t =>
    match ofText? t name with
    | some s => some s
    | none => h.slot? (realm.template .text) name
  | .ref r => h.slot? r name

/-- The value of a property that holds one. -/
def value? (h : Heap) (v : Value) (name : Text) : Option Value :=
  (h.find? .main v name).bind Slot.value?

/-- The text of a property that holds one. -/
def text? (h : Heap) (v : Value) (name : Text) : Option Text :=
  (h.value? v name).bind Value.text?

/-- The property of a value holds something that can be called. -/
def hasMethod (h : Heap) (v : Value) (name : Text) : Bool :=
  match h.value? v name with
  | some x => h.isCallable x
  | none => false

/-- The name of a callable. -/
def nameOf (h : Heap) (v : Value) : Text := (h.text? v "name").getD []

/-- What a value holds as its name, undefined if it has none. A name that is computed is not
held. -/
def heldName? (h : Heap) (v : Value) : Option Value :=
  match h.find? .main v "name" with
  | some s => s.value?
  | none => some .undefined

/-! ### Lists -/

/-- The items from a position on, as many as a length leaves room for; what is not there is
undefined. -/
def itemsFrom : List (Nat × Value) → Nat → Nat → List Value
  | _, _, 0 => []
  | [], i, n + 1 => .undefined :: itemsFrom [] (i + 1) n
  | (j, v) :: rest, i, n + 1 =>
    if j = i then v :: itemsFrom rest (i + 1) n else .undefined :: itemsFrom ((j, v) :: rest) (i + 1) n

/-- The items of the list that a value refers to. -/
def list? (h : Heap) (v : Value) : Option (List Value) :=
  match h.shape? v with
  | some (.list cells length) => some (itemsFrom cells 0 length)
  | _ => none

/-- What reading a position of a list gives; what the list does not hold there it may inherit. -/
def item (h : Heap) (v : Value) (i : Nat) : Value := (h.value? v (Text.ofNat i)).getD .undefined

/-- The items of a list from a position on, read one after another, if all of them are as they
should be. The first one that is not ends it. -/
def itemsIf (h : Heap) (valid : Value → Bool) (v : Value) : Nat → Nat → Option (List Value)
  | 0, _ => some []
  | n + 1, i =>
    if valid (h.item v i) then (h.itemsIf valid v n (i + 1)).map (h.item v i :: ·) else none

/-- How an object or what it inherits from says that it is gone through. The number bounds the
objects that are looked at. -/
def walkWithin (h : Heap) : Nat → Ref → Option Walk
  | 0, _ => none
  | n + 1, r =>
    match h[r]? with
    | none => none
    | some o =>
      match o.walk with
      | some k => some k
      | none => o.parent.bind (h.walkWithin n)

/-- How the object that a value refers to is gone through, if it can be. -/
def walk? (h : Heap) (v : Value) : Option Walk :=
  match v with
  | .ref r => h.walkWithin h.size r
  | _ => none

/-! ### Enumerating properties -/

/-- Adds a row under an index to rows in the order of their indices, in the place of one that has
the same index. -/
def insertIndexed {α : Type} (i : Nat) (row : α) : List (Nat × α) → List (Nat × α)
  | [] => [(i, row)]
  | (j, other) :: rest =>
    if i < j then (i, row) :: (j, other) :: rest
    else if i = j then (i, row) :: rest
    else (j, other) :: insertIndexed i row rest

/-- The rows whose name is an index in the order of the indices, then the others as they are. -/
def indexedFirst (rows : List (Text × Value)) : List (Text × Value) :=
  let indexed := rows.foldl (fun acc row =>
    match row.1.toIndex? with
    | some i => insertIndexed i row acc
    | none => acc) []
  indexed.map (·.2) ++ rows.filter fun row => row.1.toIndex?.isNone

/-- The properties of a table that enumeration shows, with their values. -/
def shownOf (slots : Table Text Slot) : List (Text × Value) :=
  slots.filterMap fun row =>
    match row.2 with
    | .data v true _ => some (row.1, v)
    | _ => none

/-- The properties that enumerating an object shows, in order. -/
def members (h : Heap) (v : Value) : List (Text × Value) :=
  match h.object? v with
  | none => []
  | some o =>
    let own := indexedFirst (shownOf o.slots)
    match o.shape with
    | .list cells _ => cells.map (fun (i, x) => (Text.ofNat i, x)) ++ own
    | _ => own

/-! ### Assigning properties -/

/-- What assigning a property comes to. -/
inductive Assignment
  /-- The object itself takes the value. -/
  | taken
  /-- A function is called with the value. -/
  | handed (setter : Value)
  /-- Nothing changes. -/
  | refused

/-- What assigning a property of a value comes to, within a realm. -/
def assignment (h : Heap) (realm : Realm) (v : Value) (name : Text) : Assignment :=
  match h.find? realm v name, h.object? v with
  | some (.computed _ setter), _ => if h.isCallable setter then .handed setter else .refused
  | some (.data _ _ true), _ => .refused
  | _, some o => if o.frozen then .refused else .taken
  | _, none => .refused

end Heap

namespace Object

/-- The object after it took a value for a property. -/
def put (name : Text) (v : Value) (o : Object) : Object :=
  match o.shape, name.toIndex? with
  | .list cells length, some i =>
    { o with shape := .list (Heap.insertIndexed i v cells) (max length (i + 1)) }
  | _, _ =>
    match o.slots.get? name with
    | some (.data _ shown fixed) => { o with slots := o.slots.put name (.data v shown fixed) }
    | _ => { o with slots := o.slots.put name (.ordinary v) }

/-- The object after it was cut or stretched to a length, if it is a list. -/
def resize (length : Nat) (o : Object) : Object :=
  match o.shape with
  | .list cells _ => { o with shape := .list (cells.filter fun cell => cell.1 < length) length }
  | _ => o

/-- The object after it was given another parent. -/
def adopt (parent : Option Ref) (o : Object) : Object := { o with parent }

end Object

end EvalPlan

import EvalPlan.Script.Machine
import EvalPlan.Text.Blank

/-!
# Standard functions

What the functions do that the templates of a realm offer. They work on any receiver that has the
properties they ask for, and what they throw and make belongs to their realm.

While a list is put into text it is noted, so that a list within itself is left empty.
-/

namespace EvalPlan.Action

/-- The length that a value has, as a count of positions. -/
def countOf (ev : Evaluator) (realm : Realm) (v : Value) : Action Nat := do
  let x ← toNumber ev realm (← property ev realm v "length")
  -- no length is greater than what a number holds exactly
  if 0 < x then return (if x < 9007199254740991 then x else 9007199254740991).toUInt64.toNat else return 0

/-- The receiver of a standard function, which must be something. -/
def something (realm : Realm) (this : Value) : Action Value := do
  if this.isNullish then crashIn realm .type "the receiver is nothing" else return this

/-! ### Lists -/

/-- The text of an item; what is null or undefined is left empty. -/
def itemText (ev : Evaluator) (realm : Realm) (x : Value) : Action Text := do
  if x.isNullish then return [] else words ev realm x

/-- The texts of the items from a position on. -/
def itemTexts (ev : Evaluator) (realm : Realm) (v : Value) : Nat → Nat → Action (List Text)
  | 0, _ => return []
  | n + 1, i => do
    let x ← property ev realm v (Text.ofNat i)
    let t ← itemText ev realm x
    let ts ← itemTexts ev realm v n (i + 1)
    return t :: ts

/-- Carries an action out while a list is noted as being put into text. -/
def whileJoining {α : Type} (r : Ref) (act : Action α) : Action α :=
  ExceptT.mk fun w =>
    let (a, w') := act.run { w with joining := r :: w.joining }
    (a, { w' with joining := w.joining })

/-- The text that stands between items, a comma unless something else is given. -/
def separatorText (ev : Evaluator) (realm : Realm) (separator : Value) : Action Text := do
  match separator with
  | .undefined => return ","
  | v => words ev realm v

/-- The texts of the items with a separator between them; within itself a list is empty. -/
def joinItems (ev : Evaluator) (realm : Realm) (this separator : Value) : Action Text := do
  match ← something realm this with
  | .ref r =>
    -- a list within itself is left empty
    if (← get).joining.contains r then return []
    else whileJoining r do
      let count ← countOf ev realm this
      let mark ← separatorText ev realm separator
      return Text.join mark (← itemTexts ev realm this count 0)
  | v => do
    let count ← countOf ev realm v
    return Text.join "," (← itemTexts ev realm v count 0)

/-- What a function answers for the items from a position on, for those that are there. -/
def mapItems (ev : Evaluator) (realm : Realm) (v f : Value) :
    Nat → Nat → Action (List (Nat × Value))
  | 0, _ => return []
  | n + 1, i => do
    let name := Text.ofNat i
    -- whether the item is there is asked anew each time, since the function may take it away
    if ((← heap).find? realm v name).isSome then
      let x ← property ev realm v name
      let y ← ev.call f .undefined [x, Value.ofNat i, v]
      let ys ← mapItems ev realm v f n (i + 1)
      return (i, y) :: ys
    else mapItems ev realm v f n (i + 1)

/-- A function answers something true for every item from a position on. -/
def everyItem (ev : Evaluator) (realm : Realm) (v f : Value) : Nat → Nat → Action Bool
  | 0, _ => return true
  | n + 1, i => do
    let name := Text.ofNat i
    if ((← heap).find? realm v name).isSome then
      let x ← property ev realm v name
      let answer ← ev.call f .undefined [x, Value.ofNat i, v]
      if answer.isTruthy then everyItem ev realm v f n (i + 1) else return false
    else everyItem ev realm v f n (i + 1)

/-- One of the items from a position on is the value. -/
def anyItem (ev : Evaluator) (realm : Realm) (v sought : Value) : Nat → Nat → Action Bool
  | 0, _ => return false
  | n + 1, i => do
    if (← property ev realm v (Text.ofNat i)) == sought then return true
    else anyItem ev realm v sought n (i + 1)

/-- Puts items at positions from one on. -/
def putItems (ev : Evaluator) (realm : Realm) (v : Value) : Nat → List Value → Action Nat
  | i, [] => return i
  | i, x :: rest => do
    assign ev realm true v (Text.ofNat i) x
    putItems ev realm v (i + 1) rest

/-! ### Texts -/

/-- The words that the receiver of a function for texts is. -/
def textOf (ev : Evaluator) (realm : Realm) (this : Value) : Action Text := do
  words ev realm (← something realm this)

/-- One text stands within another. -/
def occursIn (sought : Text) : Text → Bool
  | [] => sought.isEmpty
  | u :: rest => sought.isPrefixOf (u :: rest) || occursIn sought rest

/-- The pieces of a text between the occurrences of another one; `piece` was read since the last. -/
def piecesBetween (separator : Text) (piece : Text) : Nat → Text → List Text
  | 0, t => [piece.reverse ++ t]
  | _ + 1, [] => [piece.reverse]
  | n + 1, u :: rest =>
    -- the separator is passed over as a whole
    if separator.isPrefixOf (u :: rest) then
      piece.reverse :: piecesBetween separator [] n ((u :: rest).drop separator.length)
    else piecesBetween separator (u :: piece) n rest

/-- The pieces of a text between separators; an empty separator stands between any two units. -/
def pieces (separator t : Text) : List Text :=
  if separator.isEmpty then t.map fun u => [u] else piecesBetween separator [] (t.length + 1) t

/-! ### Objects -/

/-- The tag in the text of an object that has no other. -/
def tagOf (h : Heap) (v : Value) : Text :=
  match v with
  | .undefined => "Undefined"
  | .null => "Null"
  | .bool _ => "Boolean"
  | .number _ => "Number"
  | .text _ => "String"
  | .bigint _ => "BigInt"
  | .symbol _ _ => "Symbol"
  | .ref _ =>
    match h.shape? v with
    | some (.list _ _) => "Array"
    | some (.error _) => "Error"
    | some (.callable _) => "Function"
    | _ => "Object"

/-- The text of an object that has no other. -/
def objectText (h : Heap) (v : Value) : Text := "[object " ++ tagOf h v ++ "]"

/-- The text of a list: of its items as its own `join` puts them together. -/
def listText (ev : Evaluator) (realm : Realm) (this : Value) : Action Value := do
  let v ← something realm this
  let join ← property ev realm v "join"
  let h ← heap
  if h.isCallable join then ev.call join v [] else return .text (objectText h v)

/-- One part of the text of an error. -/
def errorPart (ev : Evaluator) (realm : Realm) (v : Value) (name fallback : Text) :
    Action Text := do
  match ← property ev realm v name with
  | .undefined => return fallback
  | x => words ev realm x

/-- The text of an error: its name and its message. -/
def errorText (ev : Evaluator) (realm : Realm) (this : Value) : Action Text := do
  match this with
  | .ref _ => do
    let name ← errorPart ev realm this "name" "Error"
    let message ← errorPart ev realm this "message" []
    if name.isEmpty then return message
    else if message.isEmpty then return name
    else return name ++ ": " ++ message
  | _ => crashIn realm .type "the receiver is no object"

/-- The declaration of a callable. -/
def declaration (h : Heap) (callee : Value) : Text :=
  match h.blueprint? callee with
  | some b => b.source
  | none => "function " ++ h.nameOf callee ++ "() \x7b [native code] \x7d"

/-- What an object inherits from, as a value. -/
def parentOf (h : Heap) (realm : Realm) (v : Value) : Value :=
  match v with
  | .ref _ => (((h.object? v).bind (·.parent)).map Value.ref).getD .null
  | .text _ => .ref (realm.template .text)
  | .number _ => .ref (realm.template .number)
  | .bool _ => .ref (realm.template .truth)
  | .bigint _ => .ref (realm.template .integer)
  | .symbol _ _ => .ref (realm.template .symbol)
  | _ => .undefined

/-- Lets an object inherit from another one, or from nothing. An object that may not change keeps
its parent, and none may inherit from itself. -/
def adopt (realm : Realm) (v parent : Value) : Action Unit := do
  let h ← heap
  match h.object? v, v, parent with
  | some o, .ref r, .ref p =>
    -- to keep the parent is never refused
    if o.parent == some p then return
    else if o.frozen || p == r || h.inherits parent r then crashIn realm .type "the object keeps its parent"
    else change v (Object.adopt (some p))
  | some o, _, .null =>
    if o.parent.isNone then return
    else if o.frozen then crashIn realm .type "the object keeps its parent"
    else change v (Object.adopt none)
  | _, _, _ => return

/-- The items of a value that is given as a list of arguments. -/
def argumentList (ev : Evaluator) (realm : Realm) (v : Value) : Action (List Value) := do
  if v.isNullish then return []
  else
    let count ← countOf ev realm v
    (List.range count).mapM fun (i : Nat) => property ev realm v (Text.ofNat i)

/-- A property of the receiver itself. -/
def ownSlot? (ev : Evaluator) (realm : Realm) (this name : Value) : Action (Option Slot) := do
  let name ← words ev realm name
  let h ← heap
  return match this with
    | .text t => Heap.ofText? t name
    | v => (h.object? v).bind fun o => o.own? name

/-- The receiver of a standard function must be callable. -/
def callableReceiver (realm : Realm) (this : Value) : Action Unit := do
  if !(← heap).isCallable this then crashIn realm .type "the receiver is not a function"

/-- Carries a standard function out. -/
def callStandard (ev : Evaluator) (realm : Realm) (f : Standard) (this : Value)
    (arguments : List Value) : Action Value := do
  let first := argument arguments 0
  match f with
  | .call => do
    callableReceiver realm this
    ev.call this first (arguments.drop 1)
  | .apply => do
    callableReceiver realm this
    ev.call this first (← argumentList ev realm (argument arguments 1))
  | .bind => do
    callableReceiver realm this
    let name := "bound " ++ (← heap).nameOf this
    alloc (Object.function realm (.bound this first (arguments.drop 1)) name 0)
  | .declaration => do
    callableReceiver realm this
    return .text (declaration (← heap) this)
  | .idle => return .undefined
  | .objectText => return .text (objectText (← heap) this)
  | .itself => something realm this
  | .localText => invoke ev realm this "toString" []
  | .owns => do
    let slot ← ownSlot? ev realm this first
    return .bool slot.isSome
  | .shows => do
    let slot ← ownSlot? ev realm this first
    return .bool (slot.any Slot.isShown)
  | .isAncestor =>
    match this with
    | .ref r => return .bool ((← heap).inherits first r)
    | _ => return .bool false
  | .parent => return parentOf (← heap) realm (← something realm this)
  | .setParent => do
    adopt realm (← something realm this) first
    return .undefined
  | .join => return .text (← joinItems ev realm this first)
  | .listText => listText ev realm this
  | .map => do
    let v ← something realm this
    let count ← countOf ev realm v
    callableReceiver realm first
    let cells ← mapItems ev realm v first count 0
    alloc (Object.empty (.list cells count) (some (realm.template .list)))
  | .every => do
    let v ← something realm this
    let count ← countOf ev realm v
    callableReceiver realm first
    return .bool (← everyItem ev realm v first count 0)
  | .includes => do
    let v ← something realm this
    return .bool (← anyItem ev realm v first (← countOf ev realm v) 0)
  | .push => do
    let v ← something realm this
    let count ← putItems ev realm v (← countOf ev realm v) arguments
    assign ev realm true v "length" (Value.ofNat count)
    return Value.ofNat count
  | .errorText => return .text (← errorText ev realm this)
  | .textIncludes => do
    let t ← textOf ev realm this
    return .bool (occursIn (← words ev realm first) t)
  | .split => do
    let t ← textOf ev realm this
    match first with
    | .undefined => newList realm [.text t]
    | v => newList realm ((pieces (← words ev realm v) t).map Value.text)
  | .trim => return .text (← textOf ev realm this).trim
  | .plainText =>
    match this with
    | .symbol _ _ => return .text (← display ev realm this)
    | v => return .text (← plainWords realm v)
  | .plainValue =>
    match this with
    | .ref _ => crashIn realm .type "the receiver is an object"
    | v => something realm v
  | .description =>
    match this with
    | .symbol description _ => return .text description
    | _ => crashIn realm .type "the receiver is no symbol"
  | .unsaid => crashIn realm .type "how a function was called is not said"

/-! ### Makers -/

/-- Makes a new object of a family. -/
def make (realm : Realm) (f : Family) : Action Value :=
  match f with
  | .list => newList realm []
  | .error kind => alloc (errorObject kind realm none)
  | .function => alloc (Object.function realm (.standard .idle realm) "anonymous" 0)
  | f => alloc (Object.empty .plain (some (realm.template f)))

/-- Calls the maker of a family like a function: it converts its argument where it can. -/
def convert (ev : Evaluator) (realm : Realm) (f : Family) (arguments : List Value) :
    Action Value := do
  let first := argument arguments 0
  match f with
  | .object => do
    if ((← heap).object? first).isSome then return first else make realm .object
  | .list => newList realm arguments
  | .text => if arguments.isEmpty then return .text [] else return .text (← display ev realm first)
  | .number =>
    if arguments.isEmpty then return .number 0 else return .number (← magnitude ev realm first)
  | .truth => return .bool first.isTruthy
  | .integer =>
    match ← plain ev realm .other first with
    | .bigint n => return .bigint n
    | .bool b => return .bigint (if b then 1 else 0)
    | _ => crashIn realm .type "the value is no integer without bound"
  -- each call makes another symbol, which an object of its own stands for
  | .symbol => do
    let mark ← alloc (Object.empty .plain none)
    return .symbol ((← givenWords ev realm first).getD []) (mark.ref?.getD 0)
  | .error kind => do
    if kind.isEngine then crashIn realm .type "a class is called like a function"
    else alloc (errorObject kind realm (← givenWords ev realm first))
  | .refusal => crashIn realm .type "a class is called like a function"
  | .function => make realm .function

end EvalPlan.Action

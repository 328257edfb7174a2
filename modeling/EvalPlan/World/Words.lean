import EvalPlan.World.Property

/-!
# Values as text

How values are converted to text, and how a thrown value is described in one line. Objects are asked
for their text by their own methods, or by those that they inherit. A symbol has a text only where
one is asked for it alone.
-/

namespace EvalPlan.Action

/-- The text of a value that is no object. -/
def plainWords (realm : Realm) (v : Value) : Action Text :=
  match v with
  | .undefined => return "undefined"
  | .null => return "null"
  | .bool true => return "true"
  | .bool false => return "false"
  | .number x => return Decimal.text x
  | .text t => return t
  | .bigint i => return Text.ofInt i
  | .symbol _ _ => crashIn realm .type "a symbol has no text within another"
  | .ref _ => crashIn realm .type "an object has no text of its own"

/-- The text of a value within a longer one. -/
def words (ev : Evaluator) (realm : Realm) (v : Value) : Action Text := do
  plainWords realm (← plain ev realm .text v)

/-- The text that a value adds to another one. -/
def addedWords (ev : Evaluator) (realm : Realm) (v : Value) : Action Text := do
  plainWords realm (← plain ev realm .other v)

/-- The text of a value that is given, if one is. -/
def givenWords (ev : Evaluator) (realm : Realm) (v : Value) : Action (Option Text) := do
  match v with
  | .undefined => return none
  | v => return some (← words ev realm v)

/-- The text of a value on its own. -/
def display (ev : Evaluator) (realm : Realm) (v : Value) : Action Text :=
  match v with
  | .symbol description _ => return "Symbol(" ++ description ++ ")"
  | v => words ev realm v

/-- The line that describes a thrown value: the message of an object that has one, else the text of
the value. -/
def describe (ev : Evaluator) (v : Value) : Action Text := do
  let h ← heap
  match if h.isObject v then h.text? v "message" else none with
  | some message => return message
  | none => display ev .main v

/-- A thrown value as a cause. -/
def cause (ev : Evaluator) (v : Value) : Action Cause := do return ⟨v, ← describe ev v⟩

/-- A new error object of the engine: what it is about or says, and its cause if one is given. -/
def engineError (ev : Evaluator) (kind : ErrorKind) (subject : Text) (cause : Option Value) :
    Action Value := do
  let given := cause.getD .undefined
  let o ← match kind with
    | .resourceRead => pure (problemObject (.unreadable subject ⟨given, ← describe ev given⟩))
    | .scriptCompile => pure (problemObject (.uncompilable subject ⟨given, ← describe ev given⟩))
    | .typeLoad => pure (problemObject (.unknownType (.text subject) subject))
    | _ =>
      let o := errorObject kind .main (some subject)
      pure { o with slots := o.slots.put "cause" (.hidden given) }
  alloc (if cause.isSome then o else { o with slots := o.slots.erase "cause" })

end EvalPlan.Action

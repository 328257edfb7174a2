import EvalPlan.Script.Eval

/-!
# Reports

The lines that the command prints about a run: how many tasks were declared, one line for each
task, and the result. A task may describe itself; a result is written as JSON where it has such a
form, and else as text.
-/

namespace EvalPlan

namespace Report

open EvalPlan.Action

/-- What a task says about itself: its own description if that is a text, else its name. -/
def describeTask (ev : Evaluator) (task : Value) : Action Value := do
  if ((← Action.heap).object? task).isNone then typeError "a task is no object"
  else
    let describe ← property ev .main task "describe"
    if (← Action.heap).isCallable describe then
      match ← invoke ev .main describe "call" [task] with
      | .text t => return .text t
      | _ => nameOf ev task
    else nameOf ev task

/-- The thrown value is an error about the type of a value, of the program around the scripts. -/
def isOwnTypeError (h : Heap) (thrown : Value) : Bool :=
  h.inherits thrown (Realm.main.template (.error .type))

/-- The text of a result: its JSON text if it has one, else its own. -/
def jsonOrText (ev : Evaluator) (result : Value) : Action Text := do
  match ← ev.json [] [] result with
  | some t => return t
  | none => display ev .main result

/-- The text of a result. What JSON cannot hold is written as text. -/
def resultText (ev : Evaluator) (result : Value) : Action Text := do
  match result with
  | .undefined => return "(none)"
  | .text t => return t
  | _ =>
    tryCatch (jsonOrText ev result) fun thrown => do
      if isOwnTypeError (← Action.heap) thrown then display ev .main result else throw thrown

/-- The lines of the tasks from a number on. -/
def taskLines (ev : Evaluator) : Nat → List Value → Action (List Text)
  | _, [] => return []
  | i, task :: rest => do
    let words ← words ev .main (← describeTask ev task)
    let lines ← taskLines ev (i + 1) rest
    return ("  " ++ Text.ofNat i ++ ". " ++ words) :: lines

/-- The line that counts the tasks. -/
def countLine (count : Nat) : Text :=
  Text.ofNat count ++ (if count = 1 then " task" else " tasks") ++ " declared"

/-- The lines of a report. -/
def lines (ev : Evaluator) (e : Environment) : Action (List Text) := do
  let tasks ← taskLines ev 1 e.tasks
  let result ← resultText ev e.result
  return countLine e.tasks.length :: tasks ++ ["result: " ++ result]

end Report

end EvalPlan

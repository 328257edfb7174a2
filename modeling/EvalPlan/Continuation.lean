import EvalPlan.Script.Eval

/-!
# Continuations

Blocks that a script leaves for later run in the order in which they were queued, each with the run
bound that was bound when it was queued. A block that throws ends; what it threw is dropped. Blocks
that are queued while others run come after them.
-/

namespace EvalPlan.Action

/-- Takes the continuations that wait out of the queue. -/
def takeQueue : Action (List Job) := do
  let w ← get
  set { w with queue := [] }
  return w.queue

/-- Runs one continuation. -/
def runJob (ev : Evaluator) (job : Job) : Action Unit :=
  withBinding job.binding
    (tryCatch (Evaluator.innerBlock ev job.scene job.body) fun _ => pure ())

/-- Runs continuations in order. -/
def runJobs (ev : Evaluator) : List Job → Action Unit
  | [] => return
  | job :: rest => do
    runJob ev job
    runJobs ev rest

/-- Runs the continuations that wait now. Those they queue still wait afterwards. -/
def runRound (ev : Evaluator) : Action Unit := do runJobs ev (← takeQueue)

/-- Runs rounds until nothing waits, or as many as the bound allows. -/
def drain (ev : Evaluator) : Nat → Action Unit
  | 0 => return
  | n + 1 => do
    if (← get).queue.isEmpty then return
    else
      runRound ev
      drain ev n

/-- How many rounds of continuations may follow a script. -/
def roundBound : Nat := 10000

/-- Runs continuations until nothing waits. -/
def settle (ev : Evaluator) : Action Unit := drain ev roundBound

/-- Carries an action out whose outcome is waited for: the continuations that it queued run before
anything else sees how it came out. -/
def awaiting {α : Type} (ev : Evaluator) (act : Action α) : Action α := do
  let a ← tryCatch act fun thrown => do
    runRound ev
    throw thrown
  runRound ev
  return a

end EvalPlan.Action

import EvalPlan.Proofs.Action
import EvalPlan.Proofs.Heap
import EvalPlan.Script.Eval

/-!
# What a call comes to

A script calls a value, and what the value is decides what the call does: the verbs of a run act for
the run that they were made for, whichever run is bound, and the operations of the engine act for a
receiver that is the engine or inherits from it.
-/

namespace EvalPlan.Action

variable {host : Host} {w : World} {callee this : Value} {arguments : List Value}

/-- A verb that is called does what it is there for, whatever the receiver is. -/
theorem run_call_verb (ev : Evaluator) {v : Verb} {id : RunId} {onTask : Value}
    (hcallee : w.heap.callable? callee = some (.verb v id onTask)) :
    ExceptT.run ((Evaluator.layer host ev).call callee this arguments) w =
      ExceptT.run (callVerb host ev v id onTask arguments) w := by
  show ExceptT.run (Evaluator.evalCall host ev callee this arguments) w = _
  unfold Evaluator.evalCall
  rw [run_bind_ok (run_heap w), hcallee]

/-- An operation that is called is called on the receiver. -/
theorem run_call_operation (ev : Evaluator) {o : Operation}
    (hcallee : w.heap.callable? callee = some (.operation o)) :
    ExceptT.run ((Evaluator.layer host ev).call callee this arguments) w =
      ExceptT.run (callOperation host ev o this arguments) w := by
  show ExceptT.run (Evaluator.evalCall host ev callee this arguments) w = _
  unfold Evaluator.evalCall
  rw [run_bind_ok (run_heap w), hcallee]

/-- The engine carries out an operation that is called on what it belongs to. -/
theorem run_call_atHome (ev : Evaluator) {o : Operation}
    (hcallee : w.heap.callable? callee = some (.operation o))
    (hthis : isAtHome w.heap o this = true) :
    ExceptT.run ((Evaluator.layer host ev).call callee this arguments) w =
      ExceptT.run (operate host ev o arguments) w := by
  rw [run_call_operation ev hcallee]
  unfold callOperation
  rw [run_bind_ok (run_heap w), hthis, Bool.or_true, if_pos rfl]

/-- An operation of the engine that is called on anything else throws an error and does nothing. -/
theorem run_call_abroad (ev : Evaluator) {o : Operation} (hrole : host.role = .engine)
    (hcallee : w.heap.callable? callee = some (.operation o))
    (hthis : isAtHome w.heap o this = false) :
    ∃ error, ExceptT.run ((Evaluator.layer host ev).call callee this arguments) w =
      (.error (.ref w.heap.size), { w with heap := w.heap.push error }) := by
  rw [run_call_operation ev hcallee]
  unfold callOperation
  rw [run_bind_ok (run_heap w), hthis, hrole, if_neg (by decide)]
  -- that a task is missing is said in other words than that the receiver is not the engine
  split
  · exact ⟨_, rfl⟩
  · exact ⟨_, rfl⟩

/-- The global object of a run holds the `task` verb of this run under its name. -/
theorem globalObject_task {ev : Evaluator} {realm : Realm} {id : RunId} {g : Value} {w' : World}
    (h : ExceptT.run (globalObject host ev realm id) w = (.ok g, w')) :
    ∃ task onTask, w'.heap.value? g "task" = some task ∧
      w'.heap.callable? task = some (.verb .task id onTask) := by
  -- whatever is looked up comes first, and then the verbs and the global object are added
  obtain ⟨onTask, w₁, -, h⟩ := bind_eq_ok h
  obtain ⟨logger, w₂, -, h⟩ := bind_eq_ok h
  obtain ⟨type, w₃, -, h⟩ := bind_eq_ok h
  obtain ⟨build, w₄, -, h⟩ := bind_eq_ok h
  obtain ⟨task, w₅, hverb, h⟩ := bind_eq_ok h
  cases hverb
  rw [run_bind_ok (run_heap _), run_alloc] at h
  cases h
  refine ⟨.ref w₄.heap.size, onTask, ?_, ?_⟩
  · rw [Heap.value?, Heap.find?, Heap.slot?_own (by rw [Array.getElem?_push, if_pos rfl]) rfl]
    rfl
  · -- the verb was made last before the global object
    have hverb (o : Object) : (w₄.heap.push o)[w₄.heap.size]? = some o := by
      rw [Array.getElem?_push, if_pos rfl]
    exact Heap.callable?_of_shape (Heap.extends_push _ _ _ _ (hverb _)) rfl

end EvalPlan.Action

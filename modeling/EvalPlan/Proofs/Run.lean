import EvalPlan.Proofs.Action
import EvalPlan.Proofs.Heap
import EvalPlan.Runner

/-!
# Runs step by step

The world after each step of a run: its scope is begun, its script is carried out with the run
bound, the scope is ended, and the outcome is announced. `run_execute` takes a whole run apart.
-/

namespace EvalPlan.Action

variable {α : Type} (w : World)

/-! ## Scopes and bindings -/

@[simp] theorem run_beginScope (script : Text) :
    ExceptT.run (beginScope script) w = (.ok w.scopes.tasks.size, w.beginRun script) := rfl

@[simp] theorem run_withBinding (binding : Option RunId) (act : Action α) :
    ExceptT.run (withBinding binding act) w =
      ((ExceptT.run act (w.enter binding)).1, (ExceptT.run act (w.enter binding)).2.leave
        w.binding) := rfl

@[simp] theorem run_endingScope (id : RunId) (script : Text) (act : Action α) :
    ExceptT.run (endingScope id script act) w =
      ((ExceptT.run act w).1.map fun a => (a, ((ExceptT.run act w).2.scopes.finish id).1),
        (ExceptT.run act w).2.endRun id script (ExceptT.run act w).1.toBool) := rfl

@[simp] theorem run_countDiscarded (id : RunId) :
    ExceptT.run (countDiscarded id) w =
      (.ok (w.scopes.size id),
        { w with history := w.history ++ [.counted id (w.scopes.size id)] }) := rfl

/-- A mark is left exactly where the action throws. -/
theorem run_markingThrow (m : Mark) (act : Action α) :
    ExceptT.run (markingThrow m act) w =
      match ExceptT.run act w with
      | (.ok a, w') => (.ok a, w')
      | (.error v, w') => (.error v, { w' with history := w'.history ++ [m] }) := by
  unfold markingThrow
  rw [run_tryCatch]
  rcases ExceptT.run act w with ⟨_ | _, _⟩ <;> rfl

/-! ## Actions that always throw -/

/-- However an action begins, it ends in throwing a value. -/
def Throws {α : Type} (act : Action α) : Prop := ∀ w, ∃ v, (ExceptT.run act w).1 = .error v

theorem throws_bind {α β : Type} {x : Action α} {f : α → Action β} (h : ∀ a, Throws (f a)) :
    Throws (x >>= f) := by
  intro w
  rw [run_bind]
  cases ExceptT.run x w with
  | mk r w' =>
    cases r with
    | error v => exact ⟨v, rfl⟩
    | ok a => exact h a w'

theorem throws_failRun {α : Type} (host : Host) (ev : Evaluator) (script : Text) (id : RunId)
    (thrown : Value) : Throws (failRun host ev script id thrown : Action α) :=
  throws_bind fun _ => throws_bind fun _ => throws_bind fun _ => throws_bind fun _ _ => ⟨_, rfl⟩

/-! ## A whole run -/

variable (host : Host) (ev : Evaluator) (script : Text)

theorem run_carryOut (id : RunId) (body : Action Value) :
    ExceptT.run (carryOut host ev script id body) w =
      match ExceptT.run body (w.enter (some id)) with
      | (.ok v, w') => (.ok v, w'.leave w.binding)
      | (.error thrown, w') => ExceptT.run (failRun host ev script id thrown)
        (w'.leave w.binding) := by
  unfold carryOut
  rw [run_tryCatch, run_withBinding]
  rcases ExceptT.run body (w.enter (some id)) with ⟨_ | _, _⟩ <;> rfl

/-- What comes after the scope of a run was begun: the script may not be reached, it may fail, and
its end may not be announced. -/
theorem run_execute (body : RunId → Action Value) :
    ExceptT.run (execute host ev script body) w =
      match ExceptT.run (openRun host ev script w.scopes.tasks.size) (w.beginRun script) with
      | (.error v, w₂) => (.error v, w₂)
      | (.ok _, w₂) =>
        match ExceptT.run (carryOut host ev script w.scopes.tasks.size (body w.scopes.tasks.size))
          w₂ with
        | (.error v, w₃) => (.error v, w₃.endRun w.scopes.tasks.size script false)
        | (.ok result, w₃) =>
          match ExceptT.run (announceCompleted host ev script w.scopes.tasks.size
              ⟨(w₃.scopes.finish w.scopes.tasks.size).1, result⟩)
                (w₃.endRun w.scopes.tasks.size script true) with
          | (.error v, w₄) => (.error v, w₄)
          | (.ok _, w₄) => (.ok ⟨(w₃.scopes.finish w.scopes.tasks.size).1, result⟩, w₄) := by
  unfold execute
  rw [run_bind_ok (run_beginScope w script), run_bind]
  rcases ExceptT.run (openRun host ev script w.scopes.tasks.size)
    (w.beginRun script) with ⟨_ | _, w₂⟩
  · -- the run could not be opened
    rfl
  · simp only
    rw [run_bind, run_endingScope]
    rcases ExceptT.run (carryOut host ev script w.scopes.tasks.size (body w.scopes.tasks.size)) w₂
      with ⟨_ | result, w₃⟩
    · -- the script threw, or reporting this did
      rfl
    · simp only [Except.map, Except.toBool]
      rw [run_bind]
      rcases ExceptT.run (announceCompleted host ev script w.scopes.tasks.size
        ⟨(w₃.scopes.finish w.scopes.tasks.size).1, result⟩)
          (w₃.endRun w.scopes.tasks.size script true)
        with ⟨_ | _, w₄⟩ <;> rfl

variable {w} {host} {ev} {script}

/-- A run that ends well: its script was carried out with the run bound and answered the completion
value, and the tasks are what its scope held then. -/
theorem execute_ok {body : RunId → Action Value} {e : Environment} {w' : World}
    (h : ExceptT.run (execute host ev script body) w = (.ok e, w')) :
    ∃ w₂ w₃,
      ExceptT.run (openRun host ev script w.scopes.tasks.size) (w.beginRun script) = (.ok ⟨⟩, w₂) ∧
      ExceptT.run (body w.scopes.tasks.size) (w₂.enter (some w.scopes.tasks.size)) =
        (.ok e.result, w₃) ∧
      e.tasks = (w₃.scopes.finish w.scopes.tasks.size).1 ∧
      ExceptT.run (announceCompleted host ev script w.scopes.tasks.size e)
        ((w₃.leave w₂.binding).endRun w.scopes.tasks.size script true) = (.ok ⟨⟩, w') := by
  rw [run_execute] at h
  split at h
  · cases h
  next w₂ hopen =>
    split at h
    · cases h
    next hcarry =>
      split at h
      · cases h
      next hcompleted =>
        rw [run_carryOut] at hcarry
        split at hcarry
        next w₃ hbody =>
          cases hcarry
          cases h
          exact ⟨w₂, w₃, hopen, hbody, rfl, hcompleted⟩
        next =>
          -- a run whose script threw does not end well
          obtain ⟨v, hv⟩ := throws_failRun host ev script w.scopes.tasks.size _ _
          rw [hcarry] at hv
          cases hv

/-! ## Environments -/

/-- A script sees the tasks of an environment in a frozen list of a frozen object. -/
theorem run_environmentValue (w : World) (e : Environment) :
    ∃ w', ExceptT.run (environmentValue e) w = (.ok (.ref (w.heap.size + 1)), w') ∧
      w'.history = w.history ∧ w'.heap[w.heap.size]? = some e.listObject ∧
      w'.heap[w.heap.size + 1]? = some (e.object (.ref w.heap.size)) := by
  have hsize : (w.heap.push e.listObject).size = w.heap.size + 1 := Array.size_push _
  -- the list of tasks is made first, and the object that holds it stands right behind it
  have hrun : ExceptT.run (environmentValue e) w = (.ok (.ref (w.heap.size + 1)),
      { w with heap := (w.heap.push e.listObject).push (e.object (.ref w.heap.size)) }) := by
    unfold environmentValue
    rw [run_bind_ok (run_alloc w _), run_alloc]
    exact congrArg (fun n => (Except.ok (Value.ref n), _)) hsize
  refine ⟨_, hrun, rfl, ?_, ?_⟩
  · show ((w.heap.push e.listObject).push _)[w.heap.size]? = _
    rw [Array.getElem?_push, Array.getElem?_push, hsize, if_neg (by omega), if_pos rfl]
  · show ((w.heap.push e.listObject).push _)[w.heap.size + 1]? = _
    rw [Array.getElem?_push, hsize, if_pos rfl]

end EvalPlan.Action

import EvalPlan.World

/-!
# Running actions

What the steps of an action come to when it is run in a world, and what it means that an action
keeps a relation between the world before and the world after it. An action keeps a relation however
it comes out: what it did before it throws stays done.
-/

namespace EvalPlan.Action

variable {α β : Type}

/-! ## Running the steps of an action -/

section run

variable (w : World)

/-- An action that only answers changes nothing. -/
@[simp] theorem run_pure (a : α) : ExceptT.run (pure a : Action α) w = (.ok a, w) := rfl

/-- An action that only throws changes nothing. -/
@[simp] theorem run_throw (v : Value) : ExceptT.run (throw v : Action α) w = (.error v, w) := rfl

/-- The world itself can be asked for. -/
@[simp] theorem run_get : ExceptT.run (get : Action World) w = (.ok w, w) := rfl

/-- The world is replaced as a whole. -/
@[simp] theorem run_set (w' : World) : ExceptT.run (set w' : Action PUnit) w = (.ok ⟨⟩, w') := rfl

/-- The world is changed by a function. -/
@[simp] theorem run_modify (f : World → World) :
    ExceptT.run (modify f : Action PUnit) w = (.ok ⟨⟩, f w) := rfl

/-- The world is changed by a function that answers. -/
@[simp] theorem run_modifyGet (f : World → α × World) :
    ExceptT.run (modifyGet f : Action α) w = (.ok (f w).1, (f w).2) := rfl

/-- The heap is the heap of the world. -/
@[simp] theorem run_heap : ExceptT.run heap w = (.ok w.heap, w) := rfl

/-- A new object takes the next place. -/
@[simp] theorem run_alloc (o : Object) :
    ExceptT.run (alloc o) w = (.ok (.ref w.heap.size), { w with heap := w.heap.push o }) := rfl

/-- A notice is added at the end. -/
@[simp] theorem run_note (n : Notice) :
    ExceptT.run (note n) w = (.ok ⟨⟩, { w with notices := w.notices ++ [n] }) := rfl

/-- So is a mark of the history. -/
@[simp] theorem run_mark (m : Mark) :
    ExceptT.run (mark m) w = (.ok ⟨⟩, { w with history := w.history ++ [m] }) := rfl

/-- A change of an object is kept in the history. -/
@[simp] theorem run_change (v : Value) (f : Object → Object) :
    ExceptT.run (change v f) w =
      (.ok ⟨⟩, { w with heap := w.heap.update v f, history := w.history ++ alterations v }) := rfl

/-- The second action begins where the first one ended, unless that threw. -/
theorem run_bind (x : Action α) (f : α → Action β) :
    ExceptT.run (x >>= f) w =
      match ExceptT.run x w with
      | (.ok a, w') => ExceptT.run (f a) w'
      | (.error v, w') => (.error v, w') := by
  -- running a composed action is running its parts; what is left is whether the first one threw
  show ExceptT.bindCont f (ExceptT.run x w).1 (ExceptT.run x w).2 = _
  rcases ExceptT.run x w with ⟨_ | _, _⟩ <;> rfl

/-- After a result the second action goes on with it. -/
theorem run_bind_ok {x : Action α} {f : α → Action β} {w w' : World} {a : α}
    (h : ExceptT.run x w = (.ok a, w')) : ExceptT.run (x >>= f) w = ExceptT.run (f a) w' := by
  rw [run_bind, h]

/-- After a fault there is no second action. -/
theorem run_bind_error {x : Action α} {f : α → Action β} {w w' : World} {v : Value}
    (h : ExceptT.run x w = (.error v, w')) : ExceptT.run (x >>= f) w = (.error v, w') := by
  rw [run_bind, h]

/-- An action that answers: both of its parts do. -/
theorem bind_eq_ok {x : Action α} {f : α → Action β} {w w' : World} {b : β}
    (h : ExceptT.run (x >>= f) w = (.ok b, w')) :
    ∃ a w₁, ExceptT.run x w = (.ok a, w₁) ∧ ExceptT.run (f a) w₁ = (.ok b, w') := by
  rw [run_bind] at h
  split at h
  next a w₁ hx => exact ⟨a, w₁, hx, h⟩
  next => cases h

/-- A fault is handed over together with the world it left. -/
theorem run_tryCatch (x : Action α) (f : Value → Action α) :
    ExceptT.run (tryCatch x f) w =
      match ExceptT.run x w with
      | (.ok a, w') => (.ok a, w')
      | (.error v, w') => ExceptT.run (f v) w' := by
  rw [ExceptT.run_tryCatch]
  simp only [Bind.bind, StateT.bind]
  rcases ExceptT.run x w with ⟨_ | _, _⟩ <;> rfl

/-- What an action comes to, where it is known whether it answers or throws. -/
theorem pair_eq {α β : Type} {p : α × β} {a : α} (h : p.1 = a) : p = (a, p.2) := by
  rw [← h]

end run

/-! ## Keeping a relation -/

/-- However an action comes out, a relation holds between the world before and the world after
it. -/
def Keeps (R : World → World → Prop) (act : Action α) : Prop := ∀ w, R w (ExceptT.run act w).2

/-- What an action keeps holds between its two worlds. -/
theorem Keeps.of_run {R : World → World → Prop} {act : Action α} (hact : Keeps R act) {w w' : World}
    {r : Except Value α} (h : ExceptT.run act w = (r, w')) : R w w' := by
  have hkept := hact w
  rw [h] at hkept
  exact hkept

/-- A relation that actions keep if each of their steps does. -/
structure Stepwise (R : World → World → Prop) : Prop where
  refl : ∀ w, R w w
  trans : ∀ {a b c}, R a b → R b c → R a c

namespace Stepwise

variable {R : World → World → Prop} (law : Stepwise R)

include law

/-- Answering keeps everything. -/
theorem pure (a : α) : Keeps R (Pure.pure a : Action α) := fun w => law.refl w

/-- So does throwing. -/
theorem throw (v : Value) : Keeps R (MonadExcept.throw v : Action α) := fun w => law.refl w

/-- Asking for the world keeps everything. -/
theorem get : Keeps R (MonadState.get : Action World) := fun w => law.refl w

/-- So does asking for the heap. -/
theorem heap : Keeps R Action.heap := fun w => law.refl w

/-- What both actions keep is kept by one after the other. -/
theorem bind {x : Action α} {f : α → Action β} (hx : Keeps R x) (hf : ∀ a, Keeps R (f a)) :
    Keeps R (x >>= f) := by
  intro w
  have h := hx w
  rw [run_bind]
  cases hr : ExceptT.run x w with
  | mk r w' =>
    rw [hr] at h
    cases r with
    -- the second part begins where the first one left the world
    | ok a => exact law.trans h (hf a w')
    -- the second part is not reached
    | error v => exact h

/-- Handling what an action throws; the handler acts in the world that the action left. -/
theorem tryCatch {x : Action α} {f : Value → Action α} (hx : Keeps R x) (hf : ∀ v, Keeps R (f v)) :
    Keeps R (MonadExcept.tryCatch x f) := by
  intro w
  have h := hx w
  rw [run_tryCatch]
  cases hr : ExceptT.run x w with
  | mk r w' =>
    rw [hr] at h
    cases r with
    | ok a => exact h
    -- what the action did before it threw stays done
    | error v => exact law.trans h (hf v w')

end Stepwise

end EvalPlan.Action

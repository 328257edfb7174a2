import EvalPlan.Proofs.Action
import EvalPlan.Proofs.Bus
import EvalPlan.Proofs.Scope
import EvalPlan.Proofs.Shift.Heap

/-!
# Actions in moved worlds

`Shift.Worlds` relates a world to one in which the same was done after other things: the objects,
the variables and the runs of the one world are found moved in the other one, what the engine keeps
for itself is the same, and what else the other world holds does not matter. An action follows
another one if it does the moved thing in every such world (`Action.Follows`).

Outside of all runs that the two worlds know, no run is current in the one world. In the other one a
run that is still open may enclose everything. There a task that belongs to no run in the one world
is taken by the enclosing run, so that the actions are compared only as long as no task goes astray.
-/

namespace EvalPlan

/-- The task was offered while no run was bound. -/
def Mark.isStray : Mark → Bool
  | .offered none _ _ _ => true
  | _ => false

/-- How many tasks were offered while no run was bound. -/
def World.strays (w : World) : Nat := w.history.countP Mark.isStray

/-- Where the other world stands outside of the runs that both worlds know. -/
inductive Surroundings
  /-- No run is current there. -/
  | free (outer : Option RunId)
  /-- A run may be current there. -/
  | within (outer : RunId)

namespace Shift

variable (σ : Shift)

/-- The run that is bound in the other world. -/
def binding (s : Surroundings) : Option RunId → Option RunId
  | some id => some (σ.run id)
  | none =>
    match s with
    | .free outer => outer
    | .within outer => some outer

/-- What the engine looks up is not moved: the types, the programs in files, and what subscribers
throw. -/
structure Keeps (w : World) : Prop where
  types : ∀ name v, w.types.table.get? name = some v → σ.value v = v
  broken : ∀ v, w.types.broken = some v → σ.value v = v
  files : ∀ path program, w.files.read path = .ok (.script program) → σ.program program = program
  subscribers : ∀ c, ∀ sub ∈ w.bus.channel c, ∀ v, sub.handler.reaction = .fail v → σ.value v = v
  ordered : w.bus.Ordered

/-- The other world has come as far as the one, with other things done before. -/
structure Worlds (s : Surroundings) (a c : World) : Prop where
  heaps : σ.Heaps a.heap c.heap
  frames_size : c.frames.size = a.frames.size + σ.framesBy
  frames_le : σ.frames ≤ a.frames.size
  frame : ∀ f : Nat, c.frames[σ.frame f]? = (a.frames[f]?).map σ.bindings
  runs_size : c.scopes.tasks.size = a.scopes.tasks.size + σ.runsBy
  runs_le : σ.runs ≤ a.scopes.tasks.size
  isOpen : ∀ id, c.scopes.isOpen (σ.run id) = a.scopes.isOpen id
  tasks : ∀ id, σ.runs ≤ id → c.scopes.open? (σ.run id) = (a.scopes.open? id).map (List.map σ.value)
  binding : c.binding = σ.binding s a.binding
  outer : ∀ id, s = .free (some id) → id < c.scopes.tasks.size ∧ c.scopes.isOpen id = false
  mappings : c.mappings = a.mappings.map fun row => (σ.value row.1, σ.value row.2)
  types : c.types = a.types
  resources : c.resources = a.resources
  files : c.files = a.files
  bus : c.bus = a.bus
  clock : c.clock = a.clock
  keeps : σ.Keeps a
  joining : ∀ r, c.joining.contains (σ.ref r) = a.joining.contains r

/-- What an action leaves as it was: nothing earlier changes but objects and registrations. -/
structure Grows (a a' : World) : Prop where
  strays_le : a.strays ≤ a'.strays
  frame : ∀ f < σ.frames, a'.frames[f]? = a.frames[f]?
  isOpen : ∀ id < σ.runs, a'.scopes.isOpen id = a.scopes.isOpen id
  binding : a'.binding = a.binding
  types : a'.types = a.types
  resources : a'.resources = a.resources
  files : a'.files = a.files
  bus : a'.bus = a.bus
  clock : a'.clock = a.clock
  joining : a'.joining = a.joining

variable {σ}

/-- A world keeps still what has the types, files and subscribers of one that does. -/
theorem Keeps.of_eq {w w' : World} (h : σ.Keeps w) (htypes : w'.types = w.types)
    (hfiles : w'.files = w.files) (hbus : w'.bus = w.bus) : σ.Keeps w' where
  types := htypes ▸ h.types
  broken := htypes ▸ h.broken
  files := hfiles ▸ h.files
  subscribers := hbus ▸ h.subscribers
  ordered := hbus ▸ h.ordered

/-- A world grows into itself. -/
theorem Grows.refl (a : World) : σ.Grows a a :=
  ⟨Nat.le_refl _, fun _ _ => rfl, fun _ _ => rfl, rfl, rfl, rfl, rfl, rfl, rfl, rfl⟩

/-- What grows twice has grown. -/
theorem Grows.trans {a b c : World} (h : σ.Grows a b) (h' : σ.Grows b c) : σ.Grows a c where
  strays_le := Nat.le_trans h.strays_le h'.strays_le
  frame f hf := (h'.frame f hf).trans (h.frame f hf)
  isOpen id hid := (h'.isOpen id hid).trans (h.isOpen id hid)
  binding := h'.binding.trans h.binding
  types := h'.types.trans h.types
  resources := h'.resources.trans h.resources
  files := h'.files.trans h.files
  bus := h'.bus.trans h.bus
  clock := h'.clock.trans h.clock
  joining := h'.joining.trans h.joining

/-- Within an open run everything is as it would be without it, but for the binding. -/
theorem Worlds.release {outer : RunId} {a c : World} (h : σ.Worlds (.within outer) a c) :
    σ.Worlds (.free none) a { c with binding := σ.binding (.free none) a.binding } :=
  { h with
    binding := rfl
    outer := nofun }

end Shift

namespace Action

open Shift

/-- What the other action answers or throws. -/
def moved {α β : Type} (σ : Shift) (f : α → β) : Except Value α → Except Value β
  | .ok x => .ok (f x)
  | .error v => .error (σ.value v)

/-- Two actions come out alike, and leave the worlds alike. -/
def Alike {α β : Type} (σ : Shift) (s : Surroundings) (f : α → β) (p : Except Value α × World)
    (q : Except Value β × World) : Prop :=
  q.1 = moved σ f p.1 ∧ σ.Worlds s p.2 q.2

/-- An action does in the other world what an action does in the one. -/
structure Follows (role : Role) (σ : Shift) {α β : Type} (f : α → β) (act : Action α)
    (act' : Action β) : Prop where
  free : ∀ {outer a c}, σ.Worlds (.free outer) a c → σ.Grows a (ExceptT.run act a).2 ∧
    Alike σ (.free outer) f (ExceptT.run act a) (ExceptT.run act' c)
  within : role = .engine → ∀ {outer a c}, σ.Worlds (.within outer) a c →
    (ExceptT.run act a).2.strays = a.strays →
    Alike σ (.within outer) f (ExceptT.run act a) (ExceptT.run act' c)

namespace Follows

variable {role : Role} {σ : Shift} {α β γ δ : Type}

/-- A step that does not ask for the surroundings. -/
theorem of_step {f : α → β} {act : Action α} {act' : Action β}
    (h : ∀ {s a c}, σ.Worlds s a c → σ.Grows a (ExceptT.run act a).2 ∧
      Alike σ s f (ExceptT.run act a) (ExceptT.run act' c)) : Follows role σ f act act' :=
  ⟨fun hw => h hw, fun _ _ _ _ hw _ => (h hw).2⟩

/-- An answer follows as the moved answer. -/
protected theorem pure (f : α → β) (x : α) : Follows role σ f (Pure.pure x) (Pure.pure (f x)) :=
  of_step fun hw => ⟨.refl _, rfl, hw⟩

/-- So does an answer that is known to be the moved one. -/
theorem pure_of_eq {f : α → β} {x : α} {y : β} (h : y = f x) :
    Follows role σ f (Pure.pure x) (Pure.pure y) := h ▸ .pure f x

/-- A thrown value follows as the moved value. -/
protected theorem throw (f : α → β) (v : Value) :
    Follows role σ f (MonadExcept.throw v) (MonadExcept.throw (σ.value v)) :=
  of_step fun hw => ⟨.refl _, rfl, hw⟩

/-- One action after another follows if both do. -/
theorem bind {f : α → β} {g : γ → δ} {x : Action α} {x' : Action β} {k : α → Action γ}
    {k' : β → Action δ} (hx : Follows role σ f x x') (hk : ∀ a, Follows role σ g (k a) (k' (f a))) :
    Follows role σ g (x >>= k) (x' >>= k') where
  free := by
    intro outer a c hw
    obtain ⟨hgrows, hres, hw₁⟩ := hx.free hw
    rw [run_bind, run_bind]
    rcases hrun : ExceptT.run x a with ⟨v | y, a₁⟩
    · rw [hrun] at hgrows hres hw₁
      rw [pair_eq hres]
      exact ⟨hgrows, rfl, hw₁⟩
    · rw [hrun] at hgrows hres hw₁
      rw [pair_eq hres]
      obtain ⟨hgrows', halike⟩ := (hk y).free hw₁
      exact ⟨hgrows.trans hgrows', halike⟩
  within := by
    intro hrole outer a c hw hstrays
    -- what the parts leave does not depend on what encloses them
    obtain ⟨hgrows, -, hw₀⟩ := hx.free hw.release
    rw [run_bind] at hstrays ⊢
    rw [run_bind]
    rcases hrun : ExceptT.run x a with ⟨v | y, a₁⟩
    · rw [hrun] at hstrays
      obtain ⟨hres, hw₁⟩ := hx.within hrole hw (by rw [hrun]; exact hstrays)
      rw [hrun] at hres hw₁
      rw [pair_eq hres]
      exact ⟨rfl, hw₁⟩
    · rw [hrun] at hstrays hgrows hw₀
      have hrest := ((hk y).free hw₀).1.strays_le
      have hfirst : a₁.strays = a.strays :=
        Nat.le_antisymm (Nat.le_trans hrest (Nat.le_of_eq hstrays)) hgrows.strays_le
      obtain ⟨hres, hw₁⟩ := hx.within hrole hw (by rw [hrun]; exact hfirst)
      rw [hrun] at hres hw₁
      rw [pair_eq hres]
      exact (hk y).within hrole hw₁ (hstrays.trans hfirst.symm)

/-- An action whose throws are handled follows if it and the handler do. -/
theorem tryCatch {f : α → β} {x : Action α} {x' : Action β} {k : Value → Action α}
    {k' : Value → Action β} (hx : Follows role σ f x x')
    (hk : ∀ v, Follows role σ f (k v) (k' (σ.value v))) :
    Follows role σ f (MonadExcept.tryCatch x k) (MonadExcept.tryCatch x' k') where
  free := by
    intro outer a c hw
    obtain ⟨hgrows, hres, hw₁⟩ := hx.free hw
    rw [run_tryCatch, run_tryCatch]
    rcases hrun : ExceptT.run x a with ⟨v | y, a₁⟩
    · rw [hrun] at hgrows hres hw₁
      rw [pair_eq hres]
      obtain ⟨hgrows', halike⟩ := (hk v).free hw₁
      exact ⟨hgrows.trans hgrows', halike⟩
    · rw [hrun] at hgrows hres hw₁
      rw [pair_eq hres]
      exact ⟨hgrows, rfl, hw₁⟩
  within := by
    intro hrole outer a c hw hstrays
    obtain ⟨hgrows, -, hw₀⟩ := hx.free hw.release
    rw [run_tryCatch] at hstrays ⊢
    rw [run_tryCatch]
    rcases hrun : ExceptT.run x a with ⟨v | y, a₁⟩
    · rw [hrun] at hstrays hgrows hw₀
      -- the whole adds no strays and the handler takes none back, so that the part up to the throw
      -- adds none
      have hrest := ((hk v).free hw₀).1.strays_le
      have hfirst : a₁.strays = a.strays :=
        Nat.le_antisymm (Nat.le_trans hrest (Nat.le_of_eq hstrays)) hgrows.strays_le
      obtain ⟨hres, hw₁⟩ := hx.within hrole hw (by rw [hrun]; exact hfirst)
      rw [hrun] at hres hw₁
      rw [pair_eq hres]
      exact (hk v).within hrole hw₁ (hstrays.trans hfirst.symm)
    · rw [hrun] at hstrays
      obtain ⟨hres, hw₁⟩ := hx.within hrole hw (by rw [hrun]; exact hstrays)
      rw [hrun] at hres hw₁
      rw [pair_eq hres]
      exact ⟨rfl, hw₁⟩

/-! ### Reading -/

/-- Reading the world: the rest may depend on whatever is alike in both worlds. -/
theorem get {f : α → β} {k : World → Action α} {k' : World → Action β}
    (hk : ∀ {s a c}, σ.Worlds s a c → Follows role σ f (k a) (k' c)) :
    Follows role σ f (MonadState.get >>= k) (MonadState.get >>= k') where
  free hw := (hk hw).free hw
  within hrole _ _ _ hw hstrays := (hk hw).within hrole hw hstrays

/-- What looks at the heap follows if it does so with any two heaps that correspond. -/
theorem heap {f : α → β} {k : Heap → Action α} {k' : Heap → Action β}
    (hk : ∀ {h h'}, σ.Heaps h h' → Follows role σ f (k h) (k' h')) :
    Follows role σ f (Action.heap >>= k) (Action.heap >>= k') where
  free hw := (hk hw.heaps).free hw
  within hrole _ _ _ hw hstrays := (hk hw.heaps).within hrole hw hstrays

/-- One action after another along a list follows if each of them does. -/
theorem forM {f : α → Action PUnit} {f' : β → Action PUnit} {g : α → β} {l : List α}
    (h : ∀ a ∈ l, Follows role σ id (f a) (f' (g a))) :
    Follows role σ id (l.forM f) ((l.map g).forM f') := by
  induction l with
  | nil => exact .pure id PUnit.unit
  | cons a l ih =>
    show Follows role σ id (f a >>= fun _ => l.forM f) (f' (g a) >>= fun _ => (l.map g).forM f')
    exact bind (h a List.mem_cons_self) fun _ => ih fun b hb => h b (List.mem_cons_of_mem a hb)

/-- So do actions whose answers are collected. -/
theorem mapM {f : α → Action γ} {f' : β → Action δ} {g : α → β} {j : γ → δ} {l : List α}
    (h : ∀ a, Follows role σ j (f a) (f' (g a))) :
    Follows role σ (List.map j) (l.mapM f) ((l.map g).mapM f') := by
  induction l with
  | nil => exact .pure (List.map j) []
  | cons a l ih =>
    rw [List.mapM_cons, List.map_cons, List.mapM_cons]
    exact bind (h a) fun y => bind ih fun ys => .pure (List.map j) (y :: ys)

end Follows

end Action

end EvalPlan

import EvalPlan.Proofs.Law.Standard
import EvalPlan.Proofs.Run
import EvalPlan.Proofs.Shift.Steps

/-!
# Runs in moved worlds

The steps in which runs take part follow each other in moved worlds: scopes are begun and ended,
runs bound, tasks declared and offered, builders registered.

Only offering a task asks which run is bound. Outside of all runs that both worlds know, an
enclosing run would take it: there a task goes astray (`offer_follows`).
-/

namespace EvalPlan

namespace Scopes

variable {τ : Type} (s : Scopes τ)

/-- Beginning a scope leaves open which earlier ones are open. -/
theorem isOpen_start {id : Nat} (h : id < s.tasks.size) : s.start.2.isOpen id = s.isOpen id := by
  unfold isOpen
  rw [open?_start, if_neg (Nat.ne_of_lt h)]

/-- Registering a task opens and closes no scope. -/
@[simp] theorem isOpen_register (id other : Nat) (task : τ) :
    (s.register id task).2.isOpen other = s.isOpen other := by
  unfold isOpen
  rw [open?_register]
  split
  next h => rw [h, Option.isSome_map]
  next => rfl

/-- Ending a scope closes this one and no other. -/
theorem isOpen_finish (id other : Nat) :
    (s.finish id).2.isOpen other = if other = id then false else s.isOpen other := by
  unfold isOpen
  rw [open?_finish]
  split <;> rfl

/-- There is no scope with a number that was not given out yet. -/
theorem open?_of_le {id : Nat} (h : s.tasks.size ≤ id) : s.open? id = none := by
  unfold open?
  rw [Array.getElem?_eq_none h]
  rfl

end Scopes

namespace Action

open Shift

variable {role : Role} {σ : Shift} {α β : Type}

/-! ## Lists that are put into text -/

/-- What is done while a list is being joined follows as what is done while the moved list is. -/
theorem whileJoining_follows {f : α → β} (r : Ref) {act : Action α} {act' : Action β}
    (h : Follows role σ f act act') :
    Follows role σ f (whileJoining r act) (whileJoining (σ.ref r) act') := by
  -- the list that is being joined is noted at its place in each world
  have hnoted {s : Surroundings} {a c : World} (hw : σ.Worlds s a c) :
      σ.Worlds s { a with joining := r :: a.joining } { c with joining := σ.ref r :: c.joining } :=
    { hw with
      keeps := hw.keeps.of_eq rfl rfl rfl
      joining := fun r' => by
        show (σ.ref r :: c.joining).contains (σ.ref r') = (r :: a.joining).contains r'
        rw [List.contains_cons, List.contains_cons, σ.ref_beq, hw.joining] }
  have hrestored {s : Surroundings} {a c a' c' : World} (hw : σ.Worlds s a c)
    (hw' : σ.Worlds s a' c') :
      σ.Worlds s { a' with joining := a.joining } { c' with joining := c.joining } :=
    { hw' with
      keeps := hw'.keeps.of_eq rfl rfl rfl
      joining := hw.joining }
  constructor
  · intro outer a c hw
    obtain ⟨hgrows, hres, hw'⟩ := h.free (hnoted hw)
    rw [run_whileJoining, run_whileJoining]
    exact ⟨{ hgrows with joining := rfl }, hres, hrestored hw hw'⟩
  · intro hrole outer a c hw hstrays
    obtain ⟨hres, hw'⟩ := h.within hrole (hnoted hw) hstrays
    rw [run_whileJoining, run_whileJoining]
    exact ⟨hres, hrestored hw hw'⟩

/-! ## Bound runs -/

/-- Code within a run follows as code within the moved run. -/
theorem withBinding_follows {f : α → β} (id : RunId) {act : Action α} {act' : Action β}
    (h : Follows role σ f act act') :
    Follows role σ f (withBinding (some id) act) (withBinding (some (σ.run id)) act') := by
  -- binding a run and taking it back concern the binding only, which the shift moves
  have hentered {s : Surroundings} {a c : World} (hw : σ.Worlds s a c) :
      σ.Worlds s (a.enter (some id)) (c.enter (some (σ.run id))) :=
    { hw with
      binding := rfl
      keeps := hw.keeps.of_eq rfl rfl rfl }
  have hleft {s : Surroundings} {a c a' c' : World} (hw : σ.Worlds s a c) (hw' : σ.Worlds s a' c') :
      σ.Worlds s (a'.leave a.binding) (c'.leave c.binding) :=
    { hw' with
      binding := hw.binding
      keeps := hw'.keeps.of_eq rfl rfl rfl }
  have hstrays (a : World) : (a.enter (some id)).strays = a.strays := strays_append a rfl
  constructor
  · intro outer a c hw
    obtain ⟨hgrows, hres, hw'⟩ := h.free (hentered hw)
    rw [run_withBinding, run_withBinding]
    refine ⟨{ hgrows with strays_le := ?_, binding := rfl }, hres, hleft hw hw'⟩
    exact Nat.le_trans (hstrays a ▸ hgrows.strays_le) (Nat.le_of_eq (strays_append _ rfl).symm)
  · -- the marks of entering and leaving are of no stray task, so that the action itself goes without one
    intro hrole outer a c hw hclean
    rw [run_withBinding] at hclean
    obtain ⟨hres, hw'⟩ := h.within hrole (hentered hw)
      ((strays_append _ rfl).symm.trans (hclean.trans (hstrays a).symm))
    rw [run_withBinding, run_withBinding]
    exact ⟨hres, hleft hw hw'⟩

/-! ## Scopes -/

/-- What is left of the worlds once scopes have changed alike in both. -/
theorem worlds_of_scopes {s : Surroundings} {a c : World} (hw : σ.Worlds s a c)
    {scopes scopes' : Scopes Value} (history history' : List Mark)
    (hsize : scopes.tasks.size = a.scopes.tasks.size)
    (hsize' : scopes'.tasks.size = c.scopes.tasks.size)
    (hopen : ∀ id, scopes'.isOpen (σ.run id) = scopes.isOpen id)
    (htasks : ∀ id, σ.runs ≤ id →
      scopes'.open? (σ.run id) = (scopes.open? id).map (List.map σ.value))
    (hclosed : ∀ id, c.scopes.isOpen id = false → scopes'.isOpen id = false) :
    σ.Worlds s { a with scopes := scopes, history := history }
      { c with scopes := scopes', history := history' } :=
  { hw with
    runs_size := by rw [hsize', hsize, hw.runs_size]
    runs_le := by rw [hsize]; exact hw.runs_le
    isOpen := hopen
    tasks := htasks
    outer := fun id hid => by
      obtain ⟨hlt, hfalse⟩ := hw.outer id hid
      exact ⟨by rw [hsize']; exact hlt, hclosed id hfalse⟩
    keeps := hw.keeps.of_eq rfl rfl rfl }

/-- Two worlds correspond after a task was registered for a run in one and for the moved run in the
other. -/
theorem worlds_register {s : Surroundings} {a c : World} (hw : σ.Worlds s a c) (id : RunId)
    (task : Value) (history history' : List Mark) :
    σ.Worlds s { a with scopes := (a.scopes.register id task).2, history := history }
      { c with scopes := (c.scopes.register (σ.run id) (σ.value task)).2, history := history' } := by
  refine worlds_of_scopes hw history history' (a.scopes.size_register id task)
    (c.scopes.size_register _ _) (fun other => ?_) (fun other hother => ?_)
    (fun other hclosed => ?_)
  · rw [Scopes.isOpen_register, Scopes.isOpen_register, hw.isOpen]
  · rw [Scopes.open?_register, Scopes.open?_register, hw.tasks other hother]
    by_cases heq : other = id
    · subst heq
      rw [if_pos rfl, if_pos rfl, hw.tasks other hother]
      cases a.scopes.open? other <;> simp
    · rw [if_neg heq, if_neg fun h => heq (σ.run_inj.mp h)]
  · rw [Scopes.isOpen_register, hclosed]

/-- The next run of one world goes to the next run of the other. -/
theorem run_size {s : Surroundings} {a c : World} (hw : σ.Worlds s a c) :
    σ.run a.scopes.tasks.size = c.scopes.tasks.size := by
  rw [hw.runs_size, Shift.run, if_neg (Nat.not_lt.mpr hw.runs_le)]

/-- Declaring a task for a run follows as declaring the moved task for the moved run. -/
theorem declareIn_follows (run : RunId) (task : Value) :
    Follows role σ id (declareIn run task) (declareIn (σ.run run) (σ.value task)) := by
  refine .of_step fun {s a c} hw => ⟨?_, ?_, ?_⟩
  · exact { Grows.refl a with
      strays_le := Nat.le_of_eq (strays_append a rfl).symm
      isOpen := fun other _ => Scopes.isOpen_register _ _ _ _ }
  · have htaken : (c.scopes.register (σ.run run) (σ.value task)).1 =
        (a.scopes.register run task).1 := by
      rw [Scopes.register_fst, Scopes.register_fst, hw.isOpen]
    exact congrArg Except.ok htaken
  · exact worlds_register hw run task _ _

/-! ### Offering a task to the current run -/

/-- The run that is current in the other world, where no enclosing run matters. -/
theorem current?_of_free {outer : Option RunId} {a c : World} (hw : σ.Worlds (.free outer) a c) :
    c.scopes.current? c.binding = (a.scopes.current? a.binding).map σ.run := by
  rw [hw.binding]
  unfold Scopes.current?
  cases a.binding with
  | none =>
    cases outer with
    | none => rfl
    | some id => exact if_neg (by rw [(hw.outer id rfl).2]; exact Bool.false_ne_true)
  | some id =>
    simp only [Shift.binding, Option.bind_some, hw.isOpen]
    split <;> rfl

/-- Offering a task registers it for the current run and says which one this is. -/
theorem run_offer (task : Value) (w : World) :
    ExceptT.run (offer task) w =
      (.ok (w.scopes.current? w.binding),
        { w with
          scopes := (w.scopes.registerCurrent w.binding task).2
          history := w.history ++ [.offered w.binding task (w.heap.heldName? task)
            (w.scopes.registerCurrent w.binding task).1] }) := rfl

/-- Two worlds correspond after a task was offered, if their current runs do. -/
theorem worlds_registerCurrent {s : Surroundings} {a c : World} (hw : σ.Worlds s a c)
    (hcurrent : c.scopes.current? c.binding = (a.scopes.current? a.binding).map σ.run)
    (task : Value) (history history' : List Mark) :
    σ.Worlds s
      { a with scopes := (a.scopes.registerCurrent a.binding task).2, history := history }
      { c with
        scopes := (c.scopes.registerCurrent c.binding (σ.value task)).2, history := history' } := by
  unfold Scopes.registerCurrent
  rw [hcurrent]
  cases a.scopes.current? a.binding with
  | none => exact { hw with keeps := hw.keeps.of_eq rfl rfl rfl }
  | some run => exact worlds_register hw run task history history'

/-- Offering a task opens and closes no scope. -/
theorem isOpen_registerCurrent (s : Scopes Value) (binding : Option RunId) (task : Value)
    (other : RunId) : (s.registerCurrent binding task).2.isOpen other = s.isOpen other := by
  unfold Scopes.registerCurrent
  split
  · exact Scopes.isOpen_register _ _ _ _
  · rfl

/-- Offering a task follows as offering the moved task. -/
theorem offer_follows (task : Value) :
    Follows role σ (Option.map σ.run) (offer task) (offer (σ.value task)) := by
  constructor
  · intro outer a c hw
    have hcurrent := current?_of_free hw
    rw [run_offer, run_offer]
    refine ⟨{ Grows.refl a with
      strays_le := ?_
      isOpen := fun other _ => isOpen_registerCurrent _ _ _ _ }, congrArg Except.ok hcurrent,
      worlds_registerCurrent hw hcurrent task _ _⟩
    show a.history.countP _ ≤ (a.history ++ _).countP _
    rw [List.countP_append]
    exact Nat.le_add_right _ _
  · intro _ outer a c hw hstrays
    rw [run_offer] at hstrays
    rw [run_offer, run_offer]
    cases hbinding : a.binding with
    | none =>
      -- the task went astray
      have hmore : (a.history ++ [Mark.offered a.binding task (a.heap.heldName? task)
          (a.scopes.registerCurrent a.binding task).1]).countP Mark.isStray = a.strays := hstrays
      rw [List.countP_append, List.countP_singleton, hbinding] at hmore
      exact absurd hmore (Nat.succ_ne_self _)
    | some run =>
      have hcurrent : c.scopes.current? c.binding = (a.scopes.current? a.binding).map σ.run := by
        rw [hw.binding, hbinding]
        simp only [Shift.binding, Scopes.current?, Option.bind_some, hw.isOpen]
        split <;> rfl
      rw [← hbinding]
      exact ⟨congrArg Except.ok hcurrent, worlds_registerCurrent hw hcurrent task _ _⟩

/-! ### Beginning and ending a scope -/

/-- Beginning a scope follows. -/
theorem beginScope_follows (script : Text) :
    Follows role σ σ.run (beginScope script) (beginScope script) := by
  refine .of_step fun {s a c} hw => ?_
  have hrun : σ.run a.scopes.tasks.size = c.scopes.tasks.size := run_size hw
  -- the new scope is the last one of both worlds, and the shift takes the one to the other
  have hnew (id : RunId) : σ.run id = c.scopes.tasks.size ↔ id = a.scopes.tasks.size := by
    rw [← hrun, σ.run_inj]
  refine ⟨{ Grows.refl a with
    strays_le := Nat.le_of_eq (strays_append a rfl).symm
    isOpen := fun id hid => Scopes.isOpen_start _ (Nat.lt_of_lt_of_le hid hw.runs_le) }, ?_, ?_⟩
  · exact congrArg Except.ok hrun.symm
  · refine { hw with
      runs_size := ?_, runs_le := ?_, isOpen := fun id => ?_, tasks := fun id hid => ?_
      outer := fun id hid => ?_, keeps := hw.keeps.of_eq rfl rfl rfl }
    · show c.scopes.start.2.tasks.size = a.scopes.start.2.tasks.size + _
      rw [Scopes.size_start, Scopes.size_start, hw.runs_size, Nat.add_right_comm]
    · show σ.runs ≤ a.scopes.start.2.tasks.size
      rw [Scopes.size_start]
      exact Nat.le_succ_of_le hw.runs_le
    · -- the new scope is open on both sides, and the others are as before
      show (c.scopes.start.2.open? _).isSome = (a.scopes.start.2.open? _).isSome
      rw [Scopes.open?_start, Scopes.open?_start]
      by_cases h : id = a.scopes.tasks.size
      · rw [if_pos h, if_pos ((hnew id).mpr h)]
      · rw [if_neg h, if_neg fun h' => h ((hnew id).mp h')]
        exact hw.isOpen id
    · show c.scopes.start.2.open? _ = (a.scopes.start.2.open? _).map _
      rw [Scopes.open?_start, Scopes.open?_start]
      by_cases h : id = a.scopes.tasks.size
      · rw [if_pos h, if_pos ((hnew id).mpr h)]
        rfl
      · rw [if_neg h, if_neg fun h' => h ((hnew id).mp h')]
        exact hw.tasks id hid
    · obtain ⟨hlt, hclosed⟩ := hw.outer id hid
      refine ⟨?_, ?_⟩
      · show id < c.scopes.start.2.tasks.size
        rw [Scopes.size_start]
        exact Nat.lt_succ_of_lt hlt
      · exact (Scopes.isOpen_start _ hlt).trans hclosed

/-- The new run is a later one. -/
theorem beginScope_bind_follows {f : α → β} {script : Text} {k : RunId → Action α}
    {k' : RunId → Action β}
    (hk : ∀ run, σ.runs ≤ run → Follows role σ f (k run) (k' (σ.run run))) :
    Follows role σ f (beginScope script >>= k) (beginScope script >>= k') where
  free := by
    intro outer a c hw
    have hbegin := (beginScope_follows script : Follows role σ _ _ _).free hw
    have hrest := (hk a.scopes.tasks.size hw.runs_le).free hbegin.2.2
    rw [run_bind_ok (pair_eq hbegin.2.1)]
    exact ⟨hbegin.1.trans hrest.1, hrest.2⟩
  within := by
    intro hrole outer a c hw hstrays
    have hbegin := (beginScope_follows script : Follows role σ _ _ _).within hrole hw
      (strays_append a rfl)
    rw [run_bind_ok (pair_eq hbegin.1)]
    exact (hk a.scopes.tasks.size hw.runs_le).within hrole hbegin.2
      (hstrays.trans (strays_append a rfl).symm)

/-- Two worlds correspond after a run was ended in one and the moved run in the other. -/
theorem worlds_endRun {s : Surroundings} {a c : World} (hw : σ.Worlds s a c) (run : RunId)
    (script : Text) (well well' : Bool) :
    σ.Worlds s (a.endRun run script well) (c.endRun (σ.run run) script well') := by
  refine worlds_of_scopes hw _ _ (a.scopes.size_finish run) (c.scopes.size_finish _)
    (fun id => ?_) (fun id hid => ?_) (fun id hclosed => ?_)
  · show (c.scopes.finish _).2.isOpen _ = (a.scopes.finish _).2.isOpen _
    rw [Scopes.isOpen_finish, Scopes.isOpen_finish, hw.isOpen]
    simp only [σ.run_inj]
  · show (c.scopes.finish _).2.open? _ = ((a.scopes.finish _).2.open? _).map _
    rw [Scopes.open?_finish, Scopes.open?_finish, hw.tasks id hid]
    simp only [σ.run_inj]
    split <;> rfl
  · show (c.scopes.finish _).2.isOpen _ = false
    rw [Scopes.isOpen_finish, hclosed, ite_self]

/-- An action that ends the scope of a new run follows if the action does, and the tasks are the
moved ones. -/
theorem endingScope_follows {f : α → β} {run : RunId} (hrun : σ.runs ≤ run) (script : Text)
    {act : Action α} {act' : Action β} (h : Follows role σ f act act') :
    Follows role σ (Prod.map f (List.map σ.value)) (endingScope run script act)
      (endingScope (σ.run run) script act') := by
  -- both hand over the tasks of the scope, which are those of the other world moved
  have hresult {s : Surroundings} {a c : World} (hw : σ.Worlds s a c) (r : Except Value α) :
      (moved σ f r).map (fun x => (x, (c.scopes.finish (σ.run run)).1)) =
        moved σ (Prod.map f (List.map σ.value)) (r.map fun x => (x, (a.scopes.finish run).1)) := by
    cases r with
    | error v => rfl
    | ok x =>
      have htasks : (c.scopes.finish (σ.run run)).1 = (a.scopes.finish run).1.map σ.value := by
        rw [Scopes.finish_fst, Scopes.finish_fst, hw.tasks run hrun]
        cases a.scopes.open? run <;> rfl
      exact congrArg (fun tasks => Except.ok (f x, tasks)) htasks
  have hstrays (a : World) (well : Bool) : (a.endRun run script well).strays = a.strays :=
    strays_append a rfl
  constructor
  · intro outer a c hw
    obtain ⟨hgrows, hres, hw'⟩ := h.free hw
    rw [run_endingScope, run_endingScope, hres]
    refine ⟨{ hgrows with
      strays_le := Nat.le_trans hgrows.strays_le (Nat.le_of_eq (hstrays _ _).symm)
      isOpen := fun id hid => ?_ }, hresult hw' _, worlds_endRun hw' run script _ _⟩
    refine (Scopes.isOpen_finish _ _ _).trans ?_
    rw [if_neg (Nat.ne_of_lt (Nat.lt_of_lt_of_le hid hrun))]
    exact hgrows.isOpen id hid
  · intro hrole outer a c hw hclean
    rw [run_endingScope] at hclean
    obtain ⟨hres, hw'⟩ := h.within hrole hw ((hstrays _ _).symm.trans hclean)
    rw [run_endingScope, run_endingScope, hres]
    exact ⟨hresult hw' _, worlds_endRun hw' run script _ _⟩

/-! ### What is told of a scope -/

/-- The number of tasks that a run discards goes nowhere but into what is logged. -/
theorem countDiscarded_bind_follows {f : α → β} (run : RunId) {k : Nat → Action α}
    {k' : Nat → Action β} (hk : ∀ n n', Follows role σ f (k n) (k' n')) :
    Follows role σ f (countDiscarded run >>= k) (countDiscarded (σ.run run) >>= k') := by
  have hcounted {s : Surroundings} {a c : World} (hw : σ.Worlds s a c)
    (history history' : List Mark) :
      σ.Worlds s { a with history := history } { c with history := history' } :=
    { hw with keeps := hw.keeps.of_eq rfl rfl rfl }
  constructor
  · intro outer a c hw
    obtain ⟨hgrows, halike⟩ := (hk (a.scopes.size run) (c.scopes.size (σ.run run))).free
      (hcounted hw (a.history ++ [.counted run (a.scopes.size run)])
        (c.history ++ [.counted (σ.run run) (c.scopes.size (σ.run run))]))
    rw [run_bind_ok (run_countDiscarded a run), run_bind_ok (run_countDiscarded c _)]
    refine ⟨{ hgrows with strays_le := ?_ }, halike⟩
    exact Nat.le_trans (Nat.le_of_eq (strays_append a rfl).symm) hgrows.strays_le
  · intro hrole outer a c hw hstrays
    rw [run_bind_ok (run_countDiscarded a run)] at hstrays ⊢
    rw [run_bind_ok (run_countDiscarded c _)]
    exact (hk _ _).within hrole (hcounted hw _ _) (hstrays.trans (strays_append a rfl).symm)

/-- The size of a scope goes nowhere but into a notice. -/
theorem noteMoment_follows (moment : Text) (subject subject' : Portrait) (run : RunId)
    (more more' : List Portrait) :
    Follows role σ id (noteMoment moment subject run more)
      (noteMoment moment subject' (σ.run run) more') :=
  .get fun _ => note_follows _ _

/-- What looks at the size of a scope only to note it follows. -/
theorem noteSize_follows {f : α → β} (run : RunId) {k : Portrait → Action α}
    {k' : Portrait → Action β} (hk : ∀ p p', Follows role σ f (k p) (k' p')) :
    Follows role σ f (sizePortrait run >>= k) (sizePortrait (σ.run run) >>= k') :=
  .get fun _ => hk _ _

/-! ## Registered builders -/

/-- Keeping a builder for a class follows. -/
theorem enroll_follows (type builder : Value) :
    Follows role σ id (enroll type builder) (enroll (σ.value type) (σ.value builder)) := by
  refine .of_step fun {s a c} hw => ⟨?_, ?_, ?_⟩
  · exact { Grows.refl a with strays_le := Nat.le_of_eq (strays_append a rfl).symm }
  · exact congrArg Except.ok (hw.heaps.accepts type builder)
  · refine { hw with mappings := ?_, keeps := hw.keeps.of_eq rfl rfl rfl }
    show (if c.heap.accepts (σ.value type) (σ.value builder) then c.mappings.put _ _ else c.mappings) =
      (if a.heap.accepts type builder then a.mappings.put type builder else a.mappings).map _
    rw [hw.heaps.accepts, hw.mappings]
    cases a.heap.accepts type builder with
    | true => exact σ.put_mappings a.mappings type builder
    | false => rfl

end Action

end EvalPlan

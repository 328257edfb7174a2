import EvalPlan.Proofs.Deeds
import EvalPlan.Proofs.Keys
import EvalPlan.Proofs.Rules

/-!
# Schedules and their histories

What a schedule writes into its history fits, and leads to the scopes and fibers that the schedule
has (`runEach_accounts`). So every schedule, which is carried out by the rules, tracks its scopes
(`tracksScopes`).
-/

namespace EvalPlan.Schedule

variable {ε : Type} {b c : Bindings} {s t u : State ε} {e : Exec ε}

/-! ## The account of a state -/

/-- The context that bindings make. -/
def Bindings.context (b : Bindings) : Context := fun tracker => Table.get? b tracker

theorem Bindings.context_bind (b : Bindings) (tracker : Text) (scope : Nat) :
    (b.bind tracker scope).context = b.context.bind tracker scope := by
  funext other
  refine (Table.get?_putRow b (tracker, scope) other).trans ?_
  by_cases h : tracker = other <;> simp [context, Context.bind, h]

/-- The contexts of fibers; nothing is bound for a fiber that was not spawned. -/
def fiberContexts (fibers : Table Text (Fiber ε)) (name : Text) : Context :=
  ((fibers.get? name).map (·.bindings.context)).getD .empty

theorem fiberContexts_put (fibers : Table Text (Fiber ε)) (name : Text) (fiber : Fiber ε) :
    fiberContexts (fibers.put name fiber) =
      fun other => if name = other then fiber.bindings.context else fiberContexts fibers other := by
  funext other
  rw [fiberContexts, Table.get?_putRow fibers (name, fiber) other]
  by_cases h : name = other <;> simp [fiberContexts, h]

theorem fiberContexts_of_get? {fibers : Table Text (Fiber ε)} {name : Text} {fiber : Fiber ε}
    (h : fibers.get? name = some fiber) : fiberContexts fibers name = fiber.bindings.context := by
  simp [fiberContexts, h]

/-- A fiber that has fewer segments left keeps its bindings. -/
theorem fiberContexts_resume {fibers : Table Text (Fiber ε)} {name : Text} {fiber : Fiber ε}
    (h : fibers.get? name = some fiber) (segments : List (List (Step ε))) :
    fiberContexts (fibers.put name ⟨fiber.bindings, segments⟩) = fiberContexts fibers := by
  rw [fiberContexts_put]
  funext other
  split
  next hname => rw [← hname, fiberContexts_of_get? h]
  next => rfl

/-- The account of a state where steps are being carried out with bindings, the innermost first. -/
def State.account (s : State ε) (stack : List Bindings) : Account :=
  ⟨s.scopes, stack.map Bindings.context, fiberContexts s.fibers⟩

/-! ## Accounting -/

/-- Steps that are carried out with bindings lead from one state to another, and the history tells
of it: what they did fits, whatever is being carried out around them. -/
def Accounts (b : Bindings) (s t : State ε) : Prop :=
  ∃ ds, t.history = s.history ++ ds ∧ ∀ around,
    (s.account (b :: around)).Fitting ds ∧
      (s.account (b :: around)).replay ds = t.account (b :: around)

namespace Accounts

theorem refl (b : Bindings) (s : State ε) : Accounts b s s :=
  ⟨[], by simp, fun _ => ⟨trivial, rfl⟩⟩

theorem trans (h : Accounts b s t) (h' : Accounts b t u) : Accounts b s u := by
  obtain ⟨ds, hds, hfits⟩ := h
  obtain ⟨ds', hds', hfits'⟩ := h'
  refine ⟨ds ++ ds', by rw [hds', hds, List.append_assoc], fun around => ?_⟩
  rw [Account.fitting_append, Account.replay_append, (hfits around).2]
  exact ⟨⟨(hfits around).1, (hfits' around).1⟩, (hfits' around).2⟩

/-- One deed. -/
theorem of_deed {d : Deed} (hd : t.history = s.history ++ [d])
    (hfits : ∀ around, (s.account (b :: around)).Fits d)
    (hafter : ∀ around, (s.account (b :: around)).after d = t.account (b :: around)) :
    Accounts b s t :=
  ⟨[d], hd, fun around => ⟨⟨hfits around, trivial⟩, hafter around⟩⟩

/-- Steps that a deed opens with bindings of their own; after them the bindings around them hold
again. -/
theorem within {d : Deed} (hd : t.history = s.history ++ [d])
    (hfits : ∀ around, (s.account (b :: around)).Fits d)
    (hafter : ∀ around, (s.account (b :: around)).after d = t.account (c :: b :: around))
    (h : Accounts c t u) : Accounts b s (u.did .left) := by
  obtain ⟨ds, hds, hinner⟩ := h
  refine ⟨d :: (ds ++ [.left]), ?_, fun around => ?_⟩
  · show u.history ++ [.left] = _
    rw [hds, hd]
    simp
  · obtain ⟨hfits', hreplay⟩ := hinner (b :: around)
    rw [Account.Fitting, Account.replay_cons, hafter around, Account.fitting_append,
      Account.replay_append, hreplay]
    exact ⟨⟨hfits around, hfits', trivial, trivial⟩, rfl⟩

end Accounts

theorem runSteps_accounts (he : ∀ b step s, Accounts b s (e b step s).2) (b : Bindings)
    (steps : List (Step ε)) (s : State ε) : Accounts b s (runSteps e b steps s).2 := by
  induction steps generalizing s with
  | nil => exact .refl b s
  | cons step rest ih =>
    obtain ⟨thrown, -, hthrown⟩ | ⟨-, hcons⟩ := runSteps_cons e b step rest s
    · rw [hthrown]
      exact .refl b s
    · rw [hcons]
      exact (he b step s).trans (ih _)

theorem execStep_accounts (he : ∀ b step s, Accounts b s (e b step s).2) (b : Bindings)
    (step : Step ε) (s : State ε) : Accounts b s (execStep e b step s).2 := by
  cases step with
  | start name => exact .of_deed rfl (fun _ => rfl) fun _ => rfl
  | register name task =>
    exact .of_deed rfl (fun _ => s.scopes.register_fst _ task) fun _ => rfl
  | registerCurrent tracker task =>
    exact .of_deed rfl (fun _ => ⟨rfl, s.scopes.registerCurrent_fst _ task⟩) fun _ => rfl
  | finish name => exact .of_deed rfl (fun _ => rfl) fun _ => rfl
  | current tracker =>
    simp only [execStep]
    split <;> exact .refl b s
  | run tracker name steps =>
    refine .within (d := .entered tracker (s.scope name)) rfl (fun _ => trivial) (fun around => ?_)
      (runSteps_accounts he _ steps _)
    show Account.mk _ ⟨_ :: _, _⟩ = Account.mk _ ⟨_ :: _, _⟩
    rw [Bindings.context_bind]
    rfl
  | spawn tracker name scope segments =>
    refine .of_deed rfl (fun _ => trivial) fun around => ?_
    show _ = Account.mk s.scopes ⟨_, fiberContexts (s.fibers.put name _)⟩
    rw [fiberContexts_put]
    cases scope with
    | none => rfl
    | some scope =>
      simp only [Option.map_some, Bindings.context_bind]
      rfl
  -- the segment runs in the context that the fibre was spawned in, not in the one that it is
  -- resumed from
  | resume name =>
    simp only [execStep]
    split
    · exact .refl b s
    · exact .refl b s
    next bound segment rest hfiber =>
      refine .within (d := .resumed name) rfl (fun _ => trivial) (fun around => ?_)
        (runSteps_accounts he _ segment _)
      show Account.mk s.scopes ⟨fiberContexts s.fibers name :: _, _⟩ =
        Account.mk s.scopes ⟨_, fiberContexts (s.fibers.put name ⟨bound, rest⟩)⟩
      rw [fiberContexts_resume hfiber, fiberContexts_of_get? hfiber]
      rfl
  | _ => exact .refl b s

theorem exec_accounts (n : Nat) (b : Bindings) (step : Step ε) (s : State ε) :
    Accounts b s (exec n b step s).2 := by
  induction n generalizing b step s with
  | zero => exact .refl b s
  | succ n ih => exact execStep_accounts ih b step s

theorem runEach_accounts (n : Nat) (steps : List (Step ε)) (s : State ε) :
    Accounts [] s (runEach n steps s).2 := by
  induction steps generalizing s with
  | nil => exact .refl [] s
  | cons step rest ih => exact (exec_accounts n [] step s).trans (ih _)

/-- What a schedule writes into its history tracks its scopes. -/
theorem runEach_tracked (n : Nat) (steps : List (Step ε)) :
    Tracked (runEach n steps .initial).2.history (runEach n steps .initial).2.scopes := by
  obtain ⟨ds, hds, hfits⟩ := runEach_accounts n steps (.initial : State ε)
  -- nothing is carried out around a schedule
  obtain ⟨hfitting, hreplay⟩ := hfits []
  have hhistory : (runEach n steps (.initial : State ε)).2.history = ds := hds
  have hscopes : (Account.initial.replay ds).scopes =
      (runEach n steps (.initial : State ε)).2.scopes := congrArg Account.scopes hreplay
  rw [hhistory, ← hscopes]
  exact Account.Fitting.tracked hfitting

/-! ## Tracking -/

/-- How schedules track scopes. -/
structure TracksScopes (ε : Type) : Prop where
  /-- A schedule is carried out by the rules. -/
  done : ∀ steps : List (Step ε),
    DoneEach steps .initial (carryOut steps .initial).1 (carryOut steps .initial).2
  /-- Its history tracks its scopes. -/
  tracked : ∀ steps : List (Step ε),
    Tracked (carryOut steps .initial).2.history (carryOut steps .initial).2.scopes

/-- Schedules track scopes, in whatever order their steps are carried out. -/
theorem tracksScopes : TracksScopes ε where
  done _ := runEach_done (Nat.le_refl _)
  tracked _ := runEach_tracked _ _

-- The fiber outlives the scope that it was spawned in, and the scope around that one is still open.
example : (runAll [.start "outer", .start "inner",
      .run "t" "outer" [.spawn "t" "late" (some "inner") [[.registerCurrent "t" "a"]],
        .registerCurrent "t" "b"],
      .finish "inner", .resume "late", .finish "outer"] (.initial : State Unit)).drop 3 =
    [.ok (.tasks []), .ok (.steps [.ok (.truth false)]), .ok (.tasks ["b"])] := rfl

end EvalPlan.Schedule

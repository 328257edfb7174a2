import EvalPlan.Domain
import EvalPlan.Proofs.Nesting

/-!
# What nested failures leave

A script throws a value that it does not handle, and neither do the scripts around it that run each
other. `nestedFailure` says what comes of this where the engine's parts are as they were made when
the value has been described: which error is thrown, what is announced and to whom, and that the
runs have ended and what was current before is current again. A script that handles the failure goes
on in its own run, whose tasks are still there.
-/

namespace EvalPlan

open EvalPlan.Action

/-- What is left when scripts that run each other have failed, since the innermost threw a value
that the message describes; the first world is the one in which the value has been described. -/
structure NestedFailure (host : Host) (v : Value) (message : Text) (x : World) (first : Launch)
    (inner : List Launch) (e : Ref) (w : World) : Prop where
  /-- Following the causes of the error passes through one configuration error for each script, the
  outermost first, and reaches the value. -/
  causes : w.heap.Traces v (Launch.failureMessages message (first :: inner)) (.ref e)
  /-- The failure of each script is announced once, with its own message. -/
  announced : ∃ ms, w.history = first.world.history ++ ms ∧ ∀ l more, l :: more <:+ first :: inner →
    ms.filterMap (Mark.failureOf l.run) = [Launch.failureMessage message (l :: more)]
  /-- Since the value has been described, one event for each script is told to all its subscribers,
  the innermost first, and nothing else is told. -/
  told : ∃ ms, w.history = x.history ++ ms ∧ ms.filter Mark.isTold =
    (Launch.failureEvents x.clock message (first :: inner)).flatMap fun event =>
      (audience x event).flatMap (Subscriber.hears event)
  /-- The scripts have different runs. -/
  distinct : (first :: inner).Pairwise fun l l' => l.run < l'.run
  /-- All of them have ended. -/
  ended : ∀ l ∈ first :: inner, w.scopes.isOpen l.run = false
  /-- The run is bound that was bound before. -/
  bound : w.binding = first.world.binding
  /-- So what was current is current again. -/
  current : (∀ r, first.world.binding = some r → r < first.run) →
    w.scopes.current? w.binding = first.world.scopes.current? first.world.binding
  /-- A script that ran the outermost one where it handles failures goes on with the error in its
  own run: no scope that was open is closed, and each holds the tasks that it held before what was
  declared for its run meanwhile. -/
  caught : ∀ ev scene body name handler w₀, Launches host first (Evaluator.innerBlock ev scene body)
    w₀ →
    ∃ joining ms, ExceptT.run (Evaluator.evalStmt ev scene (.attempt body name handler)) w₀ =
        ExceptT.run (do
          let caught ← openFrame scene [(name, some (.ref e))]
          Evaluator.innerBlock ev caught handler) { w with joining } ∧
      w.binding = w₀.binding ∧ w.history = w₀.history ++ ms ∧
      ∀ r tasks, w₀.scopes.open? r = some tasks →
        w.scopes.open? r = some (tasks ++ ms.filterMap (Mark.taskFor r))

namespace Chain

variable {host : Host} {v : Value} {message : Text} {x : World}

theorem pairwise_run {first : Launch} {inner : List Launch}
    (chain : Chain host v message x first inner) :
    (first :: inner).Pairwise fun l l' => l.run < l'.run := by
  induction chain with
  | innermost => exact List.pairwise_singleton _ _
  | outer opens launches chain ih =>
    exact List.pairwise_cons.mpr ⟨(Chain.outer opens launches chain).run_lt, ih⟩

end Chain

/-- A block that handles failures catches what a script throws that it runs. -/
theorem Launches.attempt {host : Host} {l : Launch} {ev : Evaluator} {scene : Script.Scene}
    {body : List Script.Stmt} {w w₁ : World} {u : Value}
    (launches : Launches host l (Evaluator.innerBlock ev scene body) w)
    (failed : l.outcome host = (.error u, w₁)) (name : Text) (handler : List Script.Stmt) :
    ∃ joining, ExceptT.run (Evaluator.evalStmt ev scene (.attempt body name handler)) w =
      ExceptT.run (do
        let caught ← openFrame scene [(name, some u)]
        Evaluator.innerBlock ev caught handler) { w₁ with joining } := by
  obtain ⟨joining, thrown⟩ := launches.fails failed
  refine ⟨joining, ?_⟩
  unfold Evaluator.evalStmt
  rw [run_tryCatch, thrown]

/-- Scripts that run each other fail from the innermost outwards: the outermost one throws an error
from which the causes lead through one error for each of them to the value that was thrown, and each
failure is announced once. -/
theorem nestedFailure (logger bus : Logger) (imports : List Text) {v : Value} {message : Text}
    {x : World} {first : Launch} {inner : List Launch}
    (chain : Chain (Host.engine logger bus imports) v message x first inner) (tame : x.Tame) :
    ∃ e w, first.outcome (Host.engine logger bus imports) = (.error (.ref e), w) ∧
      NestedFailure (Host.engine logger bus imports) v message x first inner e w := by
  obtain ⟨e, w, u, failed, unwound, -⟩ := chain.unwinds rfl rfl tame
  have law := recorded_law (Host.engine logger bus imports)
  have recorded : Recorded none first.world w :=
    (executeScript_keeps law (Launch.obeys law first) first.script).of_run failed
  refine ⟨e, w, failed,
    { causes := unwound.causes
      announced := unwound.announced
      told := unwound.told
      distinct := chain.pairwise_run
      ended := unwound.ended
      bound := recorded.1
      current := recorded.current?_eq
      caught := fun ev scene body name handler w₀ launches => ?_ }⟩
  -- until the outermost script was carried out only the engine did anything
  have since : Recorded none w₀ w := law.trans (launches.keeps law) recorded
  obtain ⟨joining, handled⟩ := launches.attempt failed name handler
  obtain ⟨ms, history, tasks⟩ := since.open?_eq
  exact ⟨joining, ms, handled, since.1, history, tasks⟩

/-- Three scripts of an engine that records its log, to whose events somebody listens. -/
def outermost : Launch :=
  ⟨8, ⟨"plan", throwingWithin "no" 2, none⟩, World.listening Domain.objects⟩

theorem nestedFailure_three :
    ∃ inner x e w, inner.map (·.script.name) = [Text.ofString "inner", "inner"] ∧
      Chain (Host.engine Logger.recording Logger.recording []) (.text "no") "no" x outermost inner ∧
      x.Tame ∧
      outermost.outcome (Host.engine Logger.recording Logger.recording []) = (.error (.ref e), w) ∧
      w.heap.text? (.ref e) "message" = some ("error running configuration script plan: " ++
        ("error running configuration script inner: " ++
          ("error running configuration script inner: " ++ Text.ofString "no"))) ∧
      NestedFailure (Host.engine Logger.recording Logger.recording []) (.text "no") "no" x
        outermost inner e w := by
  obtain ⟨inner, x, names, tame, chain⟩ := exists_chain
    (Host.engine Logger.recording Logger.recording []) rfl rfl "no" "plan" 2
    (World.ready_listening Domain.holdsName_objects)
  obtain ⟨e, w, failed, nested⟩ := nestedFailure Logger.recording Logger.recording [] chain tame
  refine ⟨inner, x, e, w, names, chain, tame, failed, ?_, nested⟩
  obtain ⟨l, l', rfl⟩ : ∃ l l', inner = [l, l'] :=
    List.length_eq_two.mp ((List.length_map _).symm.trans (congrArg List.length names))
  obtain ⟨name, name'⟩ : l.script.name = Text.ofString "inner" ∧
    l'.script.name = Text.ofString "inner" := by
    simpa using names
  have causes := nested.causes
  simp only [Launch.failureMessages, Launch.failureMessage, name, name'] at causes
  cases causes with
  | caused _ text _ _ => exact text

end EvalPlan

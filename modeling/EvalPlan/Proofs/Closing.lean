import EvalPlan.Domain
import EvalPlan.Proofs.Isolation
import EvalPlan.Proofs.Quiet

/-!
# When the scope of a run is closed

A scope is begun before the listener is told that the run begins and before this is logged. From
there on it is ended however the run comes out: the script may throw, reporting this may throw, and
so may telling that the run ended well. A run that opens closes its scope, therefore, and nothing is
taken by it afterwards. A run that does not open leaves its scope open for good
(`failingListener_leaks`). `evaluator_closesScopes` says so of every run.
-/

namespace EvalPlan

open EvalPlan.Action

/-! ## Scopes in the worlds that an engine leads to -/

namespace Recorded

variable {run : Option RunId} {w w' : World}

/-- No scope is ever taken back. -/
theorem size_le (h : Recorded run w w') : w.scopes.tasks.size ≤ w'.scopes.tasks.size := by
  obtain ⟨-, ms, -, replays⟩ := h
  exact (replays [] run.toList fun r hr => by rw [hr]; rfl).size_le

/-- A scope that was begun and is closed takes nothing anymore. -/
theorem isOpen_of_closed (h : Recorded none w w') {id : RunId} (begun : id < w.scopes.tasks.size)
    (closed : w.scopes.isOpen id = false) : w'.scopes.isOpen id = false := by
  obtain ⟨-, ms, -, replays⟩ := h
  have ended : w.scopes.open? id = none := by
    rwa [Scopes.isOpen, Option.isSome_eq_false_iff, Option.isNone_iff_eq_none] at closed
  have stays : w'.scopes.open? id = none := (replays [] [] (by rintro r ⟨⟩)).closed begun ended
  rw [Scopes.isOpen, stays]
  rfl

/-- A scope that is open stays open, since only the end of its own run closes it. -/
theorem isOpen_of_open (h : Recorded none w w') {id : RunId} (isOpen : w.scopes.isOpen id = true) :
    w'.scopes.isOpen id = true := by
  obtain ⟨tasks, held⟩ := w.scopes.isOpen_iff.mp isOpen
  obtain ⟨ms, -, stays⟩ := h.open?_eq
  exact w'.scopes.isOpen_iff.mpr ⟨_, stays id tasks held⟩

end Recorded

section scope

variable (w : World) (script : Text)

theorem isOpen_beginRun : (w.beginRun script).scopes.isOpen w.scopes.tasks.size = true := by
  show w.scopes.start.2.isOpen w.scopes.tasks.size = true
  rw [Scopes.isOpen, Scopes.open?_start, if_pos rfl]
  rfl

theorem size_beginRun : (w.beginRun script).scopes.tasks.size = w.scopes.tasks.size + 1 :=
  w.scopes.size_start

theorem isOpen_endRun (id : RunId) (well : Bool) :
    (w.endRun id script well).scopes.isOpen id = false := by
  show (w.scopes.finish id).2.isOpen id = false
  rw [Scopes.isOpen, Scopes.open?_finish, if_pos rfl]
  rfl

theorem size_endRun (id : RunId) (well : Bool) :
    (w.endRun id script well).scopes.tasks.size = w.scopes.tasks.size :=
  w.scopes.size_finish id

/-- What a scope answers that is offered a task. -/
theorem run_declareIn_fst (id : RunId) (task : Value) :
    (ExceptT.run (declareIn id task) w).1 = .ok (w.scopes.isOpen id) :=
  congrArg Except.ok (w.scopes.register_fst id task)

end scope

/-! ## Opening a run -/

/-- A run of a script that begins in the world opens: the listener is told and the log is written to
without anything being thrown. -/
def World.Opens (host : Host) (ev : Evaluator) (script : Text) (w : World) : Prop :=
  ∃ told logged,
    ExceptT.run (announceStarted host ev script w.scopes.tasks.size) (w.beginRun script) =
      (.ok ⟨⟩, told) ∧
    ExceptT.run (log ev host.loggers.runner .debug "Running script"
      [("script", Value.text script), ("runId", .run w.scopes.tasks.size)]) told = (.ok ⟨⟩, logged)

namespace World

variable {host : Host} {ev : Evaluator} {script : Text} {w : World}

theorem opens_iff : w.Opens host ev script ↔
    ∃ opened, ExceptT.run (openRun host ev script w.scopes.tasks.size) (w.beginRun script) =
      (.ok ⟨⟩, opened) := by
  unfold openRun
  rw [run_markingThrow]
  constructor
  · rintro ⟨told, logged, tells, logs⟩
    rw [run_bind_ok tells, logs]
    exact ⟨_, rfl⟩
  · rintro ⟨opened, opens⟩
    split at opens
    next heq =>
      obtain ⟨_, told, tells, logs⟩ := bind_eq_ok heq
      exact ⟨told, _, tells, logs⟩
    next => cases opens

theorem not_opens_iff : ¬ w.Opens host ev script ↔
    ∃ v left, ExceptT.run (openRun host ev script w.scopes.tasks.size) (w.beginRun script) =
      (.error v, left) := by
  rw [opens_iff]
  rcases ExceptT.run (openRun host ev script w.scopes.tasks.size)
    (w.beginRun script) with ⟨_ | _, _⟩
  · exact ⟨fun _ => ⟨_, _, rfl⟩, fun _ ⟨_, h⟩ => nomatch h⟩
  · exact ⟨fun h => (h ⟨_, rfl⟩).elim, fun ⟨_, _, h⟩ => nomatch h⟩

/-- A run that ends well opened. -/
theorem Opens.of_ok {script : CompiledScript} {e : Environment} {w' : World}
    (ends : ExceptT.run (executeScript host ev script) w = (.ok e, w')) :
    w.Opens host ev script.name := by
  obtain ⟨opened, _, opens, -⟩ := execute_ok ends
  exact opens_iff.mpr ⟨opened, opens⟩

/-- A listener that throws when it is told of a run keeps every run from opening. -/
theorem not_opens_of_fail {message : Text} (fails : host.listener.started = .fail message) :
    ¬ w.Opens host ev script := by
  rintro ⟨told, logged, tells, -⟩
  unfold announceStarted at tells
  rw [fails] at tells
  cases tells

/-- Where the listener only notes what it is told and the log works, every run opens. -/
theorem opens_of_note (notes : host.listener.started = .note)
    (works : host.loggers.runner.Works w.heap) : w.Opens host ev script := by
  obtain ⟨told, tells, heap⟩ : ∃ told,
      ExceptT.run (announceStarted host ev script w.scopes.tasks.size) (w.beginRun script) =
        (.ok ⟨⟩, told) ∧ told.heap = w.heap := by
    unfold announceStarted
    rw [notes]
    exact ⟨_, rfl, rfl⟩
  rw [← heap] at works
  exact ⟨told, _, tells, run_log_works ev works _ _ _⟩

end World

/-! ## Runs -/

section run

variable {host : Host} {ev : Evaluator} (hev : ev.Obeys (Recorded none)) {w : World}
  {script : CompiledScript}

include hev

/-- The scope of a run that opens is closed when the run is over, whatever throws within it, in
reporting that, or in telling that the run ended well. -/
theorem closed_of_opens (opens : w.Opens host ev script.name) {w' : World}
    (runs : (ExceptT.run (executeScript host ev script) w).2 = w') :
    w.scopes.tasks.size < w'.scopes.tasks.size ∧ w'.scopes.isOpen w.scopes.tasks.size = false := by
  obtain ⟨opened, opens⟩ := World.opens_iff.mp opens
  have begun : w.scopes.tasks.size < opened.scopes.tasks.size := by
    have grown := (recorded_runLaw.openRun_ok hev none opens).size_le
    rw [size_beginRun] at grown
    exact grown
  have body : Keeps (Recorded none) (runBody host ev script w.scopes.tasks.size) :=
    runBody_keeps (Recorded.steady none) hev script _
  have carried := recorded_runLaw.carryOut hev host script.name w.scopes.tasks.size body opened
  rw [executeScript, run_execute, opens] at runs
  dsimp only at runs
  split at runs
  next v left heq =>
    -- the script threw, and so did reporting it
    rw [heq] at carried
    subst runs
    refine ⟨?_, isOpen_endRun _ _ _ _⟩
    show _ < (left.endRun w.scopes.tasks.size script.name false).scopes.tasks.size
    rw [size_endRun]
    exact Nat.lt_of_lt_of_le begun carried.size_le
  next result left heq =>
    rw [heq] at carried
    have begun : w.scopes.tasks.size <
        (left.endRun w.scopes.tasks.size script.name true).scopes.tasks.size := by
      rw [size_endRun]
      exact Nat.lt_of_lt_of_le begun carried.size_le
    have told := announceCompleted_keeps (Recorded.steady none) hev observe_recorded host
      script.name w.scopes.tasks.size ⟨(left.scopes.finish w.scopes.tasks.size).1, result⟩
      (left.endRun w.scopes.tasks.size script.name true)
    -- the scope was closed before the listener is told, so that it does not matter if that throws
    have closed := told.isOpen_of_closed begun (isOpen_endRun _ _ _ _)
    have begun := Nat.lt_of_lt_of_le begun told.size_le
    split at runs
    next heq =>
      rw [heq] at begun closed
      subst runs
      exact ⟨begun, closed⟩
    next heq =>
      rw [heq] at begun closed
      subst runs
      exact ⟨begun, closed⟩

/-- A run that does not open throws, and nothing closes its scope. -/
theorem open_of_not_opens (fails : ¬ w.Opens host ev script.name) :
    (ExceptT.run (executeScript host ev script) w).1.toBool = false ∧
    (ExceptT.run (executeScript host ev script) w).2.scopes.isOpen w.scopes.tasks.size = true := by
  obtain ⟨v, left, fails⟩ := World.not_opens_iff.mp fails
  obtain ⟨given, before, rfl⟩ := recorded_runLaw.openRun_error hev none fails
  rw [executeScript, run_execute, fails]
  exact ⟨rfl, before.isOpen_of_open (isOpen_beginRun _ _)⟩

end run

/-! ## The theorem -/

/-- What becomes of the scopes of runs, of tasks that are offered to them later, and of the run that
is current around them, in the engine of a host whose scripts an evaluator carries out. -/
structure ClosesScopes (host : Host) (ev : Evaluator) : Prop where
  /-- When a run is over, well or not, its scope is closed exactly if the run opened. What throws in
  the script, in reporting that, or in telling that the run ended, makes no difference. -/
  closed_iff : ∀ w script,
    (ExceptT.run (executeScript host ev script) w).2.scopes.isOpen w.scopes.tasks.size = false ↔
      w.Opens host ev script.name
  /-- A run that ends well has closed its scope. -/
  closes : ∀ {w w' : World} {script e}, ExceptT.run (executeScript host ev script) w = (.ok e, w') →
    w'.scopes.isOpen w.scopes.tasks.size = false
  /-- A closed scope takes no task in any world that the engine leads to. -/
  refuses : ∀ {w : World} {script}, w.Opens host ev script.name → ∀ {later : World} (task : Value),
    Recorded none (ExceptT.run (executeScript host ev script) w).2 later →
      (ExceptT.run (declareIn w.scopes.tasks.size task) later).1 = .ok false
  /-- A scope that was not closed takes every task in each of these worlds. -/
  leaks : ∀ {w : World} {script}, ¬ w.Opens host ev script.name → ∀ {later : World} (task : Value),
    Recorded none (ExceptT.run (executeScript host ev script) w).2 later →
      (ExceptT.run (declareIn w.scopes.tasks.size task) later).1 = .ok true
  /-- The worlds that the engine leads to are those after scripts and requests of any kind. -/
  leads : ev.Obeys (Recorded none) ∧ ∀ w rs, Recorded none w (Request.session host ev w rs)
  /-- Every run opens where the listener only notes what it is told and the log works. -/
  opens : ∀ {w : World} {script : Text}, host.listener.started = .note →
    host.loggers.runner.Works w.heap → w.Opens host ev script
  /-- A listener that throws when it is told of a run keeps every run from opening. -/
  fails : ∀ {w : World} {script message : Text}, host.listener.started = .fail message →
    ¬ w.Opens host ev script
  /-- However a run comes out, the run that is bound around it is bound as before. -/
  rebinds : ∀ w script, (ExceptT.run (executeScript host ev script) w).2.binding = w.binding
  /-- So is the run that is current, if the run that is bound began. -/
  restores : ∀ w script, (∀ r, w.binding = some r → r < w.scopes.tasks.size) →
    (ExceptT.run (executeScript host ev script) w).2.scopes.current? w.binding =
      w.scopes.current? w.binding

/-- The scope of a run is closed on every way out of the run but one: if the listener or the log
throws as the run begins. -/
theorem evaluator_closesScopes (host : Host) (n : Nat) : ClosesScopes host (evaluator host n) := by
  have law := recorded_law host
  have hev := law.evaluator n
  have closed {w : World} {script : CompiledScript}
      (opens : w.Opens host (evaluator host n) script.name) :=
    closed_of_opens hev opens rfl
  exact
    { closed_iff := fun w script => by
        refine ⟨fun closed => ?_, fun opens => (closed opens).2⟩
        -- a run that is not opened leaves its scope open
        by_contra fails
        rw [(open_of_not_opens hev fails).2] at closed
        cases closed
      closes := fun ends => (closed_of_opens hev (.of_ok ends) (by rw [ends])).2
      refuses := fun opens _ _ leads => by
        rw [run_declareIn_fst, leads.isOpen_of_closed (closed opens).1 (closed opens).2]
      leaks := fun fails _ _ leads => by
        rw [run_declareIn_fst, leads.isOpen_of_open (open_of_not_opens hev fails).2]
      leads := ⟨hev, law.session hev⟩
      opens := World.opens_of_note
      fails := World.not_opens_of_fail
      rebinds := fun w script => (executeScript_keeps law hev script w).1
      restores := fun w script begun => by
        have kept := executeScript_keeps law hev script w
        rw [← kept.current?_eq begun, kept.1] }

/-! ## A listener that fails -/

/-- An engine whose listener throws when it is told of a run. -/
def failingHost : Host :=
  { Host.engine Logger.recording Logger.recording [] with
    listener := ⟨.fail "no", .absent, .absent, .absent⟩ }

/-- What is left there of a script that does nothing. -/
def failedOpening : Except Value Environment × World :=
  ExceptT.run (executeScript failingHost (evaluator failingHost 3) ⟨"plan", [], none⟩)
    (World.initial Domain.heap)

/-- The script throws what the listener threw, and the scope of its run is open and takes tasks. -/
theorem failingListener_leaks :
    failedOpening.1.toBool = false ∧ failedOpening.2.scopes.isOpen 0 = true ∧
    (ExceptT.run (declareIn 0 (.text "late")) failedOpening.2).1.toOption = some true ∧
    (ExceptT.run (declareIn 0 (.text "late")) failedOpening.2).2.scopes.size 0 = 1 := by
  refine ⟨by decide +kernel, by decide +kernel, by decide +kernel, by decide +kernel⟩

end EvalPlan

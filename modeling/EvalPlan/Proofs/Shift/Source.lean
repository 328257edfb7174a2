import EvalPlan.Engine
import EvalPlan.Proofs.Shift.Script

/-!
# Requests in moved worlds

Whoever asks the engine to run or to load a script gets the moved environment in a moved world. A
source is read where it is, so that the program that it holds is the same everywhere.
-/

namespace EvalPlan

open Script (Program)

namespace Shift

variable (σ : Shift)

/-- A moved source. -/
def source : Source → Source
  | .inline name program => .inline name (σ.program program)
  | .file path => .file path
  | .stream path program failure => .stream path (σ.program program) (failure.map σ.value)

/-- A moved source is labelled alike. -/
@[simp] theorem label_source (files : Files) (source : Source) :
    (σ.source source).label files = source.label files := by cases source <;> rfl

/-- It names its script alike. -/
@[simp] theorem scriptName_source (source : Source) :
    (σ.source source).scriptName = source.scriptName := by
  cases source with
  | stream path => cases path <;> rfl
  | _ => rfl

end Shift

namespace Action

open Shift

/-! ## Reading -/

/-- What is read names only what its source and the files name. -/
theorem program_of_readSource {σ : Shift} {ev : Evaluator} {w w' : World} {source : Source}
    {program : Program} (hw : σ.Keeps w) (hsource : σ.source source = source)
    (h : ExceptT.run (readSource ev source) w = (.ok program, w')) :
    σ.program program = program := by
  -- a source that cannot be read is refused, so that there is no program to speak of
  have refuses (name : Text) (thrown : Value) (w : World) :
      ExceptT.run (refuseSource ev name thrown) w ≠ (.ok program, w') := fun h => by
    obtain ⟨c, _, -, h⟩ := bind_eq_ok h
    cases h
  cases source with
  | inline =>
    cases h
    exact (Source.inline.inj hsource).2
  | file path =>
    have h : ExceptT.run (readProgramFile ev path) w = (.ok program, w') := h
    rw [readProgramFile, run_bind, run_get] at h
    cases hread : w.files.read path with
    | error fault =>
      simp only [hread] at h
      obtain ⟨_, _, -, h⟩ := bind_eq_ok h
      exact absurd h (refuses _ _ _)
    | ok node =>
      simp only [hread] at h
      cases node with
      | script =>
        cases h
        exact hw.files path program hread
      | text t =>
        cases h
        exact σ.program_ofText t
      | _ =>
        cases h
        rfl
  | stream path _ failure =>
    cases failure with
    | none =>
      cases h
      exact (Source.stream.inj hsource).2.1
    | some failure => cases path <;> exact absurd h (refuses _ _ _)

variable {role : Role} {σ : Shift} {α β : Type} {ev : Evaluator} (hev : ev.Follows role σ)
  (host : Host)

include hev

/-- A source that cannot be read is refused alike. -/
theorem refuseSource_follows (f : α → β) (name : Text) (thrown : Value) :
    Follows role σ f (refuseSource ev name thrown) (refuseSource ev name (σ.value thrown)) :=
  .bind (cause_follows hev thrown) fun c => refuse_follows f (.unreadable name c)

/-- Reading a script from a file follows. -/
theorem readProgramFile_follows (path : Text) :
    Follows role σ σ.program (readProgramFile ev path) (readProgramFile ev path) := by
  refine .get fun {s a c} hw => ?_
  rw [hw.files]
  cases hread : a.files.read path with
  | error fault =>
    exact .bind (newMainError_follows .general _) fun cause => refuseSource_follows hev _ path cause
  | ok node =>
    cases node with
    | script program => exact .pure_of_eq (hw.keeps.files path program hread).symm
    | text t => exact .pure_of_eq (σ.program_ofText t).symm
    | _ => exact .pure σ.program (.invalid [])

/-- Reading a source follows. -/
theorem readSource_follows (source : Source) :
    Follows role σ σ.program (readSource ev source) (readSource ev (σ.source source)) := by
  cases source with
  | inline name program => exact .pure σ.program program
  | file path => exact readProgramFile_follows hev path
  | stream path program failure =>
    cases failure with
    | none => exact .pure σ.program program
    | some failure => cases path <;> exact refuseSource_follows hev σ.program _ failure

/-- Logging that a source is loaded follows. -/
theorem logLoading_follows (source : Source) :
    Follows role σ id (logLoading host ev source) (logLoading host ev (σ.source source)) := by
  refine .get fun {s a c} hw => ?_
  rw [hw.files, σ.label_source]
  exact log_follows hev _ _ _ _ _

/-- Loading a source follows, from the log entry to the environment. -/
theorem load_follows (source : Source) :
    Follows role σ σ.environment (load host ev source) (load host ev (σ.source source)) := by
  refine .bind (logLoading_follows hev host source) fun _ => ?_
  refine .bind (.bind (readSource_follows hev source) fun program => ?_) fun script =>
    executeScript_follows hev host script
  rw [σ.scriptName_source]
  exact compile_follows hev host _ program

/-! ## Asking the engine -/

/-- Taking a value for an environment follows. -/
theorem environmentOf_follows (v : Value) :
    Follows role σ (Prod.map σ.environment id) (environmentOf ev v)
      (environmentOf ev (σ.value v)) := by
  refine .bind (propertyMain_follows hev v "tasks") fun tasks => ?_
  refine .bind (propertyMain_follows hev v "result") fun result => .heap fun {h h'} hh => ?_
  have hfrozen (x : Value) : (h'.object? (σ.value x)).any (·.frozen) =
      (h.object? x).any (·.frozen) := by
    rw [hh.object?]
    cases h.object? x <;> rfl
  rw [hh.list?]
  cases h.list? tasks with
  | none => exact typeError_follows _ _
  | some items =>
    refine .pure_of_eq ?_
    simp only [List.all_cons, List.all_nil, hfrozen]
    rfl

/-- A request that a script may have replaced follows. -/
theorem request_follows (o : Operation) (arguments : List Value) {act act' : Action Environment}
    (hact : Follows role σ σ.environment act act') :
    Follows role σ (Prod.map σ.environment id) (request host ev o arguments act)
      (request host ev o (arguments.map σ.value) act') := by
  have hfacade : σ.value (.ref host.role.facade) = .ref host.role.facade := by
    rw [σ.value_ref, σ.ref_facade]
  have hproperty := propertyMain_follows hev (.ref host.role.facade) o.name
  rw [hfacade] at hproperty
  refine .bind hproperty fun callee => .heap fun {h h'} hh => ?_
  have hcall := callPropertyMain_follows hev callee (.ref host.role.facade) arguments
  rw [hfacade] at hcall
  have hother := hcall.bind fun v => environmentOf_follows hev v
  rw [hh.callable?]
  cases h.callable? callee with
  | none => exact hother
  | some c =>
    cases c with
    | operation found => exact .ite Iff.rfl (.answer hact fun _ => rfl) hother
    | _ => exact hother

end Action

end EvalPlan

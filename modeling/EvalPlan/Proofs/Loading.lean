import EvalPlan.Proofs.Describing
import EvalPlan.Proofs.Run
import EvalPlan.Script.Source

/-!
# Where loading a script stops

A script that is loaded from a file is announced in the log, read, compiled and executed, in this
order. `StopsLoading` says at which of these steps a load stops short of an environment, and what it
throws there. A file that cannot be read and a text that is no program are reported by errors of the
engine, which are put into words without any code of a script being run. `load_error_iff` says that
loads throw for these reasons and for no others.
-/

namespace EvalPlan

open Script (Program)

/-- The program is one that runs: no name is bound twice in one of its blocks. -/
def Script.Program.Compiles : Program → Prop
  | .block body result => (Program.block body result).bindsOnce = true
  | .invalid _ => False

/-- The world with an error added and another one that reports a problem. -/
def World.withCause (w : World) (cause : Object) (p : Problem) : World :=
  { w with heap := (w.heap.push cause).push (Action.problemObject p) }

namespace Action

section reading

variable {host : Host} {ev : Evaluator} {path : Text} {w : World}

/-- A problem whose cause was just made is refused with two objects, the cause and the error. -/
theorem run_refuse_withCause {α : Type} (w : World) (cause : Object) (p : Problem) :
    ExceptT.run (refuse p : Action α) { w with heap := w.heap.push cause } =
      (.error (.ref (w.heap.size + 1)), w.withCause cause p) := by
  have hsize : (w.heap.push cause).size = w.heap.size + 1 := Array.size_push _
  exact congrArg (fun n => (Except.error (Value.ref n), w.withCause cause p)) hsize

/-- A file that cannot be read is reported with the reason as the cause. -/
theorem run_readProgramFile_error {fault : ReadFault} (hread : w.files.read path = .error fault) :
    ExceptT.run (readProgramFile ev path) w =
      (.error (.ref (w.heap.size + 1)),
        w.withCause (errorObject .general .main (some fault.message))
        (.unreadable path ⟨.ref w.heap.size, fault.message⟩)) := by
  have hdescribes : Heap.Describes (w.heap.push (errorObject .general .main (some fault.message)))
      (.ref w.heap.size) fault.message :=
    Heap.describes_errorObject (by rw [Array.getElem?_push, if_pos rfl])
  unfold readProgramFile
  rw [run_bind_ok (run_get w), hread]
  simp only
  rw [run_bind_ok (run_alloc w _)]
  unfold refuseSource cause
  rw [bind_assoc, run_bind_ok (hdescribes ev _ rfl)]
  exact run_refuse_withCause w _ _

/-- A file that can be read holds some program. -/
theorem exists_run_readProgramFile (ev : Evaluator) {file : FileNode}
    (hread : w.files.read path = .ok file) :
    ∃ program, ExceptT.run (readProgramFile ev path) w = (.ok program, w) := by
  unfold readProgramFile
  rw [run_bind_ok (run_get w), hread]
  cases file <;> exact ⟨_, rfl⟩

/-- A program that does not compile is reported with the words of the compiler as the cause. -/
theorem run_compile_refused (name : Text) {program : Program} (hcompiles : ¬ program.Compiles) :
    ExceptT.run (compile host ev name program) w =
      (.error (.ref (w.heap.size + 1)),
        w.withCause (errorObject .grammar .main (some compilerWords))
        (.uncompilable name ⟨.ref w.heap.size, compilerWords⟩)) := by
  have hrefused : ExceptT.run (refuseProgram name : Action CompiledScript) w =
      (.error (.ref (w.heap.size + 1)),
        w.withCause (errorObject .grammar .main (some compilerWords))
        (.uncompilable name ⟨.ref w.heap.size, compilerWords⟩)) := by
    unfold refuseProgram
    rw [run_bind_ok (run_alloc w _)]
    exact run_refuse_withCause w _ _
  unfold compile
  cases program with
  | block body result =>
    simp only
    rw [if_neg (show ¬ (Program.block body result).bindsOnce = true from hcompiles)]
    exact hrefused
  | invalid t => exact hrefused

end reading

/-! ## The steps of a load -/

/-- Loading the script of a file stops short of an environment, with what is thrown there. -/
inductive StopsLoading (host : Host) (ev : Evaluator) (path : Text) (w : World) : Value → World →
    Prop
  /-- That the script is being loaded cannot be logged. -/
  | unannounced {thrown w'}
    (hlog : ExceptT.run (logLoading host ev (.file path)) w = (.error thrown, w')) :
    StopsLoading host ev path w thrown w'
  /-- The file cannot be read. -/
  | missing {w₁ fault} (hlog : ExceptT.run (logLoading host ev (.file path)) w = (.ok ⟨⟩, w₁))
    (hread : w₁.files.read path = .error fault) :
    StopsLoading host ev path w (.ref (w₁.heap.size + 1))
      (w₁.withCause (errorObject .general .main (some fault.message))
        (.unreadable path ⟨.ref w₁.heap.size, fault.message⟩))
  /-- The file holds no program that runs. -/
  | uncompilable {w₁ program}
    (hlog : ExceptT.run (logLoading host ev (.file path)) w = (.ok ⟨⟩, w₁))
    (hread : ExceptT.run (readProgramFile ev path) w₁ = (.ok program, w₁))
    (hcompiles : ¬ program.Compiles) :
    StopsLoading host ev path w (.ref (w₁.heap.size + 1))
      (w₁.withCause (errorObject .grammar .main (some compilerWords))
        (.uncompilable path ⟨.ref w₁.heap.size, compilerWords⟩))
  /-- That the script was compiled cannot be logged. -/
  | unconfirmed {w₁ program thrown w'}
    (hlog : ExceptT.run (logLoading host ev (.file path)) w = (.ok ⟨⟩, w₁))
    (hread : ExceptT.run (readProgramFile ev path) w₁ = (.ok program, w₁))
    (hcompiles : program.Compiles)
    (hcompile : ExceptT.run (compile host ev path program) w₁ = (.error thrown, w')) :
    StopsLoading host ev path w thrown w'
  /-- The script fails. -/
  | failed {w₁ script w₂ thrown w'}
    (hlog : ExceptT.run (logLoading host ev (.file path)) w = (.ok ⟨⟩, w₁))
    (hscript : ExceptT.run (loadScript host ev (.file path)) w₁ = (.ok script, w₂))
    (hrun : ExceptT.run (executeScript host ev script) w₂ = (.error thrown, w')) :
    StopsLoading host ev path w thrown w'

variable {host : Host} {ev : Evaluator} {path : Text} {w w' : World} {thrown : Value}

/-- A load that stops throws what its step throws. -/
theorem StopsLoading.load (h : StopsLoading host ev path w thrown w') :
    ExceptT.run (load host ev (.file path)) w = (.error thrown, w') := by
  unfold Action.load
  cases h with
  | unannounced hlog => exact run_bind_error hlog
  | missing hlog hread =>
    rw [run_bind_ok hlog]
    exact run_bind_error (run_bind_error (run_readProgramFile_error hread))
  | uncompilable hlog hread hcompiles =>
    rw [run_bind_ok hlog]
    exact run_bind_error ((run_bind_ok hread).trans (run_compile_refused path hcompiles))
  | unconfirmed hlog hread _ hcompile =>
    rw [run_bind_ok hlog]
    exact run_bind_error ((run_bind_ok hread).trans hcompile)
  | failed hlog hscript hrun =>
    rw [run_bind_ok hlog, run_bind_ok hscript]
    exact hrun

/-- Reading and compiling stops where the file cannot be read or holds no program that runs, unless
logging throws. -/
theorem stopsLoading_of_loadScript {w₁ : World}
    (hlog : ExceptT.run (logLoading host ev (.file path)) w = (.ok ⟨⟩, w₁))
    (h : ExceptT.run (loadScript host ev (.file path)) w₁ = (.error thrown, w')) :
    StopsLoading host ev path w thrown w' := by
  have hsource : readSource ev (.file path) = readProgramFile ev path := rfl
  unfold loadScript at h
  rw [hsource] at h
  cases hfile : w₁.files.read path with
  | error fault =>
    rw [run_bind_error (run_readProgramFile_error hfile)] at h
    cases h
    exact .missing hlog hfile
  | ok file =>
    obtain ⟨program, hread⟩ := exists_run_readProgramFile ev hfile
    rw [run_bind_ok hread] at h
    by_cases hcompiles : program.Compiles
    · exact .unconfirmed hlog hread hcompiles h
    · rw [show (Source.file path).scriptName = path from rfl, run_compile_refused path hcompiles] at h
      cases h
      exact .uncompilable hlog hread hcompiles

/-- Loading the script of a file throws exactly what the step throws at which it stops. -/
theorem load_error_iff :
    ExceptT.run (load host ev (.file path)) w = (.error thrown, w') ↔
      StopsLoading host ev path w thrown w' := by
  refine ⟨fun h => ?_, StopsLoading.load⟩
  unfold load at h
  rw [run_bind] at h
  split at h
  next w₁ hlog =>
    rw [run_bind] at h
    split at h
    next script w₂ hscript => exact .failed hlog hscript h
    next hscript =>
      cases h
      exact stopsLoading_of_loadScript hlog hscript
  next hlog =>
    cases h
    exact .unannounced hlog

end Action

end EvalPlan

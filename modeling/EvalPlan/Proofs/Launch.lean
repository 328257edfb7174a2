import EvalPlan.Proofs.Law.Keeping
import EvalPlan.Proofs.Run

/-!
# Scripts that run other scripts

A script runs another one somewhere among what it evaluates: in a block, as the argument of a call,
within a function that it calls. `Launches` says that an action gets as far as carrying a script
out, with nothing around it that handles what it throws. Whatever is kept by the steps of the engine
is kept until then (`Launches.keeps`), and what the script throws the action throws
(`Launches.fails`).
-/

namespace EvalPlan

open EvalPlan.Action

/-- A script that is about to be carried out. -/
structure Launch where
  /-- How deeply what it does may be nested. -/
  depth : Nat
  /-- The script. -/
  script : CompiledScript
  /-- The world in which it is carried out. -/
  world : World

namespace Launch

/-- The run that the script gets. -/
def run (l : Launch) : RunId := l.world.scopes.tasks.size

/-- How the parts of the script are carried out. -/
def evaluator (host : Host) (l : Launch) : Evaluator := EvalPlan.evaluator host l.depth

/-- What carrying the script out comes to. -/
def outcome (host : Host) (l : Launch) : Except Value Environment × World :=
  ExceptT.run (executeScript host (l.evaluator host) l.script) l.world

end Launch

/-- The action is made of what an engine does. -/
def Action.Lawful (host : Host) {α : Type} (act : Action α) : Prop :=
  ∀ R, Law host R → Keeps R act

/-- An action gets as far as carrying a script out, and handles nothing that the script throws. -/
inductive Launches (host : Host) (l : Launch) : {α : Type} → Action α → World → Prop
  /-- The script is carried out. -/
  | here : Launches host l (executeScript host (l.evaluator host) l.script) l.world
  /-- The first part of the action gets there. -/
  | first {α β : Type} {x : Action α} {f : α → Action β} {w : World} :
      Launches host l x w → Launches host l (x >>= f) w
  /-- The first part answers, and the second one gets there. -/
  | next {α β : Type} {x : Action α} {f : α → Action β} {w w₁ : World} {a : α} :
      Lawful host x → ExceptT.run x w = (.ok a, w₁) → Launches host l (f a) w₁ →
      Launches host l (x >>= f) w
  /-- Something else was thrown, and what handles it gets there. -/
  | handler {α : Type} {x : Action α} {f : Value → Action α} {w w₁ : World} {u : Value} :
      Lawful host x → ExceptT.run x w = (.error u, w₁) → Launches host l (f u) w₁ →
      Launches host l (tryCatch x f) w
  /-- It gets there while a list is put into text. -/
  | joining {α : Type} {r : Ref} {x : Action α} {w : World} :
      Launches host l x { w with joining := r :: w.joining } →
      Launches host l (whileJoining r x) w

namespace Launches

variable {host : Host} {l : Launch} {α : Type} {act : Action α} {w : World}

/-- Until the script is carried out, everything is kept that the engine keeps. -/
theorem keeps (h : Launches host l act w) {R : World → World → Prop} (law : Law host R) :
    R w l.world := by
  induction h with
  | here => exact law.refl _
  | first _ ih => exact ih
  | next lawful answers _ ih => exact law.trans ((lawful R law).of_run answers) ih
  | handler lawful throws _ ih => exact law.trans ((lawful R law).of_run throws) ih
  | joining _ ih => exact law.trans (law.onJoining _ _) ih

/-- What the script throws the action throws, and it does nothing else. -/
theorem fails (h : Launches host l act w) {u : Value} {y : World}
    (thrown : l.outcome host = (.error u, y)) :
    ∃ joining, ExceptT.run act w = (.error u, { y with joining }) := by
  induction h with
  | here => exact ⟨y.joining, thrown⟩
  | first _ ih =>
    obtain ⟨joining, ih⟩ := ih
    exact ⟨joining, run_bind_error ih⟩
  | next _ answers _ ih =>
    obtain ⟨joining, ih⟩ := ih
    exact ⟨joining, (run_bind_ok answers).trans ih⟩
  | handler _ throws _ ih =>
    obtain ⟨joining, ih⟩ := ih
    refine ⟨joining, ?_⟩
    rw [run_tryCatch, throws]
    exact ih
  | @joining _ r x w _ ih =>
    -- the lists that are being put into text are those of before
    obtain ⟨joining, ih⟩ := ih
    refine ⟨w.joining, ?_⟩
    rw [run_whileJoining, ih]

end Launches

end EvalPlan

import EvalPlan.Proofs.Emission
import EvalPlan.Proofs.Law.Keeping
import EvalPlan.Proofs.Law.Session
import EvalPlan.Proofs.Law.Uniform
import EvalPlan.Proofs.Run

/-!
# Scripts call no handlers

The handlers of a session are called by its bus and by nothing else. What a handler throws may run
code of scripts when it is described, and that may leave notices of all kinds; but none of them is a
call of a handler (`evaluator_callsNobody`). So what a session notes as called is what was called.
-/

namespace EvalPlan

open EvalPlan.Action

/-- The handlers that were called in a world, in order. -/
def World.calls (w : World) : List Text :=
  w.notices.filterMap fun
    | .handled handler _ _ => some handler
    | _ => none

namespace World

/-- No handler was called. -/
def SameCalls (w w' : World) : Prop := w'.calls = w.calls

namespace SameCalls

theorem of_eq {w w' : World} (h : w'.notices = w.notices) : w.SameCalls w' := by
  unfold SameCalls calls
  rw [h]

/-- One more notice, which is no call. -/
theorem of_note {w w' : World} {n : Notice} (h : w'.notices = w.notices ++ [n])
    (silent : n.isCall = false) : w.SameCalls w' := by
  unfold SameCalls calls
  rw [h, List.filterMap_append]
  cases n with
  | handled => cases silent
  | _ => exact List.append_nil _

theorem stepwise : Stepwise SameCalls where
  refl _ := rfl
  trans h h' := Eq.trans h' h

end SameCalls

end World

theorem callsNobody_stable : Stable (.keeping World.SameCalls) where
  pure := World.SameCalls.stepwise.pure
  throw := World.SameCalls.stepwise.throw
  bind := World.SameCalls.stepwise.bind
  tryCatch := World.SameCalls.stepwise.tryCatch
  read _ hk := World.SameCalls.stepwise.bind World.SameCalls.stepwise.get hk
  alloc _ _ := .of_eq rfl
  change _ _ _ _ := .of_eq rfl
  note _ _ silent _ := .of_note rfl silent
  print _ _ _ _ _ := .of_note rfl rfl
  openFrame _ _ _ := .of_eq rfl
  bindVariable scene name v w := by
    unfold Action.bindVariable
    rw [run_modify]
    dsimp only
    split
    · exact .of_eq rfl
    · exact World.SameCalls.stepwise.refl w
  postpone _ _ _ := .of_eq rfl
  takeQueue _ := .of_eq rfl
  whileJoining r act hact w := by
    rw [run_whileJoining]
    have inner := hact { w with joining := r :: w.joining }
    exact World.SameCalls.stepwise.trans (.of_eq rfl)
      (World.SameCalls.stepwise.trans inner (.of_eq rfl))

theorem callsNobody_uniform (host : Host) : Uniform host (.keeping World.SameCalls) where
  toStable := callsNobody_stable
  loggers := Trait.keeping_permitsAll _ host.loggers
  mark _ _ := .of_eq rfl
  withBinding binding _ hact w := by
    rw [run_withBinding]
    exact World.SameCalls.stepwise.trans (.of_eq rfl)
      (World.SameCalls.stepwise.trans (hact (w.enter binding)) (.of_eq rfl))
  beginScope _ _ := .of_eq rfl
  endingScope _ _ _ hact w := World.SameCalls.stepwise.trans (hact w) (.of_eq rfl)
  countDiscarded _ _ := .of_eq rfl
  declareIn _ _ _ := .of_eq rfl
  offer _ _ := .of_eq rfl
  enroll _ _ _ := .of_eq rfl
  attach _ _ _ := .of_eq rfl
  provideImports _ _ := .of_eq rfl
  publish hev type data run :=
    -- a subscriber of the engine that notes an event leaves another kind of notice
    publish_keeps_of_deliver World.SameCalls.stepwise callsNobody_stable.crash type data run
      fun _ w _ sub _ => deliver_holds callsNobody_stable hev (fun _ _ _ => trivial)
        (fun _ => .of_note rfl rfl) (fun _ _ _ _ _ => trivial) w

/-- Scripts call no handlers, however deeply they are nested. -/
theorem evaluator_callsNobody (host : Host) (n : Nat) :
    (evaluator host n).Meets (.keeping World.SameCalls) :=
  (callsNobody_uniform host).rules.evaluator n

/-- Nor does what reports a handler that threw. -/
theorem reportFailure_callsNobody (host : Host) {ev : Evaluator}
    (hev : ev.Meets (.keeping World.SameCalls)) (event : Event) (thrown : Value) (w : World) :
    (ExceptT.run (reportFailure host ev event thrown) w).2.calls = w.calls :=
  reportFailure_holds callsNobody_stable hev (fun _ _ _ => trivial) event thrown w

end EvalPlan

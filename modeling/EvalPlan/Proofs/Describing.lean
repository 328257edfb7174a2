import EvalPlan.Proofs.Action
import EvalPlan.Proofs.Heap
import EvalPlan.World.Words

/-!
# Describing thrown values

A thrown value is described by its message if it is an object that has one, and by its text
otherwise. To ask an object for its text may run any code. `Heap.Describes` says that it does not
come to that: values that are no objects, objects with a message and the errors of the engine
describe themselves. An object that inherits nothing may have no description at all
(`run_describe_bare`).
-/

namespace EvalPlan

open EvalPlan.Action

namespace Heap

/-- To describe the value gives the words, and runs no code. -/
def Describes (h : Heap) (v : Value) (words : Text) : Prop :=
  ∀ (ev : Evaluator) (w : World), w.heap = h → ExceptT.run (describe ev v) w = (.ok words, w)

/-- The value is no object, or an object with a text as its message. -/
def Describable (h : Heap) (v : Value) : Prop :=
  v.ref? = none ∨ h.isObject v = true ∧ ∃ message, h.text? v "message" = some message

variable {h h' : Heap} {v : Value}

/-- An object with a text as its message is described by that, whatever else it is. -/
theorem describes_message {message : Text} (object : h.isObject v = true)
    (holds : h.text? v "message" = some message) : h.Describes v message := by
  rintro ev w rfl
  unfold describe
  rw [run_bind_ok (run_heap w), if_pos object, holds]
  rfl

/-- To describe such a value runs no code. -/
theorem Describable.describes (describable : h.Describable v) : ∃ words, h.Describes v words := by
  rcases describable with plain | ⟨object, message, holds⟩
  · cases v with
    | ref r => cases plain
    | bool b => cases b <;> exact ⟨_, fun _ _ _ => rfl⟩
    | _ => exact ⟨_, fun _ _ _ => rfl⟩
  · exact ⟨message, describes_message object holds⟩

/-- A value stays describable where objects are added. -/
theorem Describable.extends_ (describable : h.Describable v) (hext : h.Extends h') :
    h'.Describable v := by
  refine describable.imp_right fun ⟨object, message, holds⟩ =>
    ⟨isObject_extends hext object, message, ?_⟩
  obtain ⟨x, found, text⟩ := Option.bind_eq_some_iff.mp holds
  rw [text?, value?_extends hext found]
  exact text

/-! ## The errors of the engine -/

section problem

variable {r : Ref} {p : Problem} (hr : h[r]? = some (problemObject p))

include hr

theorem isObject_problem : h.isObject (.ref r) = true := by
  simp [isObject, isCallable, callable?, shape?, object?, hr, problemObject, Object.empty]

theorem text?_problem : h.text? (.ref r) "message" = some p.message := by
  have own : (problemObject p).own? "message" = some (.hidden (.text p.message)) := rfl
  rw [text?, value?, find?, slot?_own hr own]
  rfl

/-- An error that reports a problem is described by its message. -/
theorem describes_problem : h.Describes (.ref r) p.message :=
  describes_message (isObject_problem hr) (text?_problem hr)

end problem

/-- An error object with a message is described by it. -/
theorem describes_errorObject {r : Ref} {kind : ErrorKind} {realm : Realm} {message : Text}
    (hr : h[r]? = some (errorObject kind realm (some message))) : h.Describes (.ref r) message := by
  have own : (errorObject kind realm (some message)).own? "message" =
    some (.hidden (.text message)) := rfl
  refine describes_message ?_ ?_
  · simp [isObject, isCallable, callable?, shape?, object?, hr, errorObject, Object.empty]
  · rw [text?, value?, find?, slot?_own hr own]
    rfl

end Heap

/-- To describe the value gives the words and leaves nothing, whatever was noted before. -/
def World.Describes (w : World) (ev : Evaluator) (v : Value) (words : Text) : Prop :=
  ∀ notices history, ExceptT.run (describe ev v) { w with notices, history } =
    (.ok words, { w with notices, history })

theorem Heap.Describes.describes {w : World} {v : Value} {words : Text}
    (h : w.heap.Describes v words) (ev : Evaluator) : w.Describes ev v words :=
  fun _ _ => h ev _ rfl

namespace Action

/-- A text describes itself. -/
theorem run_describe_text (ev : Evaluator) (t : Text) (w : World) :
    ExceptT.run (describe ev (.text t)) w = (.ok t, w) := rfl

/-- An object that inherits nothing and has neither a message nor a way to be put into text cannot
be described. -/
theorem run_describe_bare (ev : Evaluator) {r : Ref} {o : Object} {w : World}
    (hr : w.heap[r]? = some o) (hparent : o.parent = none)
    (hown : ∀ name ∈ [Text.ofString "message", "toString", "valueOf"], o.own? name = none) :
    ∃ u x, ExceptT.run (describe ev (.ref r)) w = (.error u, x) := by
  have hfind (name : Text) (hname : name ∈ [Text.ofString "message", "toString", "valueOf"]) :
      w.heap.find? .main (.ref r) name = none := by
    obtain ⟨n, hn⟩ : ∃ n, w.heap.size = n + 1 :=
      Nat.exists_eq_add_one.mpr (Nat.zero_lt_of_lt (Array.getElem?_eq_some_iff.mp hr).1)
    show w.heap.slot? r name = none
    rw [Heap.slot?, hn, Heap.slotWithin, hr]
    simp only [hown name hname, hparent, Option.bind_none]
  have hmessage :
      (if w.heap.isObject (.ref r) = true then w.heap.text? (.ref r) "message" else none) = none := by
    rw [Heap.text?, Heap.value?, hfind _ List.mem_cons_self]
    exact ite_self none
  -- each method that is asked for a text is missing, so that there is none to be called
  have hproperty (name : Text) (hname : name ∈ [Text.ofString "message", "toString", "valueOf"]) :
      ExceptT.run (property ev .main (.ref r) name) w = (.ok .undefined, w) := by
    unfold property
    rw [if_neg (by rintro ⟨⟩), run_bind_ok (run_heap w), hfind name hname]
    rfl
  have hplain : ∃ u x, ExceptT.run (plainBy ev .main (.ref r) ["toString", "valueOf"]) w =
      (.error u, x) := by
    rw [plainBy, run_bind_ok (hproperty "toString" (by decide)), run_bind_ok (run_heap w),
      if_neg (by rintro ⟨⟩), plainBy,
      run_bind_ok (hproperty "valueOf" (by decide)), run_bind_ok (run_heap w),
        if_neg (by rintro ⟨⟩), plainBy]
    exact ⟨_, _, rfl⟩
  obtain ⟨u, x, hplain⟩ := hplain
  refine ⟨u, x, ?_⟩
  unfold describe
  rw [run_bind_ok (run_heap w), hmessage]
  exact run_bind_error hplain

end Action

end EvalPlan

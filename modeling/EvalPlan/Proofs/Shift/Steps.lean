import EvalPlan.Script.Eval
import EvalPlan.Proofs.Shift.Follows
import EvalPlan.Proofs.Shift.Object
import EvalPlan.Proofs.Shift.Program

/-!
# Steps in moved worlds

The steps of which all actions are made follow each other in moved worlds: objects are made and
changed, notices left, variables bound. A variable is bound only in a frame that was opened later,
so that earlier ones stay as they are.
-/

namespace EvalPlan

open Script (Scene Stmt)

namespace Shift

/-- The innermost frame of the scene was opened later. -/
def Inner (σ : Shift) (scene : Scene) : Prop := ∀ f ∈ scene.frames.head?, σ.frames ≤ f

end Shift

namespace Action

open Shift

variable {role : Role} {σ : Shift} {α β : Type}

/-! ## Objects -/

/-- Making an object follows as making the moved object. -/
theorem alloc_follows {o : Object} (h : σ.FitsObject o) :
    Follows role σ σ.value (alloc o) (alloc (σ.object o)) := by
  refine .of_step fun {s a c} hw => ⟨?_, ?_, ?_⟩
  · exact { Grows.refl a with }
  · exact congrArg (fun r => Except.ok (Value.ref r)) hw.heaps.ref_size.symm
  · exact { hw with
      heaps := hw.heaps.push h
      keeps := hw.keeps.of_eq rfl rfl rfl }

/-- So does making a plain object of moved properties and a moved parent. -/
theorem newPlain_follows {parent parent' : Option Ref} {slots slots' : Table Text Slot}
    {frozen : Bool} (hparent : parent' = parent.map σ.ref) (hslots : slots' = σ.slots slots) :
    Follows role σ σ.value (alloc ⟨.plain, parent, slots, none, frozen, none⟩)
      (alloc ⟨.plain, parent', slots', none, frozen, none⟩) := by
  rw [hparent, hslots]
  exact alloc_follows (o := ⟨.plain, parent, slots, none, frozen, none⟩)
    (fitsObject_of_shape rfl nofun)

/-- Changing an object leaves no stray mark. -/
theorem strays_change (w : World) (v : Value) (f : Object → Object) :
    (ExceptT.run (change v f) w).2.strays = w.strays := by
  have hmarks : (alterations v).countP Mark.isStray = 0 := by
    cases v with
    | ref r => by_cases h : Fixture.has r = true <;> simp [alterations, h, Mark.isStray]
    | _ => rfl
  show (w.history ++ alterations v).countP Mark.isStray = _
  rw [List.countP_append, hmarks]
  rfl

/-- Changing an object follows if the change commutes with the move. -/
theorem change_follows (v : Value) {f f' : Object → Object}
    (hmove : ∀ o, f' (σ.object o) = σ.object (f o))
    (hfits : ∀ o, σ.FitsObject o → σ.FitsObject (f o)) :
    Follows role σ id (change v f) (change (σ.value v) f') := by
  refine .of_step fun {s a c} hw => ⟨?_, rfl, ?_⟩
  · exact { Grows.refl a with strays_le := Nat.le_of_eq (strays_change a v f).symm }
  · exact { hw with
      heaps := hw.heaps.update v hmove hfits
      keeps := hw.keeps.of_eq rfl rfl rfl }

/-- Making an object of members follows. -/
theorem record_follows (realm : Realm) [σ.Fits realm] (members : List (Text × Value)) :
    Follows role σ σ.value (record realm members) (record (σ.realm realm) (members.map σ.row)) := by
  have h : Follows role σ σ.value (record realm members) _ := alloc_follows fitsObject_holding
  rw [σ.object_holding, Option.map_some, σ.ref_template] at h
  exact h

/-- Making a list follows. -/
theorem newList_follows (realm : Realm) [σ.Fits realm] (items : List Value) :
    Follows role σ σ.value (newList realm items) (newList (σ.realm realm) (items.map σ.value)) := by
  have h : Follows role σ σ.value (newList realm items) _ :=
    alloc_follows (fitsObject_of_shape rfl nofun)
  rw [σ.object_empty, σ.shape_ofItems, Option.map_some, σ.ref_template] at h
  exact h

/-- Making a function follows. -/
theorem newFunction_follows (realm : Realm) [σ.Fits realm] {c : Callable} (h : σ.FitsCallable c)
    (name : Text) (arity : Nat) :
    Follows role σ σ.value (alloc (Object.function realm c name arity))
      (alloc (Object.function (σ.realm realm) (σ.callable c) name arity)) := by
  rw [← σ.object_function]
  exact alloc_follows (fitsObject_function h)

/-- Making an error follows. -/
theorem newError_follows (kind : ErrorKind) (realm : Realm) [σ.Fits realm] (message : Option Text) :
    Follows role σ σ.value (alloc (errorObject kind realm message))
      (alloc (errorObject kind (σ.realm realm) message)) := by
  rw [← σ.object_errorObject]
  exact alloc_follows fitsObject_errorObject

/-- A function of the library. -/
theorem newMainFunction_follows {c : Callable} (hc : σ.FitsCallable c) (name : Text) (arity : Nat) :
    Follows role σ σ.value (alloc (Object.function .main c name arity))
      (alloc (Object.function .main (σ.callable c) name arity)) := by
  have h : Follows role σ σ.value (alloc (Object.function .main c name arity)) _ :=
    newFunction_follows .main hc name arity
  rwa [realm_main] at h

/-- An error of the library. -/
theorem newMainError_follows (kind : ErrorKind) (message : Option Text) :
    Follows role σ σ.value (alloc (errorObject kind .main message))
      (alloc (errorObject kind .main message)) := by
  have h : Follows role σ σ.value (alloc (errorObject kind .main message)) _ :=
    newError_follows kind .main message
  rwa [realm_main] at h

/-- Refusing a problem follows as refusing the moved problem. -/
theorem refuse_follows (f : α → β) (p : Problem) :
    Follows role σ f (refuse p) (refuse (σ.problem p)) := by
  unfold refuse
  rw [← σ.object_problemObject]
  exact .bind (alloc_follows fitsObject_problemObject) fun v => .throw f v

/-- Throwing an error of a realm follows as throwing one of the moved realm. -/
theorem crashIn_follows (f : α → β) (realm : Realm) [σ.Fits realm] (kind : ErrorKind)
    (message : Text) :
    Follows role σ f (crashIn realm kind message) (crashIn (σ.realm realm) kind message) :=
  .bind (newError_follows kind realm _) fun v => .throw f v

/-- Throwing an error of the library follows. -/
theorem crash_follows (f : α → β) (kind : ErrorKind) (message : Text) :
    Follows role σ f (crash kind message) (crash kind message) := by
  have h : Follows role σ f (crashIn .main kind message) _ := crashIn_follows f .main kind message
  rw [realm_main] at h
  exact h

/-- So does complaining of a value of the wrong type. -/
theorem typeError_follows (f : α → β) (message : Text) :
    Follows role σ f (typeError message) (typeError message) := crash_follows f .type message

/-! ## Notices and marks -/

/-- A note follows as any other note, for what is printed is not compared. -/
theorem note_follows (n n' : Notice) : Follows role σ id (note n) (note n') :=
  .of_step fun hw => ⟨{ Grows.refl _ with }, rfl, { hw with keeps := hw.keeps.of_eq rfl rfl rfl }⟩

/-- A mark that is not stray does not count among the stray ones. -/
theorem strays_append (w : World) {m : Mark} (hm : m.isStray = false) :
    (w.history ++ [m]).countP Mark.isStray = w.strays := by
  rw [List.countP_append, List.countP_singleton, hm]
  rfl

/-- A mark that is not stray follows as any other mark. -/
theorem mark_follows {m m' : Mark} (hm : m.isStray = false) :
    Follows role σ id (mark m) (mark m') :=
  .of_step fun {_ a _} hw =>
    ⟨{ Grows.refl a with strays_le := Nat.le_of_eq (strays_append a hm).symm }, rfl,
      { hw with keeps := hw.keeps.of_eq rfl rfl rfl }⟩

/-- An action that leaves such a mark where it throws follows if the action does. -/
theorem markingThrow_follows {f : α → β} {m m' : Mark} (hm : m.isStray = false) {act : Action α}
    {act' : Action β} (h : Follows role σ f act act') :
    Follows role σ f (markingThrow m act) (markingThrow m' act') :=
  .tryCatch h fun v => .bind (mark_follows hm) fun _ => .throw f v

/-! ## Variables -/

/-- The next frame of a world goes to the place of the next frame of the other one. -/
theorem frame_size {s : Surroundings} {a c : World} (hw : σ.Worlds s a c) :
    σ.frame a.frames.size = c.frames.size := by
  rw [hw.frames_size, frame, if_neg (Nat.not_lt.mpr hw.frames_le)]

/-- Opening a frame follows with the moved variables. -/
theorem openFrame_follows (scene : Scene) (frame : Table Text (Option Value)) :
    Follows role σ σ.scene (openFrame scene frame)
      (openFrame (σ.scene scene) (σ.bindings frame)) := by
  refine .of_step fun {s a c} hw => ⟨?_, ?_, ?_⟩
  · refine { Grows.refl a with frame := fun f hf => ?_ }
    have hlt : f < a.frames.size := Nat.lt_of_lt_of_le hf hw.frames_le
    show (a.frames.push frame)[f]? = _
    rw [Array.getElem?_push, if_neg (Nat.ne_of_lt hlt)]
  · show Except.ok _ = Except.ok (σ.scene { scene with frames := a.frames.size :: scene.frames })
    rw [← frame_size hw]
    rfl
  · refine { hw with frames_size := ?_, frames_le := ?_, frame := ?_, keeps := hw.keeps.of_eq rfl rfl rfl }
    · show (c.frames.push _).size = (a.frames.push _).size + _
      rw [Array.size_push, Array.size_push, hw.frames_size, Nat.add_right_comm]
    · show σ.frames ≤ (a.frames.push _).size
      rw [Array.size_push]
      exact Nat.le_succ_of_le hw.frames_le
    · intro f
      show (c.frames.push _)[σ.frame f]? = ((a.frames.push _)[f]?).map σ.bindings
      rw [Array.getElem?_push, Array.getElem?_push, ← frame_size hw]
      -- the new frame is the last one in both worlds, and the others are where they were
      by_cases hf : f = a.frames.size
      · rw [if_pos hf, if_pos (congrArg σ.frame hf), Option.map_some]
      · rw [if_neg hf, if_neg fun h => hf (σ.frame_inj.mp h), hw.frame]

/-- What follows in the opened frame may use that it is a later one. -/
theorem openFrame_bind_follows {f : α → β} {scene : Scene} {frame : Table Text (Option Value)}
    {k : Scene → Action α} {k' : Scene → Action β}
    (hk : ∀ inner : Scene, inner.realm = scene.realm → σ.Inner inner →
      Follows role σ f (k inner) (k' (σ.scene inner))) :
    Follows role σ f (openFrame scene frame >>= k)
      (openFrame (σ.scene scene) (σ.bindings frame) >>= k') where
  free := by
    intro outer a c hw
    have hopen := (openFrame_follows scene frame : Follows role σ _ _ _).free hw
    have hrest := (hk { scene with frames := a.frames.size :: scene.frames } rfl
      (fun f hf => by cases hf; exact hw.frames_le)).free hopen.2.2
    rw [run_bind_ok (pair_eq hopen.2.1)]
    exact ⟨hopen.1.trans hrest.1, hrest.2⟩
  within := by
    intro hrole outer a c hw hstrays
    have hopen := (openFrame_follows scene frame : Follows role σ _ _ _).within hrole hw rfl
    rw [run_bind_ok (pair_eq hopen.1)]
    exact (hk { scene with frames := a.frames.size :: scene.frames } rfl
      (fun f hf => by cases hf; exact hw.frames_le)).within hrole hopen.2 hstrays

/-- Entering a block follows; the new scene belongs to the same realm and is one of its own. -/
theorem openBlock_bind_follows {f : α → β} {scene : Scene} {body : List Stmt}
    {k : Scene → Action α} {k' : Scene → Action β}
    (hk : ∀ inner : Scene, inner.realm = scene.realm → σ.Inner inner →
      Follows role σ f (k inner) (k' (σ.scene inner))) :
    Follows role σ f (openBlock scene body >>= k)
      (openBlock (σ.scene scene) (σ.stmts body) >>= k') := by
  have hframe : ((Script.bound (σ.stmts body)).map fun name => (name, (none : Option Value))) =
      σ.bindings ((Script.bound body).map fun name => (name, none)) := by
    rw [σ.bound_stmts, Shift.bindings, List.map_map]
    rfl
  unfold openBlock
  rw [hframe]
  exact openFrame_bind_follows hk

/-- Binding a variable of such a scene follows. -/
theorem bindVariable_follows {scene : Scene} (hscene : σ.Inner scene) (name : Text) (v : Value) :
    Follows role σ id (bindVariable scene name v)
      (bindVariable (σ.scene scene) name (σ.value v)) := by
  refine .of_step fun {s a c} hw => ?_
  -- without a frame nothing is bound; otherwise the innermost one has the name put on both sides
  rcases hframes : scene.frames with _ | ⟨f, rest⟩
  · have hrun (w : World) : ExceptT.run (bindVariable scene name v) w = (.ok ⟨⟩, w) := by
      unfold bindVariable
      rw [run_modify, hframes]
    have hrun' (w : World) :
        ExceptT.run (bindVariable (σ.scene scene) name (σ.value v)) w = (.ok ⟨⟩, w) := by
      unfold bindVariable
      rw [run_modify, show (σ.scene scene).frames = [] by rw [Shift.scene, hframes]; rfl]
    rw [hrun, hrun']
    exact ⟨.refl a, rfl, hw⟩
  · have hrun (w : World) : ExceptT.run (bindVariable scene name v) w =
        (.ok ⟨⟩, { w with frames := w.frames.modify f fun frame => frame.put name (some v) }) := by
      unfold bindVariable
      rw [run_modify, hframes]
    have hrun' (w : World) : ExceptT.run (bindVariable (σ.scene scene) name (σ.value v)) w =
        (.ok ⟨⟩, { w with
          frames := w.frames.modify (σ.frame f) fun frame => frame.put name (some (σ.value v)) }) := by
      unfold bindVariable
      rw [run_modify, show (σ.scene scene).frames = σ.frame f :: rest.map σ.frame by
        rw [Shift.scene, hframes]; rfl]
    rw [hrun, hrun']
    -- the frame belongs to what is moved, so that none of those that are spared changes
    have hlater : σ.frames ≤ f := hscene f (by rw [hframes]; rfl)
    refine ⟨{ Grows.refl a with frame := fun g hg => ?_ }, rfl, { hw with
      frames_size := ?_, frames_le := ?_, frame := fun g => ?_, keeps :=
        hw.keeps.of_eq rfl rfl rfl }⟩
    · show (a.frames.modify _ _)[g]? = _
      rw [Array.getElem?_modify, if_neg (by omega)]
    · show (c.frames.modify _ _).size = (a.frames.modify _ _).size + _
      rw [Array.size_modify, Array.size_modify, hw.frames_size]
    · show σ.frames ≤ (a.frames.modify _ _).size
      rw [Array.size_modify]
      exact hw.frames_le
    · show (c.frames.modify _ _)[σ.frame g]? = ((a.frames.modify _ _)[g]?).map σ.bindings
      rw [Array.getElem?_modify, Array.getElem?_modify, hw.frame]
      by_cases hg : f = g
      · rw [if_pos hg, if_pos (congrArg σ.frame hg)]
        cases a.frames[g]? with
        | none => rfl
        | some frame => exact congrArg some (σ.put_bindings frame name v)
      · rw [if_neg hg, if_neg fun h => hg (σ.frame_inj.mp h)]

/-- Leaving a block for later follows. -/
theorem postpone_follows (scene : Scene) (body : List Stmt) :
    Follows role σ id (Evaluator.postpone scene body)
      (Evaluator.postpone (σ.scene scene) (σ.stmts body)) :=
  .of_step fun hw => ⟨{ Grows.refl _ with }, rfl, { hw with keeps := hw.keeps.of_eq rfl rfl rfl }⟩

end Action

end EvalPlan

import EvalPlan.Continuation
import EvalPlan.Proofs.Shift.Source

/-!
# Where nothing moves

A shift by no distance moves nothing, so that every world follows itself. What an action leaves as
it was (`Shift.Grows`) is therefore known of every action that follows, in whatever world it is
carried out.
-/

namespace EvalPlan

open Script (Scene Expr Stmt)

namespace Shift

/-- Nothing is moved. -/
structure Still (σ : Shift) : Prop where
  objects : σ.objectsBy = 0
  frames : σ.framesBy = 0
  runs : σ.runsBy = 0

namespace Still

variable {σ : Shift} (h : σ.Still)

include h

/-- Every object stays where it is. -/
@[simp] theorem ref (r : Nat) : σ.ref r = r := by
  rw [Shift.ref, h.objects, Nat.add_zero, ite_self]

/-- So does every frame. -/
@[simp] theorem frame (f : Nat) : σ.frame f = f := by
  rw [Shift.frame, h.frames, Nat.add_zero, ite_self]

/-- Every run keeps its number. -/
@[simp] theorem run (id : Nat) : σ.run id = id := by
  rw [Shift.run, h.runs, Nat.add_zero, ite_self]

/-- Moving places is the identity. -/
theorem ref_eq : σ.ref = id := funext h.ref

/-- A realm is unchanged. -/
@[simp] theorem realm (realm : Realm) : σ.realm realm = realm := by
  rw [Shift.realm, h.ref]

/-- A value is unchanged. -/
@[simp] theorem value (v : Value) : σ.value v = v := by
  cases v with
  | symbol description serial => exact congrArg (Value.symbol description) (h.ref serial)
  | ref r => exact congrArg Value.ref (h.ref r)
  | _ => rfl

/-- Moving values is the identity. -/
theorem value_eq : σ.value = id := funext h.value

/-- A scene is unchanged. -/
@[simp] theorem scene (s : Scene) : σ.scene s = s := by
  unfold Shift.scene
  rw [h.ref_eq, show σ.frame = id from funext h.frame, h.realm, List.map_id, Option.map_id]
  rfl

/-- Every realm fits, for the objects of none are moved. -/
theorem fits (realm : Realm) : σ.Fits realm := ⟨fun i _ => by rw [h.ref, h.ref]⟩

/-- Every object fits. -/
theorem fitsObject (o : Object) : σ.FitsObject o := by
  refine ⟨fun c _ => ?_, fun realm _ => h.fits realm⟩
  cases c with
  | method m => cases m <;> first | exact h.fits _ | trivial
  | blueprint | closure | standard | maker | reader => exact h.fits _
  | _ => trivial

/-! ### Objects -/

/-- What a call does is unchanged. -/
theorem callable (c : Callable) : σ.callable c = c := by
  cases c with
  | blueprint b =>
    have hmaking : σ.making b.making = b.making := by
      cases b.making with
      | bound target => exact congrArg Making.bound (h.ref target)
      | _ => rfl
    show Callable.blueprint (σ.blueprint b) = _
    rw [Shift.blueprint, hmaking, fields_eq h.value, h.realm]
  | closure scene param body result =>
    show Callable.closure (σ.scene scene) param (σ.stmts body) (σ.option result) = _
    rw [h.scene, stmts_eq h.value, option_eq h.value]
  | method m =>
    cases m with
    | answer scene a =>
      show Callable.method (.answer (σ.scene scene) (σ.answer a)) = _
      rw [h.scene, answer_eq h.value]
    | produces cls copied declares =>
      show Callable.method (.produces (σ.value cls) copied declares) = _
      rw [h.value]
    | _ => rfl
  | verb v id onTask => exact congrArg₂ (Callable.verb v) (h.run id) (h.value onTask)
  | standard f realm => exact congrArg (Callable.standard f) (h.realm realm)
  | maker f realm => exact congrArg (Callable.maker f) (h.realm realm)
  | bound target this arguments =>
    show Callable.bound (σ.value target) (σ.value this) (arguments.map σ.value) = _
    rw [h.value_eq, List.map_id]
    rfl
  | reader name realm => exact congrArg (Callable.reader name) (h.realm realm)
  | scopeState id => exact congrArg Callable.scopeState (h.run id)
  | _ => rfl

/-- A property is unchanged. -/
theorem slot (s : Slot) : σ.slot s = s := by
  cases s with
  | data v shown fixed => exact congrArg (Slot.data · shown fixed) (h.value v)
  | computed getter setter => exact congrArg₂ Slot.computed (h.value getter) (h.value setter)

/-- An object is unchanged. -/
theorem object (o : Object) : σ.object o = o := by
  have hshape : σ.shape o.shape = o.shape := by
    cases o.shape with
    | list cells length =>
      have hcell : σ.cell = id := funext fun c => by rw [Shift.cell, h.value]; rfl
      show Shape.list (cells.map σ.cell) length = _
      rw [hcell, List.map_id]
    | callable c => exact congrArg Shape.callable (h.callable c)
    | _ => rfl
  have hslots : σ.slots o.slots = o.slots :=
    (List.map_congr_left fun row _ => by rw [h.slot]; rfl).trans (List.map_id _)
  have hwalk : σ.walk = id := funext fun k => by
    cases k with
    | byItems => rfl
    | byText realm => exact congrArg Walk.byText (h.realm realm)
  unfold Shift.object
  rw [hshape, hslots, h.ref_eq, h.value_eq, hwalk, Option.map_id, Option.map_id, Option.map_id]
  rfl

/-- The variables of a frame are unchanged. -/
theorem bindings (frame : Table Text (Option Value)) : σ.bindings frame = frame := by
  refine (List.map_congr_left fun row _ => ?_).trans (List.map_id _)
  rw [h.value_eq, Option.map_id]
  rfl

/-! ### Worlds -/

/-- Every world follows itself. -/
theorem worlds {w : World} (hobjects : σ.objects ≤ w.heap.size) (hframes : σ.frames ≤ w.frames.size)
    (hruns : σ.runs ≤ w.scopes.tasks.size) (hordered : w.bus.Ordered) :
    σ.Worlds (.free none) w w where
  -- where nothing moves, what is compared is the same object, frame or run
  heaps :=
    { size := by rw [h.objects, Nat.add_zero]
      objects_le := hobjects
      get := fun r => by rw [h.ref, show σ.object = id from funext h.object, Option.map_id]; rfl
      fits := fun _ o _ => h.fitsObject o }
  frames_size := by rw [h.frames, Nat.add_zero]
  frames_le := hframes
  frame f := by rw [h.frame, show σ.bindings = id from funext h.bindings, Option.map_id]; rfl
  runs_size := by rw [h.runs, Nat.add_zero]
  runs_le := hruns
  isOpen id := by rw [h.run]
  tasks id _ := by
    rw [h.run, h.value_eq, List.map_id_fun, Option.map_id]
    rfl
  binding := by
    cases w.binding with
    | none => rfl
    | some id => exact congrArg some (h.run id).symm
  outer _ hfree := by cases hfree
  mappings := by
    rw [h.value_eq]
    exact (List.map_id _).symm
  types := rfl
  resources := rfl
  files := rfl
  bus := rfl
  clock := rfl
  keeps :=
    { types := fun _ v _ => h.value v
      broken := fun v _ => h.value v
      files := fun _ program _ => program_eq h.value program
      subscribers := fun _ _ _ v _ => h.value v
      ordered := hordered }
  joining r := by rw [h.ref]

end Still

end Shift

end EvalPlan

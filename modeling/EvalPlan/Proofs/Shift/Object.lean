import EvalPlan.Proofs.Shift.Heap

/-!
# Moved objects

The objects that the engine and scripts make are moved by moving what they are made from, and
changing a moved object as a script does is moving the changed one.
-/

namespace EvalPlan

namespace Shift

variable (σ : Shift)

/-! ## New objects -/

/-- A moved cause. -/
def cause (c : Cause) : Cause := ⟨σ.value c.value, c.words⟩

/-- A moved problem. -/
def problem : Problem → Problem
  | .unreadable resource c => .unreadable resource (σ.cause c)
  | .uncompilable script c => .uncompilable script (σ.cause c)
  | .scriptFailed script c => .scriptFailed script (σ.cause c)
  | .builderNotFound builder name c => .builderNotFound builder name (σ.cause c)
  | .unknownType given words => .unknownType (σ.value given) words
  | p => p

/-- An object without properties moves with its shape and its parent. -/
@[simp] theorem object_empty (shape : Shape) (parent : Option Ref) :
    σ.object (Object.empty shape parent) = Object.empty (σ.shape shape) (parent.map σ.ref) := rfl

/-- Moved properties are put together like the properties themselves. -/
theorem slots_append (slots slots' : Table Text Slot) :
    σ.slots (slots ++ slots') = σ.slots slots ++ σ.slots slots' := List.map_append

/-- Properties that are set one after another are the moved ones. -/
theorem slots_foldl_put (members : List (Text × Value)) (slots : Table Text Slot) :
    σ.slots (members.foldl (fun (slots : Table Text Slot) m => slots.put m.1 (.ordinary m.2)) slots) =
      (members.map σ.row).foldl (fun (slots : Table Text Slot) m => slots.put m.1 (.ordinary m.2))
        (σ.slots slots) := by
  induction members generalizing slots with
  | nil => rfl
  | cons m members ih =>
    simp only [List.map_cons, List.foldl_cons]
    rw [ih, ← put_slots]
    rfl

/-- An object that is made of values moves as one that is made of the moved values. -/
theorem object_holding (shape : Shape) (parent : Option Ref) (members : List (Text × Value)) :
    σ.object (Object.holding shape parent members) =
      Object.holding (σ.shape shape) (parent.map σ.ref) (members.map σ.row) := by
  unfold Object.holding
  rw [show ([] : Table Text Slot) = σ.slots [] from rfl, ← slots_foldl_put]
  rfl

/-- A list of items moves as the list of the moved items. -/
theorem shape_ofItems (items : List Value) :
    σ.shape (Shape.ofItems items) = Shape.ofItems (items.map σ.value) := by
  have hcells (items : List Value) (n : Nat) :
      ((items.zipIdx n).map fun item => (item.2, item.1)).map σ.cell =
        ((items.map σ.value).zipIdx n).map fun item => (item.2, item.1) := by
    induction items generalizing n with
    | nil => rfl
    | cons v items ih => exact congrArg _ (ih (n + 1))
  exact congrArg₂ Shape.list (hcells items 0) (List.length_map σ.value).symm

/-- A function moves as the function of the moved callable. -/
theorem object_function (realm : Realm) [σ.Fits realm] (c : Callable) (name : Text) (arity : Nat) :
    σ.object (Object.function realm c name arity) =
      Object.function (σ.realm realm) (σ.callable c) name arity := by
  unfold Object.function
  rw [← σ.ref_template realm]
  rfl

/-- So does a constructor, whose template moves along. -/
theorem object_constructor (realm : Realm) [σ.Fits realm] (c : Callable) (name : Text) (arity : Nat)
    (template : Value) :
    σ.object (Object.constructor realm c name arity template) =
      Object.constructor (σ.realm realm) (σ.callable c) name arity (σ.value template) := by
  have hslots := σ.put_slots (Object.function realm c name arity).slots "prototype"
    (.fixed template)
  unfold Object.constructor
  rw [← object_function]
  exact congrArg (fun slots => { σ.object (Object.function realm c name arity) with slots })
    hslots.symm

/-- An error moves as the same error of the moved realm. -/
theorem object_errorObject (kind : ErrorKind) (realm : Realm) [σ.Fits realm]
    (message : Option Text) : σ.object (Action.errorObject kind realm message) =
      Action.errorObject kind (σ.realm realm) message := by
  unfold Action.errorObject
  rw [← σ.ref_template realm]
  cases message <;> cases kind <;> rfl

/-- What objects of the main realm inherit from stays. -/
theorem parent_main (f : Family) :
    (some (Realm.main.template f)).map σ.ref = some (Realm.main.template f) := by
  rw [Option.map_some, ref_template, realm_main]

/-- What is said of a problem does not depend on where objects are. -/
@[simp] theorem message_problem (p : Problem) : (σ.problem p).message = p.message := by
  cases p <;> rfl

/-- The error that says of a problem what it is, moved, says so of the moved problem. -/
theorem object_problemObject (p : Problem) :
    σ.object (Action.problemObject p) = Action.problemObject (σ.problem p) := by
  cases p <;> exact congrArg (fun parent => Object.mk _ parent _ none false none) (σ.parent_main _)

variable {σ} in
/-- An object that does not say how it is gone through is in the realm of what is called. -/
theorem fitsObject_of_callable {o : Object} (hw : o.walk = none)
    (h : ∀ c, o.shape = .callable c → σ.FitsCallable c) : σ.FitsObject o :=
  ⟨h, fun _ hwalk => by rw [hw] at hwalk; cases hwalk⟩

/-! ### Whole realms -/

section realm

variable (realm : Realm) [σ.Fits realm]

/-- The properties that are special to a family move with their realm. -/
theorem slots_traits (f : Family) : σ.slots (f.traits realm) = f.traits (σ.realm realm) := by
  have hstandard (m : Standard) :
      σ.value (.ref (realm.standard m)) = .ref ((σ.realm realm).standard m) := by
    rw [value_ref, ref_standard]
  cases f with
  | object | function | symbol => simp [Family.traits, slots, slot, hstandard, Slot.fixed]
  | error kind => cases kind <;> rfl
  | _ => rfl

/-- What a family inherits from moves as that of the moved realm. -/
theorem object_familyTemplate (f : Family) :
    σ.object (f.template realm) = f.template (σ.realm realm) := by
  have hshape : σ.shape (f.shape realm) = f.shape (σ.realm realm) := by cases f <;> rfl
  have hparent : (f.base?.map realm.template).map σ.ref = f.base?.map (σ.realm realm).template := by
    rw [Option.map_map]
    exact congrArg (fun g => f.base?.map g) (funext fun g => σ.ref_template realm g)
  have hmethods : σ.slots (f.methods.map fun m => (m.name, Slot.hidden (.ref (realm.standard m)))) =
      f.methods.map fun m => (m.name, Slot.hidden (.ref ((σ.realm realm).standard m))) := by
    rw [slots, List.map_map]
    exact List.map_congr_left fun m _ =>
      congrArg (fun r => (m.name, Slot.hidden (.ref r))) (σ.ref_standard realm m)
  -- the maker, the methods and the properties of its own, in this order
  have hslots : σ.slots (f.template realm).slots = (f.template (σ.realm realm)).slots := by
    show σ.slots ((_ :: (f.methods.map _)) ++ f.traits realm) = _
    rw [slots_append, slots_traits, ← List.singleton_append, slots_append, hmethods]
    show (_ ++ _) ++ _ = (_ :: _) ++ _
    rw [← List.singleton_append, ← σ.ref_maker realm]
    rfl
  have hwalk : (f.walk realm).map σ.walk = f.walk (σ.realm realm) := by cases f <;> rfl
  unfold object
  rw [hslots]
  show Object.mk _ _ _ none false ((f.walk realm).map σ.walk) = _
  rw [hwalk]
  exact congrArg₂ (fun shape parent => Object.mk shape parent _ none false _) hshape hparent

/-- So does the maker of a family. -/
theorem object_familyMaker (f : Family) : σ.object (f.maker realm) = f.maker (σ.realm realm) := by
  have hmaker : σ.object (Object.constructor realm (.maker f realm) f.name 1 (.ref (realm.template f))) =
      Object.constructor (σ.realm realm) (.maker f (σ.realm realm)) f.name 1
        (.ref ((σ.realm realm).template f)) := by
    rw [object_constructor, value_ref, ref_template]
    rfl
  have hparent (o : Object) (g : Family) : σ.object { o with parent := some (realm.maker g) } =
      { σ.object o with parent := some ((σ.realm realm).maker g) } := by
    rw [← σ.ref_maker realm]
    rfl
  unfold Family.maker
  rw [← hmaker]
  split
  · exact hparent _ _
  · exact hparent _ _
  · rfl

/-- All objects of a realm move as those of the moved realm. -/
theorem objects_map : realm.objects.map σ.object = (σ.realm realm).objects := by
  unfold Realm.objects
  rw [List.map_append, List.map_flatMap, List.map_map]
  congr 1
  · refine congrArg List.flatten (List.map_congr_left fun f _ => ?_)
    show [_, _] = [_, _]
    rw [object_familyTemplate, object_familyMaker]
  · exact List.map_congr_left fun f _ => σ.object_function realm _ _ _

/-- The objects of a realm that fits fit as well. -/
theorem fitsObject_objects : ∀ o ∈ realm.objects, σ.FitsObject o := by
  intro o ho
  unfold Realm.objects at ho
  -- the objects of a realm are a template and a maker for each family, and the standard functions
  rcases List.mem_append.mp ho with ho | ho
  · obtain ⟨f, -, ho⟩ := List.mem_flatMap.mp ho
    rcases List.mem_pair.mp ho with rfl | rfl
    · refine ⟨fun c hc => ?_, fun realm' hwalk => ?_⟩
      · cases f with
        | function =>
          cases hc
          exact ‹σ.Fits realm›
        | _ => cases hc
      · cases f with
        | text =>
          cases hwalk
          exact ‹σ.Fits realm›
        | _ => cases hwalk
    · refine fitsObject_of_callable ?_ fun c hc => ?_
      · show (f.maker realm).walk = none
        unfold Family.maker
        split <;> rfl
      have hshape : (f.maker realm).shape = .callable (.maker f realm) := by
        unfold Family.maker
        split <;> rfl
      cases hshape.symm.trans hc
      exact ‹σ.Fits realm›
  · obtain ⟨f, -, rfl⟩ := List.mem_map.mp ho
    exact fitsObject_of_callable rfl fun _ hc => by cases hc; exact ‹σ.Fits realm›

end realm

/-! ### Realms of new objects -/

variable {σ}

/-- An object that cannot be called and does not say how it is gone through fits. -/
theorem fitsObject_of_shape {o : Object} (hw : o.walk = none) (h : ∀ c, o.shape ≠ .callable c) :
    σ.FitsObject o :=
  fitsObject_of_callable hw fun c hc => absurd hc (h c)

/-- A function fits if what it does fits. -/
theorem fitsObject_function {realm : Realm} {c : Callable} {name : Text} {arity : Nat}
    (h : σ.FitsCallable c) : σ.FitsObject (Object.function realm c name arity) := by
  refine fitsObject_of_callable rfl ?_
  rintro _ ⟨⟩
  exact h

/-- An object that is made of values fits. -/
theorem fitsObject_holding {parent : Option Ref} {members : List (Text × Value)} :
    σ.FitsObject (Object.holding .plain parent members) := fitsObject_of_shape rfl nofun

/-- An error fits. -/
theorem fitsObject_errorObject {kind : ErrorKind} {realm : Realm} {message : Option Text} :
    σ.FitsObject (Action.errorObject kind realm message) := fitsObject_of_shape rfl nofun

/-- So does an error that reports a problem. -/
theorem fitsObject_problemObject {p : Problem} : σ.FitsObject (Action.problemObject p) :=
  fitsObject_of_shape rfl nofun

/-! ## Changed objects -/

/-- Where a property is not the item of a list, it is put among the slots. -/
theorem putSlot_object (name : Text) (v : Value) (o : Object) :
    (match (σ.slots o.slots).get? name with
      | some (.data _ shown fixed) =>
        { σ.object o with slots := (σ.slots o.slots).put name (.data (σ.value v) shown fixed) }
      | _ => { σ.object o with slots := (σ.slots o.slots).put name (.ordinary (σ.value v)) }) =
    σ.object (match o.slots.get? name with
      | some (.data _ shown fixed) => { o with slots := o.slots.put name (.data v shown fixed) }
      | _ => { o with slots := o.slots.put name (.ordinary v) }) := by
  rw [get?_slots]
  cases o.slots.get? name with
  | none => exact congrArg (fun slots => { σ.object o with slots }) (σ.put_slots _ _ (.ordinary v))
  | some s =>
    cases s with
    | data x shown fixed =>
      exact congrArg (fun slots => { σ.object o with slots })
        (σ.put_slots _ _ (.data v shown fixed))
    | computed getter setter =>
      exact congrArg (fun slots => { σ.object o with slots }) (σ.put_slots _ _ (.ordinary v))

/-- Setting a property of a moved object commutes with the move. -/
theorem put_object (name : Text) (v : Value) (o : Object) :
    (σ.object o).put name (σ.value v) = σ.object (o.put name v) := by
  have hslots := σ.putSlot_object name v o
  unfold Object.put
  obtain ⟨shape, parent, slots, marker, frozen, walk⟩ := o
  cases shape with
  | list cells length =>
    cases hi : name.toIndex? with
    | none => exact hslots
    | some i =>
      have hcells := Heaps.insertIndexed_map σ.value i v cells
      exact congrArg (fun cells => Object.mk (.list cells _) _ _ _ _ _) hcells
  | plain | error _ | callable _ => exact hslots

/-- So does changing the length of a list. -/
theorem resize_object (length : Nat) (o : Object) :
    (σ.object o).resize length = σ.object (o.resize length) := by
  obtain ⟨shape, parent, slots, marker, frozen, walk⟩ := o
  cases shape with
  | list cells n =>
    have hcells : (cells.map σ.cell).filter (fun c => c.1 < length) =
        (cells.filter fun c => c.1 < length).map σ.cell := by
      rw [List.filter_map]
      rfl
    exact congrArg (fun cells => Object.mk (.list cells length) _ _ _ _ _) hcells
  | plain | error _ | callable _ => rfl

/-- An object still fits after a property was set. -/
theorem fitsObject_put {name : Text} {v : Value} {o : Object} (h : σ.FitsObject o) :
    σ.FitsObject (o.put name v) := by
  refine ⟨fun c hc => h.callable c ?_, fun realm hwalk => h.walk realm ?_⟩
  · unfold Object.put at hc
    split at hc
    · cases hc
    · split at hc <;> exact hc
  · unfold Object.put at hwalk
    split at hwalk
    · exact hwalk
    · split at hwalk <;> exact hwalk

/-- So does a list after its length was changed. -/
theorem fitsObject_resize {length : Nat} {o : Object} (h : σ.FitsObject o) :
    σ.FitsObject (o.resize length) := by
  refine ⟨fun c hc => h.callable c ?_, fun realm hwalk => h.walk realm ?_⟩
  · unfold Object.resize at hc
    split at hc
    · cases hc
    · exact hc
  · unfold Object.resize at hwalk
    split at hwalk <;> exact hwalk

end Shift

end EvalPlan

import EvalPlan.Domain
import EvalPlan.Proofs.Shift.Object

/-!
# What every world begins with stays

The objects of the main realm, the fixtures and the classes of the domain name only each other, so
that no shift moves anything of them (`object_foundation`).
-/

namespace EvalPlan

namespace Shift

variable (σ : Shift)

/-! ## The main realm -/

/-- An object of the main realm is where it is in every world. -/
theorem object_main {o : Object} (h : o ∈ Realm.main.objects) : σ.object o = o := by
  have hmap := σ.objects_map Realm.main
  rw [realm_main] at hmap
  exact List.map_eq_map_iff.mp (hmap.trans (List.map_id _).symm) o h

/-- So is a function of the main realm. -/
theorem object_mainFunction {c : Callable} (hc : σ.callable c = c) (name : Text) (arity : Nat) :
    σ.object (Object.function .main c name arity) = Object.function .main c name arity := by
  rw [object_function, hc, realm_main]

/-! ## The fixtures -/

/-- The objects of the engine do not move. -/
theorem value_fixture (x : Fixture) : σ.value (.ref x.ref) = .ref x.ref := by
  rw [value_ref, ref_fixture]

/-- The operations on offer are at the same place. -/
theorem slots_operations {slot : Value → Slot} (hslot : ∀ v, σ.slot (slot v) = slot (σ.value v))
    (os : List Operation) : σ.slots (Fixture.operations slot os) = Fixture.operations slot os := by
  refine (List.map_map ..).trans (List.map_congr_left fun o _ => ?_)
  show (o.name, σ.slot (slot _)) = _
  rw [hslot, value_fixture]

/-- Properties move one by one. -/
theorem slots_cons (name : Text) (s : Slot) (slots : Table Text Slot) :
    σ.slots ((name, s) :: slots) = (name, σ.slot s) :: σ.slots slots := rfl

/-- A plain object is unchanged if its template and its properties are. -/
theorem object_plain {parent : Option Ref} {slots : Table Text Slot}
    (hparent : parent.map σ.ref = parent) (hslots : σ.slots slots = slots) :
    σ.object ⟨.plain, parent, slots, none, false, none⟩ =
      ⟨.plain, parent, slots, none, false, none⟩ ∧
      σ.FitsObject ⟨.plain, parent, slots, none, false, none⟩ :=
  ⟨congrArg₂ (fun parent slots => Object.mk .plain parent slots none false none) hparent hslots,
    fitsObject_of_shape rfl nofun⟩

/-- The objects of the engine are unchanged, and fit. -/
theorem object_fixture (x : Fixture) : σ.object x.object = x.object ∧ σ.FitsObject x.object := by
  cases x with
  | engineTemplate =>
    refine σ.object_plain (σ.parent_main .object) ?_
    rw [slots_cons, slot_hidden, value_fixture, slots_operations σ fun _ => rfl]
  | engineMaker =>
    refine ⟨?_, fitsObject_of_callable rfl (by rintro _ ⟨⟩; exact inferInstanceAs (σ.Fits .main))⟩
    show σ.object (Object.constructor .main _ _ _ _) = _
    rw [object_constructor, value_fixture, realm_main]
    show Object.constructor _ (.blueprint ⟨_, _, [], _, σ.realm Realm.main⟩) _ _ _ = _
    rw [realm_main]
    rfl
  | engine =>
    refine σ.object_plain (congrArg some (σ.ref_fixture .engineTemplate)) ?_
    simp only [slots_cons, slot_ordinary, value_fixture]
    rfl
  | bench =>
    refine σ.object_plain (σ.parent_main .object) ?_
    rw [slots_cons, slot_ordinary, value_fixture, slots_operations σ fun _ => rfl]
  | logger =>
    refine σ.object_plain (σ.parent_main .object)
      ((List.map_map ..).trans (List.map_congr_left fun l _ => ?_))
    exact congrArg (fun v => (l.name, Slot.ordinary v)) (σ.value_fixture (.logging l))
  | bus => exact σ.object_plain (σ.parent_main .object) (slots_operations σ (fun _ => rfl) _)
  | operation o =>
    exact ⟨σ.object_mainFunction rfl _ _, fitsObject_of_callable rfl (by rintro _ ⟨⟩; trivial)⟩
  | logging l =>
    exact ⟨σ.object_mainFunction rfl _ _, fitsObject_of_callable rfl (by rintro _ ⟨⟩; trivial)⟩

/-! ## The domain -/

/-- The fields of the classes of the domain refer to nothing that moves. -/
theorem fields_kin (k : Kin) : σ.fields k.fields = k.fields := by cases k <;> rfl

/-- The templates of the classes of the domain are unchanged, and fit. -/
theorem object_kinTemplate (k : Kin) :
    σ.object k.templateObject = k.templateObject ∧ σ.FitsObject k.templateObject := by
  have hparent : (some ((k.base?.map Kin.template).getD (Realm.main.template .object))).map σ.ref =
      some ((k.base?.map Kin.template).getD (Realm.main.template .object)) := by
    cases k.base? with
    | none => exact σ.parent_main .object
    | some base => exact congrArg some (σ.ref_kinTemplate base)
  have hshared : σ.slots (k.methods.map fun m => (m.name, Slot.hidden (.ref (Kin.methodRef m)))) =
      k.methods.map fun m => (m.name, Slot.hidden (.ref (Kin.methodRef m))) :=
    (List.map_map ..).trans (List.map_congr_left fun m _ =>
      congrArg (fun r => (m.name, Slot.hidden (.ref r))) (σ.ref_domainMethod m))
  have hlabel : σ.slot (.computed (.ref (Kin.methodRef .metricLabel)) .undefined) =
      .computed (.ref (Kin.methodRef .metricLabel)) .undefined :=
    congrArg (fun r => Slot.computed (.ref r) .undefined) (σ.ref_domainMethod .metricLabel)
  refine σ.object_plain hparent ?_
  rw [← List.singleton_append, slots_append, slots_append, hshared, slots_cons, slot_hidden,
    value_ref, ref_kin]
  congr 1
  split
  · rw [slots_cons, hlabel]
    rfl
  · rfl

/-- So are the classes. -/
theorem object_kin (k : Kin) : σ.object k.object = k.object ∧ σ.FitsObject k.object := by
  refine ⟨?_, fitsObject_of_callable rfl (by rintro _ ⟨⟩; exact inferInstanceAs (σ.Fits .main))⟩
  have hparent : (some ((k.base?.map Kin.ref).getD (Realm.main.template .function))).map σ.ref =
      some ((k.base?.map Kin.ref).getD (Realm.main.template .function)) := by
    cases k.base? with
    | none => exact σ.parent_main .function
    | some base => exact congrArg some (σ.ref_kin base)
  have hmarker : (if k = .metric then some (Value.ref (Kin.ref .metricBuilder)) else none).map
    σ.value =
      if k = .metric then some (.ref (Kin.ref .metricBuilder)) else none := by
    split
    · rw [Option.map_some, value_ref, ref_kin]
    · rfl
  have hclass (b : Blueprint) (hb : σ.blueprint b = b) :
      σ.object (Object.constructor .main (.blueprint b) k.name k.arity (.ref k.template)) =
        Object.constructor .main (.blueprint b) k.name k.arity (.ref k.template) := by
    rw [object_constructor, value_ref, ref_kinTemplate, realm_main, callable, hb]
  have hblueprint (key : Option Text) :
      σ.blueprint ⟨key, .classDefinition, k.fields, "class " ++ k.name, .main⟩ =
        ⟨key, .classDefinition, k.fields, "class " ++ k.name, .main⟩ := by
    rw [blueprint, fields_kin, realm_main]
    rfl
  -- what moves of the class is moved part by part
  have hparts (o : Object) (parent : Option Ref) (marker : Option Value) :
      σ.object { o with parent, marker } =
        { σ.object o with parent := parent.map σ.ref, marker := marker.map σ.value } := rfl
  unfold Kin.object
  rw [hparts, hclass _ (hblueprint _), hparent, hmarker]

/-- So are their methods. -/
theorem object_domainMethod (m : DomainMethod) :
    σ.object m.object = m.object ∧ σ.FitsObject m.object :=
  ⟨σ.object_mainFunction rfl _ _, fitsObject_of_callable rfl (by rintro _ ⟨⟩; trivial)⟩

/-- No shift moves anything of what every world begins with. -/
theorem object_foundation {r : Nat} {o : Object} (h : Domain.heap[r]? = some o) :
    σ.object o = o ∧ σ.FitsObject o := by
  have hmem : o ∈ Realm.main.objects ++ Fixture.objects ++ Domain.objects :=
    List.mem_toArray.mp (Array.mem_of_getElem? h)
  rcases List.mem_append.mp hmem with hmem | hmem
  · rcases List.mem_append.mp hmem with hmem | hmem
    · exact ⟨σ.object_main hmem, σ.fitsObject_objects _ o hmem⟩
    · obtain ⟨x, -, rfl⟩ := List.mem_map.mp hmem
      exact σ.object_fixture x
  · rcases List.mem_append.mp hmem with hmem | hmem
    · obtain ⟨k, -, hmem⟩ := List.mem_flatMap.mp hmem
      rcases List.mem_pair.mp hmem with rfl | rfl
      · exact σ.object_kinTemplate k
      · exact σ.object_kin k
    · obtain ⟨m, -, rfl⟩ := List.mem_map.mp hmem
      exact σ.object_domainMethod m

end Shift

end EvalPlan

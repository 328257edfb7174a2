import EvalPlan.Proofs.Heap
import EvalPlan.Proofs.Law
import EvalPlan.Proofs.Table

/-!
# Fixtures that are as they were made

The engine reaches its own parts by the properties of objects that scripts hold too. Where no script
put anything else in their place, reading these properties calls nothing and gives the parts.
`Heap.Intact` says so of a heap. It is kept when objects are added, when other objects change, and
when objects are marked.
-/

namespace EvalPlan

/-- An object has the shape, the properties and the parent of another one. -/
structure Object.Like (o o' : Object) : Prop where
  shape : o.shape = o'.shape
  parent : o.parent = o'.parent
  slots : o.slots = o'.slots

/-- The engine as an object reaches its parts, whatever else is among its properties. -/
structure Object.IsEngine (o : Object) : Prop where
  shape : o.shape = .plain
  parent : o.parent = some Fixture.engineTemplate.ref
  emit : o.slots.get? "emit" = none
  bus : o.slots.get? "eventBus" = some (.ordinary (.ref Fixture.bus.ref))
  logger : o.slots.get? "logger" = some (.ordinary (.ref Fixture.logger.ref))

namespace Fixture

/-- All fixtures are listed. -/
theorem mem_all (x : Fixture) : x ∈ all := by
  cases x with
  | operation o => cases o <;> decide
  | logging l => cases l <;> decide
  | _ => decide

/-- The place of a fixture is the place of a fixture. -/
theorem has_ref (x : Fixture) : has x.ref = true := by
  have hlt : all.idxOf x < all.length := List.idxOf_lt_length_iff.mpr (mem_all x)
  have hbound : x.ref < bound := Nat.add_lt_add_left hlt Realm.size
  rw [has, Bool.and_eq_true]
  exact ⟨decide_eq_true (Nat.le_add_right _ _), decide_eq_true hbound⟩

/-- Different fixtures have different places. -/
theorem ref_injective {x y : Fixture} (h : x.ref = y.ref) : x = y := by
  have hidx : all.idxOf x = all.idxOf y := Nat.add_left_cancel h
  have hx := List.idxOf_lt_length_iff.mpr (mem_all x)
  -- the object at the same place is the same fixture
  have hget : all[all.idxOf x] = x := List.getElem_idxOf hx
  have hy := List.idxOf_lt_length_iff.mpr (mem_all y)
  have hget' : all[all.idxOf y] = y := List.getElem_idxOf hy
  rw [← hget, ← hget']
  congr 1

end Fixture

/-- The engine is still reached when it takes another property. -/
theorem Object.IsEngine.put {o : Object} (ho : o.IsEngine) {name : Text}
    (v : Value) (hemit : name ≠ "emit")
    (hbus : name ≠ "eventBus") (hlogger : name ≠ "logger") : (o.put name v).IsEngine := by
  have hput (s : Slot) : IsEngine { o with slots := o.slots.put name s } := by
    refine ⟨ho.shape, ho.parent, ?_, ?_, ?_⟩
    · exact (Table.get?_put_of_ne _ hemit s).trans ho.emit
    · exact (Table.get?_put_of_ne _ hbus s).trans ho.bus
    · exact (Table.get?_put_of_ne _ hlogger s).trans ho.logger
  unfold Object.put
  -- the engine is no list, so that the property is put among its slots
  split
  next hlist _ =>
    rw [ho.shape] at hlist
    cases hlist
  next =>
    split
    · exact hput _
    · exact hput _

namespace Heap

/-- The fixtures are as they were made, but that they may carry markers and the engine may hold
more. -/
structure Intact (h : Heap) : Prop where
  engine : ∃ o, h[Fixture.engine.ref]? = some o ∧ o.IsEngine
  fixture : ∀ x : Fixture, x ≠ .engine → ∃ o, h[x.ref]? = some o ∧ o.Like x.object

namespace Intact

variable {h : Heap}

/-- Objects that are only added leave the fixtures intact. -/
theorem extends_ {h' : Heap} (hi : h.Intact) (hext : h.Extends h') : h'.Intact := by
  obtain ⟨o, ho, hengine⟩ := hi.engine
  refine ⟨⟨o, hext _ o ho, hengine⟩, fun x hx => ?_⟩
  obtain ⟨o', ho', hlike⟩ := hi.fixture x hx
  exact ⟨o', hext _ o' ho', hlike⟩

/-- So does one more object. -/
theorem push (hi : h.Intact) (o : Object) : Intact (h.push o) := hi.extends_ (h.extends_push o)

/-- What is no fixture may change. -/
theorem update (hi : h.Intact) {v : Value} (hv : Action.alterations v = []) (f : Object → Object) :
    (h.update v f).Intact := by
  cases v with
  | ref r =>
    -- a change of a fixture leaves a mark
    have hr : ¬ Fixture.has r = true := fun hhas => by
      simp only [Action.alterations, if_pos hhas] at hv
      cases hv
    have hsame (x : Fixture) : (h.update (.ref r) f)[x.ref]? = h[x.ref]? := by
      rw [getElem?_update, if_neg]
      rintro ⟨⟩
      exact hr x.has_ref
    refine ⟨?_, fun x hx => ?_⟩
    · rw [hsame]
      exact hi.engine
    · rw [hsame]
      exact hi.fixture x hx
  | _ => exact hi

/-- A change that leaves what the fixtures are. -/
theorem modify (hi : h.Intact) (v : Value) {f : Object → Object} (hf : ∀ o, (f o).Like o) :
    (h.update v f).Intact := by
  -- an object that is frozen is not changed at all
  have hlike (r : Ref) (o : Object) (ho : h[r]? = some o) :
      ∃ o', (h.update v f)[r]? = some o' ∧ o'.Like o := by
    rcases getElem?_update_or v f ho with hsame | ⟨-, hchanged⟩
    · exact ⟨o, hsame, rfl, rfl, rfl⟩
    · exact ⟨f o, hchanged, hf o⟩
  refine ⟨?_, fun x hx => ?_⟩
  · obtain ⟨o, ho, hengine⟩ := hi.engine
    obtain ⟨o', ho', hshape, hparent, hslots⟩ := hlike _ o ho
    exact ⟨o', ho', hshape.trans hengine.shape, hparent.trans hengine.parent,
      hslots ▸ hengine.emit, hslots ▸ hengine.bus, hslots ▸ hengine.logger⟩
  · obtain ⟨o, ho, hx⟩ := hi.fixture x hx
    obtain ⟨o', ho', hshape, hparent, hslots⟩ := hlike _ o ho
    exact ⟨o', ho', hshape.trans hx.shape, hparent.trans hx.parent, hslots.trans hx.slots⟩

/-- So does the mark on a builder. -/
theorem mark (hi : h.Intact) (type builder : Value) : (h.mark type builder).Intact :=
  hi.modify type fun _ => ⟨rfl, rfl, rfl⟩

/-- The engine may hold more. -/
theorem put (hi : h.Intact) {name : Text} (v : Value) (hemit : name ≠ "emit")
    (hbus : name ≠ "eventBus")
    (hlogger : name ≠ "logger") :
      (h.update (.ref Fixture.engine.ref) (Object.put name v)).Intact := by
  obtain ⟨o, ho, hengine⟩ := hi.engine
  have hself : (Value.ref Fixture.engine.ref).ref? = some Fixture.engine.ref := rfl
  refine ⟨⟨if o.frozen = true then o else o.put name v, ?_, ?_⟩, fun x hx => ?_⟩
  · rw [getElem?_update, if_pos hself, ho]
    rfl
  · split
    · exact hengine
    · exact hengine.put v hemit hbus hlogger
  · have hne : ¬ (Value.ref Fixture.engine.ref).ref? = some x.ref := fun heq =>
      hx (Fixture.ref_injective (Option.some.inj heq)).symm
    rw [getElem?_update, if_neg hne]
    exact hi.fixture x hx

/-! ## Reaching the parts of the engine -/

/-- A property that an object inherits from its parent. -/
theorem slot?_inherited {r p : Ref} {o o' : Object} {name : Text} {s : Slot} (hr : h[r]? = some o)
    (hnone : o.own? name = none) (hparent : o.parent = some p) (hp : h[p]? = some o')
    (hs : o'.own? name = some s)
    (hne : r ≠ p) : h.slot? r name = some (o'.guarded s) := by
  have hlt := (Array.getElem?_eq_some_iff.mp hr).1
  have hlt' := (Array.getElem?_eq_some_iff.mp hp).1
  -- there are two objects, so that two of them may be looked at
  have htwo : 2 ≤ h.size := by
    rcases Nat.lt_or_gt_of_ne hne with hlt'' | hgt
    · exact Nat.succ_le_of_lt
        (Nat.lt_of_le_of_lt (Nat.succ_le_of_lt (Nat.zero_lt_of_lt hlt'')) hlt')
    · exact Nat.succ_le_of_lt (Nat.lt_of_le_of_lt (Nat.succ_le_of_lt (Nat.zero_lt_of_lt hgt)) hlt)
  obtain ⟨n, hn⟩ : ∃ n, h.size = n + 2 := ⟨h.size - 2, (Nat.sub_add_cancel htwo).symm⟩
  rw [slot?, hn, slotWithin, hr]
  simp only [hnone, hparent, Option.bind_some]
  rw [slotWithin, hp]
  simp only [hs]

/-- A plain object has the properties it holds, and no others. -/
theorem own?_plain {o : Object} (hshape : o.shape = .plain) (name : Text) :
    o.own? name = o.slots.get? name := by
  unfold Object.own?
  rw [hshape]

/-- Guarding a property does not change its value. -/
theorem value?_guarded {o : Object} {s : Slot} : (o.guarded s).value? = s.value? := by
  cases s <;> rfl

/-- The engine's way to emit events is the operation. -/
theorem emit_found (hi : h.Intact) : ∃ s, h.slot? Fixture.engine.ref Operation.emit.name = some s ∧
    s.value? = some (.ref (Fixture.operation .emit).ref) := by
  obtain ⟨o, ho, hengine⟩ := hi.engine
  obtain ⟨o', ho', hlike⟩ := hi.fixture .engineTemplate nofun
  have hown : o'.own? Operation.emit.name = some
      (.hidden (.ref (Fixture.operation .emit).ref)) := by
    rw [own?_plain hlike.shape, hlike.slots]
    rfl
  -- the engine has no such property itself, and its template has
  refine ⟨_, slot?_inherited ho ?_ hengine.parent ho' hown (by decide), value?_guarded⟩
  exact (own?_plain hengine.shape _).trans hengine.emit

/-- The engine still leads to its bus. -/
theorem bus_found (hi : h.Intact) : ∃ s, h.slot? Fixture.engine.ref "eventBus" = some s ∧
    s.value? = some (.ref Fixture.bus.ref) := by
  obtain ⟨o, ho, hengine⟩ := hi.engine
  exact ⟨_, slot?_own ho ((own?_plain hengine.shape _).trans hengine.bus), value?_guarded⟩

/-- It still leads to its logger. -/
theorem logger_found (hi : h.Intact) : ∃ s, h.slot? Fixture.engine.ref "logger" = some s ∧
    s.value? = some (.ref Fixture.logger.ref) := by
  obtain ⟨o, ho, hengine⟩ := hi.engine
  exact ⟨_, slot?_own ho ((own?_plain hengine.shape _).trans hengine.logger), value?_guarded⟩

/-- The bus's way to deliver events is the operation. -/
theorem publish_found (hi : h.Intact) :
    ∃ s, h.slot? Fixture.bus.ref Operation.publish.name = some s ∧
    s.value? = some (.ref (Fixture.operation .publish).ref) := by
  obtain ⟨o, ho, hlike⟩ := hi.fixture .bus nofun
  have hown : o.own? Operation.publish.name = some
      (.hidden (.ref (Fixture.operation .publish).ref)) := by
    rw [own?_plain hlike.shape, hlike.slots]
    rfl
  exact ⟨_, slot?_own ho hown, value?_guarded⟩

/-- The logger writes at each level by its own method. -/
theorem logging_found (hi : h.Intact) (level : Level) :
    ∃ s, h.slot? Fixture.logger.ref level.name = some s ∧
    s.value? = some (.ref (Fixture.logging level).ref) := by
  obtain ⟨o, ho, hlike⟩ := hi.fixture .logger nofun
  have hown : o.own? level.name = some (.ordinary (.ref (Fixture.logging level).ref)) := by
    rw [own?_plain hlike.shape, hlike.slots]
    cases level <;> rfl
  exact ⟨_, slot?_own ho hown, value?_guarded⟩

/-- What the engine offers still does what it should. -/
theorem callable?_operation (hi : h.Intact) (o : Operation) :
    h.callable? (.ref (Fixture.operation o).ref) = some (.operation o) := by
  obtain ⟨x, hx, hlike⟩ := hi.fixture (.operation o) nofun
  simp only [callable?, shape?, object?, hx, Option.map_some, hlike.shape]
  rfl

/-- So do the methods of the logger. -/
theorem callable?_logging (hi : h.Intact) (level : Level) :
    h.callable? (.ref (Fixture.logging level).ref) = some (.logging level) := by
  obtain ⟨x, hx, hlike⟩ := hi.fixture (.logging level) nofun
  simp only [callable?, shape?, object?, hx, Option.map_some, hlike.shape]
  rfl

end Intact

/-! ## The heap that every world begins with -/

/-- The fixtures stand behind the objects of a realm, and others behind them. -/
theorem fixture_initial (others : List Object) (x : Fixture) :
    (Realm.main.objects ++ Fixture.objects ++ others).toArray[x.ref]? = some x.object := by
  have hlt : Fixture.all.idxOf x < Fixture.all.length := List.idxOf_lt_length_iff.mpr x.mem_all
  have hlength : Fixture.objects.length = Fixture.all.length := List.length_map _
  rw [List.getElem?_toArray, List.append_assoc, List.getElem?_append_right (by
    rw [Realm.length_objects]
    exact Nat.le_add_right _ _), Realm.length_objects]
  -- the fixtures are counted from behind the objects of the realm
  have hindex : x.ref - Realm.size = Fixture.all.idxOf x := Nat.add_sub_cancel_left _ _
  rw [hindex, List.getElem?_append_left (by rw [hlength]; exact hlt),
    Fixture.objects, List.getElem?_map,
    List.getElem?_eq_getElem hlt, List.getElem_idxOf]
  rfl

/-- The fixtures are intact at the start, whatever else is there. -/
theorem intact_initial (others : List Object) :
    Intact (Realm.main.objects ++ Fixture.objects ++ others).toArray :=
  ⟨⟨_, fixture_initial others .engine, rfl, rfl, rfl, rfl, rfl⟩, fun x _ =>
    ⟨_, fixture_initial others x, rfl, rfl, rfl⟩⟩

end Heap

end EvalPlan

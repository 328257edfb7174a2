import EvalPlan.Proofs.Defaults

/-!
# Starting an engine

An engine that starts gives its object the namespaces that type names may leave out, loads the
default builders, and says how many there are. The object takes a property under a name that decides
nothing about classes (`Heap.isBuilder_put`), so that the engine is as it was made after that, too
(`World.Furnished.provided`), and what a row of a manifest stands for is the same. Hence what
starting comes to is what loading does, with the event behind it (`startEngine_settles`).
-/

namespace EvalPlan

/-! ## Properties under other names -/

namespace Object

variable {key name : Text}

/-- A property whose name is no index is put among the slots. -/
theorem put_slots (hkey : key.toIndex? = none) (x : Value) (o : Object) :
    ∃ s, o.put key x = { o with slots := o.slots.put key s } := by
  unfold put
  rw [hkey]
  split
  next hindex => cases hindex
  next => split <;> exact ⟨_, rfl⟩

/-- Writing one property changes no other one of the object. -/
theorem own?_put (hkey : key.toIndex? = none) (hname : name ≠ key) (x : Value) (o : Object) :
    (o.put key x).own? name = o.own? name := by
  obtain ⟨s, hput⟩ := put_slots hkey x o
  rw [hput]
  unfold own?
  simp only [Table.get?_put_of_ne o.slots (Ne.symm hname) s]

end Object

namespace Heap

variable {h : Heap} {key name : Text}

/-- A change makes no objects. -/
theorem size_update (h : Heap) (v : Value) (f : Object → Object) :
    (h.update v f).size = h.size := by
  cases v with
  | ref r => exact Array.size_modify
  | _ => rfl

/-- An object after one of them took a property: what it is, what it inherits from and what it has
under another name are as they were. -/
theorem exists_getElem?_put (hkey : key.toIndex? = none) (v x : Value) {r : Ref} {o : Object}
    (hr : h[r]? = some o) : ∃ o', (h.update v (Object.put key x))[r]? = some o' ∧
      o'.shape = o.shape ∧ o'.parent = o.parent ∧ o'.frozen = o.frozen ∧
      ∀ name, name ≠ key → o'.own? name = o.own? name := by
  rcases getElem?_update_or v (Object.put key x) hr with hsame | ⟨-, hchanged⟩
  · exact ⟨o, hsame, rfl, rfl, rfl, fun _ _ => rfl⟩
  · refine ⟨o.put key x, hchanged, ?_, ?_, ?_, fun _ hname => Object.own?_put hkey hname x o⟩ <;>
      obtain ⟨s, hput⟩ := Object.put_slots hkey x o <;> rw [hput]

/-- Where no object was there is none. -/
theorem getElem?_put_none (v x : Value) {r : Ref} (hr : h[r]? = none) :
    (h.update v (Object.put key x))[r]? = none := by
  rw [getElem?_update, hr]
  split <;> rfl

section put

variable (hkey : key.toIndex? = none) (v x : Value)

include hkey

/-- Searches for other names find what they found, by induction on their length. -/
theorem slotWithin_put (hname : name ≠ key) (n : Nat) (r : Ref) :
    (h.update v (Object.put key x)).slotWithin name n r = h.slotWithin name n r := by
  induction n generalizing r with
  | zero => rfl
  | succ n ih =>
    rw [slotWithin, slotWithin]
    cases hr : h[r]? with
    | none => rw [getElem?_put_none v x hr]
    | some o =>
      obtain ⟨o', ho', -, hparent, hfrozen, hown⟩ := exists_getElem?_put hkey v x hr
      have hguarded (s : Slot) : o'.guarded s = o.guarded s := by
        cases s <;> simp [Object.guarded, hfrozen]
      rw [ho']
      simp only [hown name hname, hguarded, hparent, funext ih]

/-- So do searches from any value. -/
theorem find?_put (hname : name ≠ key) (realm : Realm) (u : Value) :
    (h.update v (Object.put key x)).find? realm u name = h.find? realm u name := by
  have hslot (r : Ref) : (h.update v (Object.put key x)).slot? r name = h.slot? r name := by
    rw [slot?, slot?, size_update, slotWithin_put hkey v x hname]
  unfold find?
  simp only [hslot]

/-- Shapes stay. -/
theorem shape?_put (u : Value) : (h.update v (Object.put key x)).shape? u = h.shape? u := by
  cases u with
  | ref r =>
    simp only [shape?, object?]
    cases hr : h[r]? with
    | none => rw [getElem?_put_none v x hr]
    | some o =>
      obtain ⟨o', ho', hshape, -⟩ := exists_getElem?_put hkey v x hr
      rw [ho', Option.map_some, Option.map_some, hshape]
  | _ => rfl

/-- What can be called stays. -/
theorem isCallable_put (u : Value) : (h.update v (Object.put key x)).isCallable u =
    h.isCallable u := by
  rw [isCallable, isCallable, callable?, callable?, shape?_put hkey]

/-- So do the templates of instances, if they are not what is written. -/
theorem template?_put (hname : "prototype" ≠ key) (u : Value) :
    (h.update v (Object.put key x)).template? u = h.template? u := by
  have hobject (t : Value) : (h.update v (Object.put key x)).isObject t = h.isObject t := by
    have hshape := congrArg Option.isSome (shape?_put (h := h) hkey v x t)
    rw [shape?, shape?, Option.isSome_map, Option.isSome_map] at hshape
    rw [isObject, isObject, hshape, isCallable_put hkey]
  unfold template?
  simp only [isCallable_put hkey, value?, find?_put hkey v x hname, hobject]

/-- Whether a class is a builder is not decided by other properties. -/
theorem isBuilder_put (hprototype : "prototype" ≠ key) (hbuild : "build" ≠ key) (u : Value) :
    (h.update v (Object.put key x)).isBuilder u = h.isBuilder u := by
  unfold isBuilder hasMethod
  simp only [template?_put hkey v x hprototype, value?, find?_put hkey v x hbuild,
    isCallable_put hkey]

/-- The templates of objects end where they did. -/
theorem endsWithin_put (n : Nat) (r : Ref) :
    (h.update v (Object.put key x)).endsWithin n r = h.endsWithin n r := by
  induction n generalizing r with
  | zero => rfl
  | succ n ih =>
    rw [endsWithin, endsWithin]
    cases hr : h[r]? with
    | none => rw [getElem?_put_none v x hr]
    | some o =>
      obtain ⟨o', ho', -, hparent, -⟩ := exists_getElem?_put hkey v x hr
      rw [ho']
      simp only [hparent, ih]

/-- So templates still come before their objects. -/
theorem Rooted.put (hrooted : h.Rooted) : (h.update v (Object.put key x)).Rooted := by
  intro r hr
  rw [size_update] at hr ⊢
  rw [endsWithin_put hkey]
  exact hrooted r hr

end put

/-- The objects that an engine has from its realm are there. -/
theorem Intact.template_lt (hi : h.Intact) : Realm.main.template .list < h.size := by
  obtain ⟨o, ho, -⟩ := hi.engine
  obtain ⟨hlt, -⟩ := Array.getElem?_eq_some_iff.mp ho
  exact Nat.lt_of_le_of_lt (by decide) hlt

end Heap

/-! ## The engine's object -/

namespace World

/-- The list of the namespaces that an engine imports. -/
def importsList (host : Host) : Object :=
  .empty (.ofItems (host.imports.map Value.text)) (some (Realm.main.template .list))

/-- The world after the engine's object was given its imports. -/
def provided (w : World) (host : Host) : World :=
  { w.adding (importsList host) with
    heap := (w.adding (importsList host)).heap.update (.ref host.role.facade)
      (Object.put "imports" (.ref w.heap.size)) }

variable {host : Host} {w : World}

/-- The list of imports is no class. -/
theorem gains_adding (w : World) (host : Host) : w.heap.Gains (w.adding (importsList host)).heap :=
  w.heap.gains_push nofun

/-- With it there are as many builders as before. -/
theorem Furnished.isBuilder_provided (hw : w.Furnished) {v : Value} (hv : w.heap.isType v = true) :
    (w.provided host).heap.isBuilder v = w.heap.isBuilder v :=
  (Heap.isBuilder_put (by decide) _ _ (by decide) (by decide) v).trans
    (Heap.isBuilder_eq hw.rooted (w.gains_adding host) hv)

/-- Giving the engine's object its imports leaves the engine as it was made. -/
theorem Furnished.provided (hw : w.Furnished) (hrole : host.role = .engine) :
    (w.provided host).Furnished := by
  have hadded : (w.adding (importsList host)).Quiet := hw.quiet.adding (Object.holdsName_empty _ _)
  have hrooted : (w.adding (importsList host)).heap.Rooted := by
    -- the list inherits from an object that was there before
    have hparents : ∀ o ∈ #[importsList host], ∀ p, o.parent = some p → p < w.heap.size := by
      intro o ho p hp
      rw [List.mem_toArray, List.mem_singleton] at ho
      subst ho
      cases hp
      exact hw.quiet.intact.template_lt
    rw [adding, ← Array.append_singleton]
    exact hw.rooted.append _ hparents
  refine ⟨⟨?_, ?_, hw.quiet.ordered, hw.quiet.mild⟩, hrooted.put (by decide) _ _,
    fun row hrow => ?_, hw.whole⟩
  · rw [World.provided, hrole]
    exact hadded.intact.put _ (by decide) (by decide) (by decide)
  · exact hadded.named.update _ (Action.gentle_put _ _).name
  · -- "imports" is not the name that a class has its template under
    obtain ⟨t, ht⟩ := Heap.isType_iff.mp (hw.classes row hrow)
    refine Heap.isType_iff.mpr ⟨t, ?_⟩
    rw [World.provided, Heap.template?_put (by decide) _ _ (by decide)]
    exact Heap.template?_extends (w.gains_adding host).kept ht

/-- Rows of manifests stand for the same as before. -/
theorem Furnished.pair?_provided (hw : w.Furnished) (host : Host) :
    (w.provided host).pair? = w.pair? := by
  funext row
  unfold pair?
  rw [show (w.provided host).types = w.types from rfl]
  split
  next type builder htype hbuilder =>
    obtain ⟨name, -, hmem⟩ := Table.mem_of_get? hbuilder
    rw [hw.isBuilder_provided (hw.classes _ hmem)]
  next => rfl

end World

/-! ## Starting -/

open EvalPlan.Action (startEngine loadDefaults emit audience)

variable {w : World}

/-- What is said of the number of default builders. -/
def loadedData (registered : Nat) : Portrait :=
  .object (some "Object") [("registered", .number (Float.ofNat registered))]

/-- The engine keeps its list of imports, loads the defaults and tells how many there are. -/
theorem Action.run_startEngine (host : Host) (ev : Evaluator) (w : World) :
    ExceptT.run (startEngine host ev) w = ExceptT.run (do
      let registered ← loadDefaults host ev
      emit host ev "defaults:loaded" [("registered", Value.ofNat registered)] none)
        (w.provided host) := rfl

/-- An engine that starts over manifests that can be read registers the builders that their rows
name, and tells those who observe its events how many rows there were. -/
theorem startEngine_settles (host : Host) (ev : Evaluator) (hw : w.Furnished)
    (hrole : host.role = .engine) {texts : List Text}
    (hread : List.Forall₂ (fun r t => r.read w.files = .ok t)
      (w.resources.find w.files Manifest.buildersPath) texts)
    (hrows : host.onRegister.failure? = none ∨ ∀ row ∈ mergeManifests texts, w.pair? row = none) :
    ∃ (w' : World) (event : Event) (earlier : List Notice),
      ExceptT.run (startEngine host ev) w = (.ok ⟨⟩, w') ∧
      w'.mappings = w.mappings.putAll ((mergeManifests texts).filterMap w.pair?) ∧
      event.type = "defaults:loaded" ∧ event.run = none ∧
      event.data = some (loadedData ((mergeManifests texts).filterMap w.pair?).length) ∧
      w'.notices = earlier ++ (audience w event).flatMap (Subscriber.leaves event) := by
  have hprovided := hw.provided hrole
  rw [← hw.pair?_provided host] at hrows ⊢
  obtain ⟨parts, w₁, hload, hcont, hmappings, -, -⟩ :=
    loadDefaults_settles host ev hprovided (fun _ => hrole) hread hrows
  obtain ⟨event, hname, hrun, hdata, hemit⟩ :=
    Action.run_emit ev hcont.quiet hrole "defaults:loaded"
    [("registered", Value.ofNat ((mergeManifests texts).filterMap (w.provided host).pair?).length)] none
  -- the subscribers are those that there were before
  have haudience : audience w₁ event = audience w event := by
    simp only [audience, hcont.bus]
    rfl
  rw [haudience] at hemit
  refine ⟨w₁.telling event (audience w event), event, w₁.notices, ?_, hmappings, hname, hrun, hdata,
    rfl⟩
  rw [Action.run_startEngine, Action.run_bind_ok hload, hemit]

end EvalPlan

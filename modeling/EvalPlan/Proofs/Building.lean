import EvalPlan.Proofs.Defaults

/-!
# Builders of the domain at work

What the methods of the builders come to, once it is known what a builder holds. A builder is any
value that finds the methods under their names (`Heap.Offers`) and holds something as its name, its
source and its metrics (`Heap.BuildsTasks`), wherever it got them from.

The steps of building a task are settled one after another: the source (`run_requireSource`), the
metrics (`run_requireMetrics_items` and what follows it), the task (`run_makeTask`). Nothing but the
conversion of a name to text can run other code here, and only for a refusal.
-/

namespace EvalPlan

open EvalPlan.Action

/-! ## What builders hold -/

namespace Heap

variable {h h' : Heap} {v : Value}

/-- The value finds a method of the domain under the name of the method. -/
def Offers (h : Heap) (v : Value) (m : DomainMethod) : Prop :=
  ∃ f, h.value? v m.name = some f ∧ h.callable? f = some (.method (.domain m))

/-- A function is the same function in every heap that extends this one. -/
theorem callable?_extends (hext : h.Extends h') {c : Callable} (hc : h.callable? v = some c) :
    h'.callable? v = some c := by
  cases ho : h.object? v with
  | none => simp [callable?, shape?, ho] at hc
  | some o => simpa [callable?, shape?, ho, object?_extends hext ho] using hc

/-- A method on offer is still on offer. -/
theorem Offers.extends_ {m : DomainMethod} (hoffers : h.Offers v m) (hext : h.Extends h') :
    h'.Offers v m := by
  obtain ⟨f, hf, hc⟩ := hoffers
  exact ⟨f, value?_extends hext hf, callable?_extends hext hc⟩

/-- What does something when it is called can be called. -/
theorem isCallable_of_callable? {c : Callable} (hc : h.callable? v = some c) :
    h.isCallable v = true := by
  rw [isCallable, hc, Option.isSome_some]

/-- What reading a property gives where this calls nothing. -/
def reading (h : Heap) (v : Value) (name : Text) : Value := (h.value? v name).getD .undefined

/-- Reading a property calls nothing. -/
def Still (h : Heap) (v : Value) (name : Text) : Prop :=
  ∀ getter setter, h.find? .main v name ≠ some (.computed getter setter)

/-- The value builds tasks by the methods of the domain, and holds what tasks are built from. -/
structure BuildsTasks (h : Heap) (b name source metrics : Value) : Prop where
  /-- What it holds as its name. -/
  name : h.value? b "name" = some name
  /-- What it holds as its source. -/
  source : h.value? b "source" = some source
  /-- What it holds as its metrics. -/
  metrics : h.value? b "metrics" = some metrics
  /-- It checks its source as task builders do. -/
  requireSource : h.Offers b .requireSource
  /-- It checks its metrics as task builders do. -/
  requireMetrics : h.Offers b .requireMetrics

/-- A value that builds tasks still does, with the same parts. -/
theorem BuildsTasks.extends_ {b name source metrics : Value}
    (hb : h.BuildsTasks b name source metrics) (hext : h.Extends h') :
    h'.BuildsTasks b name source metrics where
  name := value?_extends hext hb.name
  source := value?_extends hext hb.source
  metrics := value?_extends hext hb.metrics
  requireSource := hb.requireSource.extends_ hext
  requireMetrics := hb.requireMetrics.extends_ hext

/-- What going through a list of a length gives, position by position. -/
def itemsOf (h : Heap) (v : Value) (length : Nat) : List Value := (List.range length).map (h.item v)

/-- Items are taken all together or not at all. -/
theorem itemsIf_eq (valid : Value → Bool) (n i : Nat) :
    h.itemsIf valid v n i =
      if ((List.range' i n).map (h.item v)).all valid then some ((List.range' i n).map (h.item v))
      else none := by
  induction n generalizing i with
  | zero => rfl
  | succ n ih =>
    simp only [itemsIf, ih, List.range'_succ, List.map_cons, List.all_cons]
    cases valid (h.item v i) with
    | false => rfl
    | true =>
      simp only [if_true, Bool.true_and]
      split <;> rfl

/-- From the first position on these are all items of the list. -/
theorem itemsIf_zero (valid : Value → Bool) (length : Nat) :
    h.itemsIf valid v length 0 =
      if (h.itemsOf v length).all valid then some (h.itemsOf v length) else none := by
  rw [itemsIf_eq, itemsOf, List.range_eq_range']

/-- What reading all items of a list gives, if the value is one. -/
def readList? (h : Heap) (v : Value) : Option (List Value) :=
  match h.shape? v with
  | some (.list _ length) => some (h.itemsOf v length)
  | _ => none

/-- If the value refers to an object, the object is there. -/
def Knows (h : Heap) (v : Value) : Prop := ∀ r, v = .ref r → r < h.size

/-- A list is read with as many items as it has length. -/
theorem readList?_eq_some {items : List Value} :
    h.readList? v = some items ↔
      ∃ cells length, h.shape? v = some (.list cells length) ∧ items = h.itemsOf v length := by
  unfold readList?
  split
  next cells length hshape =>
    constructor
    · rintro ⟨⟩
      exact ⟨cells, length, hshape, rfl⟩
    · rintro ⟨cells', length', hshape', rfl⟩
      cases hshape.symm.trans hshape'
      rfl
  next hshape =>
    refine ⟨nofun, ?_⟩
    rintro ⟨cells, length, hlist, -⟩
    exact absurd hlist (hshape cells length)

/-- The values that are read as lists are the lists. -/
theorem isList_eq_isSome (h : Heap) (v : Value) : h.isList v = (h.readList? v).isSome := by
  unfold isList readList?
  cases h.shape? v with
  | none => rfl
  | some s => cases s <;> rfl

/-! ### Heaps that grow

What was there is an instance of the same classes and is gone through as before, and lists read the
same. -/

section growing

variable (hext : h.Extends h')

include hext

/-- The shape of an object is the same in every heap that extends this one. -/
theorem shape?_extends {s : Shape} (hs : h.shape? v = some s) : h'.shape? v = some s := by
  obtain ⟨o, ho, rfl⟩ := Option.map_eq_some_iff.mp hs
  rw [shape?, object?_extends hext ho]
  rfl

/-- Where the templates of an object end, a longer search finds the same. -/
theorem inheritsWithin_eq {ancestor : Ref} {n n' : Nat} (hle : n ≤ n') {r : Ref}
    (hr : h.endsWithin n r = true) :
    h'.inheritsWithin ancestor n' r = h.inheritsWithin ancestor n r := by
  induction n generalizing n' r with
  | zero => cases hr
  | succ n ih =>
    obtain ⟨m, rfl⟩ : ∃ m, n' = m + 1 := Nat.exists_eq_add_one.mpr (by omega)
    cases ho : h[r]? with
    | none => simp [endsWithin, ho] at hr
    | some o =>
      simp only [inheritsWithin, ho, hext r o ho, Option.bind_some]
      cases hparent : o.parent with
      | none => rfl
      | some p =>
        simp only [endsWithin, ho, hparent] at hr
        have hrest := ih (Nat.le_of_succ_le_succ hle) hr
        simp only [hrest]

/-- So does a longer walk over its items. -/
theorem walkWithin_eq {n n' : Nat} (hle : n ≤ n') {r : Ref} (hr : h.endsWithin n r = true) :
    h'.walkWithin n' r = h.walkWithin n r := by
  induction n generalizing n' r with
  | zero => cases hr
  | succ n ih =>
    obtain ⟨m, rfl⟩ : ∃ m, n' = m + 1 := Nat.exists_eq_add_one.mpr (by omega)
    cases ho : h[r]? with
    | none => simp [endsWithin, ho] at hr
    | some o =>
      simp only [walkWithin, ho, hext r o ho]
      split
      · rfl
      · cases hparent : o.parent with
        | none => rfl
        | some p =>
          simp only [endsWithin, ho, hparent] at hr
          exact ih (by omega) hr

variable (hrooted : h.Rooted)

include hrooted

/-- A value that is known belongs to the same classes later. -/
theorem isKin_eq (hv : h.Knows v) (k : Kin) : h'.isKin v k = h.isKin v k := by
  cases v with
  | ref r => exact inheritsWithin_eq hext (size_le_of_extends hext) (hrooted r (hv r rfl))
  | _ => rfl

/-- It is gone through in the same way later. -/
theorem walk?_eq (hv : h.Knows v) : h'.walk? v = h.walk? v := by
  cases v with
  | ref r => exact walkWithin_eq hext (size_le_of_extends hext) (hrooted r (hv r rfl))
  | _ => rfl

/-- It has the same items later. -/
theorem itemsOf_eq {o : Object} (ho : h.object? v = some o) (length : Nat) :
    h'.itemsOf v length = h.itemsOf v length := by
  unfold itemsOf item
  simp only [value?_eq hrooted hext ho]

end growing

/-! ### Objects that hold values -/

/-- A property of the object's own is what is read first. -/
theorem value?_own {r : Ref} {o : Object} {name : Text} {x : Value} {shown fixed : Bool}
    (hr : h[r]? = some o) (hx : o.own? name = some (.data x shown fixed)) :
    h.value? (.ref r) name = some x := by
  rw [value?, find?, slot?_own hr hx]
  rfl

/-- An object that has no property of its own under a name has the one of its parent. -/
theorem slot?_of_parent {h₀ : Heap} (hext : h₀.Extends h) {r p : Ref} {o : Object} {name : Text}
    {s : Slot} {n : Nat}
    (hn : n < h.size) (hr : h[r]? = some o) (hown : o.own? name = none)
    (hparent : o.parent = some p)
    (hs : h₀.slotWithin name n p = some s) : h.slot? r name = some s := by
  obtain ⟨m, hm⟩ : ∃ m, h.size = m + 1 := Nat.exists_eq_add_one.mpr (Nat.zero_lt_of_lt hn)
  have hinherited := slotWithin_extends hext (show n ≤ m by omega) hs
  simp only [slot?, hm, slotWithin, hr, hown, hparent, Option.bind_some, hinherited]

/-- What is an object of the heap is known to it. -/
theorem knows_of_object? {o : Object} (ho : h.object? v = some o) : h.Knows v := by
  rintro r rfl
  exact (Array.getElem?_eq_some_iff.mp ho).1

/-- The newest object is at the end. -/
theorem getElem?_push_self (h : Heap) (o : Object) : (h.push o)[h.size]? = some o := by simp

/-- A new error has the kind it was made with. -/
theorem errorKind?_push_self {o : Object} {kind : ErrorKind} (ho : o.shape = .error kind) :
    Heap.errorKind? (h.push o) (.ref h.size) = some kind := by
  simp only [errorKind?, shape?, object?, getElem?_push_self, Option.map_some, ho]

/-- Adding what is no list leaves what is one. -/
theorem isList_push {o : Object} (ho : ∀ cells length, o.shape ≠ .list cells length) :
    Heap.isList (h.push o) v = h.isList v := by
  cases v with
  | ref r =>
    have hget : Heap.object? (h.push o) (.ref r) =
        if r = h.size then some o else h.object? (.ref r) :=
      Array.getElem?_push
    unfold isList shape?
    by_cases hr : r = h.size
    · have hnone : h.object? (.ref r) = none := Array.getElem?_eq_none (Nat.le_of_eq hr.symm)
      rw [hget, if_pos hr, hnone]
      cases hshape : o.shape with
      | list cells length => exact absurd hshape (ho cells length)
      | _ => simp [hshape]
    · rw [hget, if_neg hr]
  | _ => rfl

/-- An object inherits from its template. -/
theorem inherits_of_parent {r p : Ref} {o : Object} (hr : h[r]? = some o)
    (hparent : o.parent = some p) : h.inherits (.ref r) p = true := by
  obtain ⟨n, hn⟩ : ∃ n, h.size = n + 1 :=
    Nat.exists_eq_add_one.mpr (Nat.zero_lt_of_lt (Array.getElem?_eq_some_iff.mp hr).1)
  simp [inherits, hn, inheritsWithin, hr, hparent]

/-- It belongs to the class of its template. -/
theorem isKin_of_parent {r : Ref} {o : Object} {k : Kin} (hr : h[r]? = some o)
    (hparent : o.parent = some k.template) : h.isKin (.ref r) k = true :=
  inherits_of_parent hr hparent

/-- An instance of a class is one of the class that this extends. -/
theorem isKin_of_base {r p : Ref} {o q : Object} {k : Kin} (hr : h[r]? = some o)
    (ho : o.parent = some p)
    (hp : h[p]? = some q) (hq : q.parent = some k.template) (hlt : p < r) :
    h.isKin (.ref r) k = true := by
  have hsize : r < h.size := (Array.getElem?_eq_some_iff.mp hr).1
  have htwo : 2 ≤ h.size := Nat.lt_of_le_of_lt (Nat.succ_le_of_lt (Nat.zero_lt_of_lt hlt)) hsize
  obtain ⟨n, hn⟩ : ∃ n, h.size = n + 2 := Nat.exists_eq_add_of_le' htwo
  simp [isKin, inherits, hn, inheritsWithin, hr, ho, hp, hq]

/-- What says nothing of it is gone through as its parent is. -/
theorem walk?_of_parent {r p : Ref} {o q : Object} {k : Walk} (hr : h[r]? = some o)
    (ho : o.walk = none)
    (hparent : o.parent = some p) (hlt : p < r) (hp : h[p]? = some q) (hq : q.walk = some k) :
    h.walk? (.ref r) = some k := by
  have hsize : r < h.size := (Array.getElem?_eq_some_iff.mp hr).1
  have htwo : 2 ≤ h.size := Nat.lt_of_le_of_lt (Nat.succ_le_of_lt (Nat.zero_lt_of_lt hlt)) hsize
  obtain ⟨n, hn⟩ : ∃ n, h.size = n + 2 := Nat.exists_eq_add_of_le' htwo
  simp only [walk?, hn, walkWithin, hr, ho, hparent, Option.bind_some, hp, hq]

end Heap

/-- The templates of the objects that stand at the start come before them. -/
theorem Domain.rooted_heap : Domain.heap.Rooted := by decide +kernel

/-! ## Running the parts -/

/-- What refusing a problem comes to. -/
def World.refusing {α : Type} (w : World) (p : Problem) : Except Value α × World :=
  (.error (.ref w.heap.size), w.adding (problemObject p))

/-- What refusing a problem comes to that says a name: whatever converting the name throws, or the
refusal. -/
def World.refusingNamed {α : Type} (w : World) (ev : Evaluator) (name : Value)
    (p : Text → Problem) : Except Value α × World :=
  match ExceptT.run (Domain.wordsOf ev name) w with
  | (.ok t, w') => w'.refusing (p t)
  | (.error thrown, w') => (.error thrown, w')

namespace World

variable {α : Type} {w w' : World} {ev : Evaluator} {name : Value} {p : Text → Problem}

/-- Where the name can be put into words, the refusal says it. -/
theorem refusingNamed_ok {t : Text} (h : ExceptT.run (Domain.wordsOf ev name) w = (.ok t, w')) :
    (w.refusingNamed ev name p : Except Value α × World) = w'.refusing (p t) := by
  unfold refusingNamed
  rw [h]

end World

/-- A problem of the configuration that says a name is refused. -/
structure World.Refused {α : Type} (w : World) (ev : Evaluator) (name : Value) (p : Text → Problem)
    (outcome : Except Value α × World) : Prop where
  /-- Where the name has a text, the problem is thrown, and nothing changes but what converting the
  name changes. -/
  said : ∀ t w', ExceptT.run (Domain.wordsOf ev name) w = (.ok t, w') →
    ∃ thrown, outcome = (.error thrown, w'.adding (problemObject (p t))) ∧
      outcome.2.heap.errorKind? thrown = some .configuration ∧
      outcome.2.heap.text? thrown "message" = some (p t).message
  /-- Where the name is no object, nothing that was there changes. -/
  untouched : (∀ r, name ≠ .ref r) → w.heap.Extends outcome.2.heap
  /-- There is no answer. -/
  unanswered : ∀ a, outcome.1 ≠ .ok a

/-- An error of the host's own is thrown, and nothing that was there changes. -/
def World.Fails {α : Type} (w : World) (outcome : Except Value α × World) : Prop :=
  w.heap.Extends outcome.2.heap ∧
    ∃ thrown, outcome.1 = .error thrown ∧ outcome.2.heap.errorKind? thrown = some .type

namespace World

variable {α : Type} {w w' : World} {ev : Evaluator} {name : Value} {p : Text → Problem}

/-- An error that was just made is a failure. -/
theorem fails_adding (w : World) (message : Text) :
    w.Fails ((.error (.ref w.heap.size), w.adding (errorObject .type .main (some message))) :
      Except Value α × World) :=
  ⟨w.heap.extends_push _, _, rfl, Heap.errorKind?_push_self rfl⟩

/-- Converting a value that is no object changes nothing that was there. -/
theorem extends_wordsOf (hname : ∀ r, name ≠ .ref r) :
    w.heap.Extends (ExceptT.run (Domain.wordsOf ev name) w).2.heap := by
  cases name with
  | ref r => exact absurd rfl (hname r)
  | symbol => exact w.heap.extends_push _
  | bool b => cases b <;> exact fun _ _ hr => hr
  | _ => exact fun _ _ hr => hr

/-- The message of a problem is the message of its error. -/
theorem own?_message (p : Problem) :
    (problemObject p).own? "message" = some (.hidden (.text p.message)) :=
  rfl

/-- A refusal is a configuration error if its problem is one. -/
theorem refused_refusingNamed (hp : ∀ t, (p t).kind = .configuration) :
    w.Refused ev name p (w.refusingNamed ev name p : Except Value α × World) where
  said t w' hwords := by
    rw [refusingNamed_ok hwords]
    refine ⟨.ref w'.heap.size, rfl, Heap.errorKind?_push_self (congrArg Shape.error (hp t)), ?_⟩
    have hmessage := Heap.value?_own (w'.heap.getElem?_push_self _) (own?_message (p t))
    exact congrArg (Option.bind · Value.text?) hmessage
  untouched hname := by
    have hwords : w.heap.Extends (ExceptT.run (Domain.wordsOf ev name) w).2.heap :=
      extends_wordsOf hname
    unfold refusingNamed
    split
    next t w' hrun =>
      rw [hrun] at hwords
      exact fun r o hr => w'.heap.extends_push _ r o (hwords r o hr)
    next thrown w' hrun =>
      rw [hrun] at hwords
      exact hwords
  unanswered a := by
    unfold refusingNamed
    split <;> nofun

end World

namespace Action

open Domain

variable {α : Type} {w : World} {ev : Evaluator} {host : Host} {n : Nat}
  {b name source metrics : Value}

/-- What has a property is neither `undefined` nor `null`. -/
theorem isNullish_of_value? {h : Heap} {v x : Value} {name : Text} (hx : h.value? v name = some x) :
    v.isNullish = false := by
  cases v <;> first | rfl | cases hx

/-- Reading what a value holds gives it. -/
theorem run_read {v x : Value} {name : Text} (hx : w.heap.value? v name = some x) :
    ExceptT.run (read ev v name) w = (.ok x, w) := by
  obtain ⟨s, hs, hsx⟩ := Option.bind_eq_some_iff.mp hx
  exact run_property (isNullish_of_value? hx) hs hsx

/-- Reading a property that calls nothing gives it; the properties of objects are the same for the
code of all realms. -/
theorem run_property_still {realm : Realm} {v : Value} {name : Text}
    (hnullish : v.isNullish = false)
    (hstill : w.heap.Still v name)
    (hrealm : w.heap.find? realm v name = w.heap.find? .main v name) :
    ExceptT.run (property ev realm v name) w = (.ok (w.heap.reading v name), w) := by
  unfold property
  rw [if_neg (by simp [hnullish]), run_bind_ok (run_heap w), hrealm]
  unfold Heap.reading Heap.value?
  cases hslot : w.heap.find? .main v name with
  | none => rfl
  | some slot =>
    cases slot with
    | data x shown fixed => rfl
    | computed getter setter => exact absurd hslot (hstill getter setter)

/-- Nothing has no properties. -/
theorem run_property_nullish {realm : Realm} {v : Value} {name : Text}
    (hnullish : v.isNullish = true) :
    ExceptT.run (property ev realm v name) w = (.error (.ref w.heap.size),
      w.adding (errorObject .type realm (some "a property of nothing is read"))) := by
  unfold property
  rw [if_pos hnullish]
  rfl

/-- Calling a method that a value holds calls it on the value. -/
theorem run_invoke_held {v f : Value} {name : Text} {arguments : List Value}
    (hf : w.heap.value? v name = some f) (hcallable : w.heap.isCallable f = true) :
    ExceptT.run (invoke ev .main v name arguments) w = ExceptT.run (ev.call f v arguments) w := by
  have hread : ExceptT.run (property ev .main v name) w = (.ok f, w) := run_read hf
  unfold invoke
  rw [run_bind_ok hread]
  unfold callProperty
  rw [run_bind_ok (run_heap w), if_pos hcallable]

/-- Calling a standard function carries it out. -/
theorem run_call_standard {f this : Value} {g : Standard} {home : Realm} {arguments : List Value}
    (hf : w.heap.callable? f = some (.standard g home)) :
    ExceptT.run ((evaluator host (n + 1)).call f this arguments) w =
      ExceptT.run (callStandard (evaluator host n) home g this arguments) w := by
  show ExceptT.run (Evaluator.evalCall host (evaluator host n) f this arguments) w = _
  unfold Evaluator.evalCall
  rw [run_bind_ok (run_heap w), hf]

/-- A refusal reads the name of the receiver and puts it into words. -/
theorem run_refuseNamed {p : Text → Problem} (hname : w.heap.value? b "name" = some name) :
    ExceptT.run (do refuse (p (← wordsOf ev (← read ev b "name"))) : Action α) w =
      w.refusingNamed ev name p := by
  rw [run_bind_ok (run_read hname), run_bind]
  unfold World.refusingNamed
  cases ExceptT.run (wordsOf ev name) w with
  | mk r w' => cases r <;> rfl

/-- What comes after a refusal does not happen. -/
theorem run_bind_refusing {β : Type} {x : Action α} {f : α → Action β} {p : Text → Problem}
    (hx : ExceptT.run x w = w.refusingNamed ev name p) :
    ExceptT.run (x >>= f) w = w.refusingNamed ev name p := by
  rw [run_bind, hx]
  unfold World.refusingNamed World.refusing
  cases ExceptT.run (wordsOf ev name) w with
  | mk r w' => cases r <;> rfl

/-- Calling a method that a value offers carries it out on the value. -/
theorem run_invoke_offered {m : DomainMethod} (hm : w.heap.Offers b m) :
    ExceptT.run (invoke (evaluator host (n + 1)) .main b m.name []) w =
      ExceptT.run (Domain.method (evaluator host n) m b) w := by
  obtain ⟨f, hf, hc⟩ := hm
  rw [run_invoke_held hf (Heap.isCallable_of_callable? hc)]
  show ExceptT.run (Evaluator.evalCall host (evaluator host n) f b []) w = _
  unfold Evaluator.evalCall
  rw [run_bind_ok (run_heap w), hc]
  rfl

/-! ### The source -/

/-- A data source is required, and nothing else is asked of it. -/
theorem run_requireSource (hname : w.heap.value? b "name" = some name)
    (hsource : w.heap.value? b "source" = some source) :
    ExceptT.run (requireSource ev b) w =
      if w.heap.isKin source .dataSource then (.ok source, w)
      else w.refusingNamed ev name .sourceMissing := by
  unfold requireSource
  rw [run_bind_ok (run_read hsource), run_bind_ok (run_heap w)]
  split
  · rfl
  · exact run_refuseNamed hname

/-! ### The metrics -/

/-- A list of the main realm. -/
def listObject (items : List Value) : Object :=
  Object.empty (.ofItems items) (some (Realm.main.template .list))

section metrics

variable (hb : w.heap.BuildsTasks b name source metrics)

include hb

/-- What is no list is refused. -/
theorem run_requireMetrics_noList (hlist : w.heap.isList metrics = false) :
    ExceptT.run (requireMetrics ev b) w = w.refusingNamed ev name .metricsNotList := by
  unfold requireMetrics
  rw [run_bind_ok (run_read hb.metrics), run_bind_ok (run_heap w)]
  unfold Heap.isList at hlist
  split
  next hshape =>
    rw [hshape] at hlist
    cases hlist
  next => exact run_refuseNamed hb.name

variable {cells : List (Nat × Value)} {length : Nat}
  (hlist : w.heap.shape? metrics = some (.list cells length))

include hlist

/-- Of a list, the metrics are built one after the other, and a new list holds them. -/
theorem run_requireMetrics_list :
    ExceptT.run (requireMetrics ev b) w =
      match ExceptT.run (metricsOf ev metrics length) w with
      | (.ok (some items), w') => (.ok (.ref w'.heap.size), w'.adding (listObject items))
      | (.ok none, w') =>
        ExceptT.run (do refuse (.metricsNotBuilt (← wordsOf ev (← read ev b "name")))) w'
      | (.error thrown, w') => (.error thrown, w') := by
  unfold requireMetrics
  rw [run_bind_ok (run_read hb.metrics), run_bind_ok (run_heap w), hlist]
  simp only
  rw [run_bind]
  rcases ExceptT.run (metricsOf ev metrics length) w with ⟨_ | items, w'⟩
  · rfl
  · cases items <;> rfl

/-- A list that is gone through by its items gives a new list of them, or is refused if one of them
is no metric. -/
theorem run_requireMetrics_items (hwalk : w.heap.walk? metrics = some .byItems) :
    ExceptT.run (requireMetrics ev b) w =
      if (w.heap.itemsOf metrics length).all (w.heap.isKin · .metric) then
        (.ok (.ref w.heap.size), w.adding (listObject (w.heap.itemsOf metrics length)))
      else w.refusingNamed ev name .metricsNotBuilt := by
  have hitems : ExceptT.run (metricsOf ev metrics length) w =
      (.ok (w.heap.itemsIf (w.heap.isKin · .metric) metrics length 0), w) := by
    unfold metricsOf
    rw [run_bind_ok (run_heap w), hwalk]
    rfl
  rw [run_requireMetrics_list hb hlist, hitems, Heap.itemsIf_zero]
  cases (w.heap.itemsOf metrics length).all (w.heap.isKin · .metric) with
  | true => rfl
  | false => exact run_refuseNamed hb.name

/-- A list that inherits no way to be gone through is an error. -/
theorem run_requireMetrics_unwalked (hwalk : w.heap.walk? metrics = none) :
    ExceptT.run (requireMetrics ev b) w =
      (.error (.ref w.heap.size),
        w.adding (errorObject .type .main (some "the list cannot be gone through"))) := by
  have hthrown : ExceptT.run (metricsOf ev metrics length) w = (.error (.ref w.heap.size),
      w.adding (errorObject .type .main (some "the list cannot be gone through"))) := by
    unfold metricsOf
    rw [run_bind_ok (run_heap w), hwalk]
    rfl
  rw [run_requireMetrics_list hb hlist, hthrown]

end metrics

/-! ### The task -/

/-- How a task splits the ratings, as an object. -/
def splitObject (kind field : Text) (v : Value) : Object :=
  Object.holding .plain (some (Realm.main.template .object)) [("kind", .text kind), (field, v)]

/-- A task as an object. -/
def taskObject (name source split metrics : Value) : Object :=
  Object.holding .plain (some (Kin.template .trainTestTask))
    [("name", name), ("source", source), ("split", split), ("metrics", metrics)]

variable {kind field : Text} {v : Value} (hb : w.heap.BuildsTasks b name source metrics)
  (hv : w.heap.value? b field = some v)

include hb

/-- The same, where the method is called on the builder. -/
theorem run_invoke_requireSource :
    ExceptT.run (invoke (evaluator host (n + 1)) .main b "requireSource" []) w =
      if w.heap.isKin source .dataSource then (.ok source, w)
      else w.refusingNamed (evaluator host n) name .sourceMissing :=
  (run_invoke_offered hb.requireSource).trans (run_requireSource hb.name hb.source)

/-- A builder without a source is refused. -/
theorem run_makeTask_noSource (hsource : w.heap.isKin source .dataSource = false) :
    ExceptT.run (makeTask (evaluator host (n + 1)) b kind field) w =
      w.refusingNamed (evaluator host n) name .sourceMissing := by
  have hrefused : ExceptT.run (invoke (evaluator host (n + 1)) .main b "requireSource" []) w = _ :=
    run_invoke_requireSource hb
  rw [hsource] at hrefused
  unfold makeTask
  rw [run_bind_ok (run_read hb.name)]
  exact run_bind_refusing hrefused

include hv

/-- Where the source is there, the split is made, and the metrics are checked in the world with
it. -/
theorem run_makeTask (hsource : w.heap.isKin source .dataSource = true) :
    ExceptT.run (makeTask (evaluator host (n + 1)) b kind field) w =
      match ExceptT.run (requireMetrics (evaluator host n) b)
        (w.adding (splitObject kind field v)) with
      | (.ok ms, w') =>
        (.ok (.ref w'.heap.size), w'.adding (taskObject name source (.ref w.heap.size) ms))
      | (.error thrown, w') => (.error thrown, w') := by
  have hfound : ExceptT.run (invoke (evaluator host (n + 1)) .main b "requireSource" []) w = _ :=
    run_invoke_requireSource hb
  rw [if_pos hsource] at hfound
  have hmetrics : ExceptT.run (invoke (evaluator host (n + 1)) .main b "requireMetrics" [])
      (w.adding (splitObject kind field v)) =
        ExceptT.run (requireMetrics (evaluator host n) b) (w.adding (splitObject kind field v)) :=
    run_invoke_offered (hb.requireMetrics.extends_ (w.heap.extends_push _))
  have hsplit : ExceptT.run (record .main [(Text.ofString "kind", .text kind), (field, v)]) w =
      (.ok (.ref w.heap.size), w.adding (splitObject kind field v)) := rfl
  unfold makeTask
  rw [run_bind_ok (run_read hb.name), run_bind_ok hfound, run_bind_ok (run_read hv),
    run_bind_ok hsplit, run_bind, hmetrics]
  rcases ExceptT.run (requireMetrics (evaluator host n) b)
    (w.adding (splitObject kind field v)) with
    ⟨_ | _, _⟩ <;> rfl

end Action

/-! ## What making a task comes to -/

/-- The value is a task with a name, a source and items as its metrics, which splits the ratings in
the way of a kind that a field says more about. Its list of metrics was not there before. -/
structure Heap.IsTask (h : Heap) (before : Nat) (task name source : Value) (kind field : Text)
    (v : Value) (items : List Value) : Prop where
  kin : h.isKin task .trainTestTask = true
  name : h.value? task "name" = some name
  source : h.value? task "source" = some source
  split : ∃ s, h.value? task "split" = some s ∧ h.value? s "kind" = some (.text kind) ∧
    h.value? s field = some v
  metrics : ∃ r, before ≤ r ∧ h.value? task "metrics" = some (.ref r) ∧
    h.list? (.ref r) = some items

/-- What making a task comes to, for what it is made of. -/
structure World.MakesTask (w : World) (ev : Evaluator) (name source metrics : Value)
    (kind field : Text) (v : Value) (outcome : Except Value Value × World) : Prop where
  /-- A source is wanted. -/
  noSource : w.heap.isKin source .dataSource = false → w.Refused ev name .sourceMissing outcome
  /-- A list of metrics is wanted. -/
  noList : w.heap.isKin source .dataSource = true → w.heap.readList? metrics = none →
    (w.adding (splitObject kind field v)).Refused ev name .metricsNotList outcome
  /-- All items of the list have to be metrics. -/
  badMetric : w.heap.isKin source .dataSource = true →
    ∀ items, w.heap.readList? metrics = some items →
    w.heap.walk? metrics = some .byItems → (∃ m ∈ items, w.heap.isKin m .metric = false) →
    (w.adding (splitObject kind field v)).Refused ev name .metricsNotBuilt outcome
  /-- A list that inherits no way to be gone through is an error of another kind. -/
  noWalk : w.heap.isKin source .dataSource = true → ∀ items, w.heap.readList? metrics = some items →
    w.heap.walk? metrics = none → w.Fails outcome
  /-- Otherwise the task holds what it was made of, and the items of the list in a list of its
  own. -/
  made : w.heap.isKin source .dataSource = true → ∀ items, w.heap.readList? metrics = some items →
    w.heap.walk? metrics = some .byItems → (∀ m ∈ items, w.heap.isKin m .metric = true) →
    w.heap.Extends outcome.2.heap ∧ ∃ task, outcome.1 = .ok task ∧
      outcome.2.heap.IsTask w.heap.size task name source kind field v items

namespace Heap

variable {h : Heap}

/-- A task that was just made is one. -/
theorem isTask_of_objects {task split list before : Ref} {name source v : Value} {kind field : Text}
    {items : List Value} (hfield : field ≠ "kind") (hbefore : before ≤ list)
    (hsplit : h[split]? = some (splitObject kind field v))
    (hlist : h[list]? = some (listObject items))
    (htask : h[task]? = some (taskObject name source (.ref split) (.ref list))) :
    h.IsTask before (.ref task) name source kind field v items where
  kin := isKin_of_parent htask rfl
  name := value?_own htask rfl
  source := value?_own htask rfl
  split := by
    have hkind : (splitObject kind field v).own? "kind" = some (.ordinary (.text kind)) :=
      Table.get?_put_of_ne _ hfield _
    have hown : (splitObject kind field v).own? field = some (.ordinary v) :=
      Table.get?_put_same _ _ _
    exact ⟨.ref split, value?_own htask rfl, value?_own hsplit hkind, value?_own hsplit hown⟩
  metrics := ⟨list, hbefore, value?_own htask rfl, list?_ofItems hlist rfl⟩

end Heap

namespace Action

open Domain

variable {w : World} {host : Host} {n : Nat} {b name source metrics : Value} {kind field : Text}
  {v : Value}

section

variable (hb : w.heap.BuildsTasks b name source metrics) (hv : w.heap.value? b field = some v)
  (hsource : w.heap.isKin source .dataSource = true)

include hb hv hsource

/-- A refusal of the metrics ends it. -/
theorem run_makeTask_refused {ev : Evaluator} {p : Text → Problem}
    (hp : ∀ t, (p t).kind = .configuration)
    (hmetrics : ExceptT.run (requireMetrics (evaluator host n) b)
    (w.adding (splitObject kind field v)) =
      (w.adding (splitObject kind field v)).refusingNamed ev name p) :
    (w.adding (splitObject kind field v)).Refused ev name p
      (ExceptT.run (makeTask (evaluator host (n + 1)) b kind field) w) := by
  have hrefused : (w.adding (splitObject kind field v)).Refused ev name p
      ((w.adding (splitObject kind field v)).refusingNamed ev name p : Except Value Value × World) :=
    World.refused_refusingNamed hp
  have hnone := hrefused.unanswered
  rw [run_makeTask hb hv hsource, hmetrics]
  revert hrefused hnone
  rcases (w.adding (splitObject kind field v)).refusingNamed ev name p with ⟨_ | a, w'⟩
  · exact fun hrefused _ => hrefused
  · exact fun _ hnone => absurd rfl (hnone a)

end

/-- The parts of a task are checked in the order in which it takes them: the source first, then the
metrics. -/
theorem makesTask (hrooted : w.heap.Rooted) (hb : w.heap.BuildsTasks b name source metrics)
    (hknown : ∀ items, w.heap.readList? metrics = some items → ∀ m ∈ items, w.heap.Knows m)
    (hv : w.heap.value? b field = some v) (hfield : field ≠ "kind") :
    w.MakesTask (evaluator host n) name source metrics kind field v
      (ExceptT.run (makeTask (evaluator host (n + 1)) b kind field) w) := by
  -- the split is there before the metrics are checked
  have hext : w.heap.Extends (w.adding (splitObject kind field v)).heap := w.heap.extends_push _
  have hb' := hb.extends_ hext
  -- a list reads the same beside the split, is gone through in the same way, and holds metrics or
  -- not
  have hlist {items : List Value} (hread : w.heap.readList? metrics = some items) :
      ∃ cells length, (w.adding (splitObject kind field v)).heap.shape? metrics =
        some (.list cells length) ∧
        (w.adding (splitObject kind field v)).heap.itemsOf metrics length = items ∧
        (w.adding (splitObject kind field v)).heap.walk? metrics = w.heap.walk? metrics ∧
        items.all ((w.adding (splitObject kind field v)).heap.isKin · .metric) =
          items.all (w.heap.isKin · .metric) := by
    obtain ⟨cells, length, hshape, rfl⟩ := Heap.readList?_eq_some.mp hread
    obtain ⟨o, ho, -⟩ := Option.map_eq_some_iff.mp hshape
    refine ⟨cells, length, Heap.shape?_extends hext hshape, Heap.itemsOf_eq hext hrooted ho length,
      Heap.walk?_eq hext hrooted (Heap.knows_of_object? ho), ?_⟩
    rw [Bool.eq_iff_iff, List.all_eq_true, List.all_eq_true]
    refine forall₂_congr fun m hm => ?_
    rw [Heap.isKin_eq hext hrooted (hknown _ hread m hm)]
  constructor
  case noSource =>
    intro hsource
    rw [run_makeTask_noSource hb hsource]
    exact World.refused_refusingNamed fun _ => rfl
  case noList =>
    intro hsource hread
    have hnone : (w.adding (splitObject kind field v)).heap.isList metrics = false := by
      have hsame : (w.adding (splitObject kind field v)).heap.isList metrics =
          w.heap.isList metrics :=
        Heap.isList_push nofun
      rw [hsame, Heap.isList_eq_isSome, hread, Option.isSome_none]
    exact run_makeTask_refused hb hv hsource (fun _ => rfl) (run_requireMetrics_noList hb' hnone)
  case badMetric =>
    intro hsource items hread hwalk hbad
    obtain ⟨cells, length, hshape, hitems, hsame, hall⟩ := hlist hread
    have hrefused : ExceptT.run (requireMetrics (evaluator host n) b)
        (w.adding (splitObject kind field v)) = _ :=
      run_requireMetrics_items hb' hshape (hsame.trans hwalk)
    rw [hitems, hall, if_neg] at hrefused
    · exact run_makeTask_refused hb hv hsource (fun _ => rfl) hrefused
    · simpa using hbad
  case noWalk =>
    intro hsource items hread hwalk
    obtain ⟨cells, length, hshape, -, hsame, -⟩ := hlist hread
    rw [run_makeTask hb hv hsource, run_requireMetrics_unwalked hb' hshape (hsame.trans hwalk)]
    exact ⟨fun r o hr => Heap.extends_push _ _ r o (hext r o hr), _, rfl,
      Heap.errorKind?_push_self rfl⟩
  case made =>
    intro hsource items hread hwalk hmetrics
    obtain ⟨cells, length, hshape, hitems, hsame, hall⟩ := hlist hread
    have hmade : ExceptT.run (requireMetrics (evaluator host n) b)
        (w.adding (splitObject kind field v)) = _ :=
      run_requireMetrics_items hb' hshape (hsame.trans hwalk)
    rw [hitems, hall, if_pos (List.all_eq_true.mpr hmetrics)] at hmade
    rw [run_makeTask hb hv hsource, hmade]
    -- the split, the list and the task were added, in this order
    have hsplit := Heap.getElem?_push_self w.heap (splitObject kind field v)
    have hnew := Heap.getElem?_push_self (w.heap.push (splitObject kind field v)) (listObject items)
    have hlisted := Heap.extends_push (w.heap.push (splitObject kind field v)) (listObject items)
    have hmade := Heap.extends_push
      ((w.heap.push (splitObject kind field v)).push (listObject items))
      (taskObject name source (.ref w.heap.size)
        (.ref (w.heap.push (splitObject kind field v)).size))
    refine ⟨fun r o hr => hmade r o (hlisted r o (hext r o hr)), _, rfl, ?_⟩
    refine Heap.isTask_of_objects hfield ?_ (hmade _ _ (hlisted _ _ hsplit)) (hmade _ _ hnew)
      (Heap.getElem?_push_self _ _)
    exact Heap.size_le_of_extends hext

end Action

end EvalPlan

import EvalPlan.Session
import EvalPlan.Proofs.Action
import EvalPlan.Proofs.Listing

/-!
# What scripts cannot break

A script reaches the world only through the steps of the actions that carry it out. A `Trait` is a
property of actions, such as to keep a relation between the world before and the world after.
`Stable` says that a trait is had by the steps that occur everywhere, in which objects are made and
changed, variables are bound and notices are left, and that it passes from the parts of an action to
the whole. `Rules` adds the few actions that touch what an engine keeps for itself: the scopes of
runs, the registered builders and the subscribers. Whatever follows the rules of a host is had by
every script, however deeply it is nested; the modules that import this one prove so function by
function.

For a relation that is kept, `Steady` and `Law` ask for the same of the relation itself.
-/

namespace EvalPlan

/-- No property of the object called `name` is computed. -/
def Object.HoldsName (o : Object) : Prop :=
  ∀ row ∈ o.slots, row.1 = (Text.ofString "name") → row.2.value?.isSome = true

/-- The notice is an event that an observer saw. -/
def Notice.isEvent : Notice → Bool
  | .event _ _ _ => true
  | _ => false

/-- The notice is a printed line. -/
def Notice.isLine : Notice → Bool
  | .line _ _ => true
  | _ => false

/-- The notice is a call of a handler by its name. -/
def Notice.isCall : Notice → Bool
  | .handled _ _ _ => true
  | _ => false

/-- What actions can read of a world; they read no subscriptions but to tell events, and neither
notices nor the history. -/
def World.visible (w : World) : World := { w with bus := .empty, notices := [], history := [] }

/-- What actions can read of a world for sure: in which order files are listed does not matter. -/
noncomputable def World.readable (w : World) : World :=
  { w.visible with files := w.files.canonical }

namespace Action

/-- A change of objects that touches neither their markers nor whether they are frozen or can be
called, and computes no name. -/
structure Gentle (f : Object → Object) : Prop where
  marker : ∀ o, (f o).marker = o.marker
  frozen : ∀ o, (f o).frozen = o.frozen
  callable : ∀ o c, (f o).shape = .callable c ↔ o.shape = .callable c
  name : ∀ o, o.HoldsName → (f o).HoldsName

/-! ## Traits -/

/-- A property of actions, and the components under whose names lines may be printed. -/
structure Trait where
  /-- The action has it. -/
  holds : {α : Type} → Action α → Prop
  /-- Log entries may be printed under the name. -/
  prints : Text → Prop := fun _ => True

/-- Entries may go to the sink. -/
def Trait.Permits (T : Trait) (sink : Sink) : Prop :=
  ∀ component threshold, sink = .console component threshold → T.prints component

/-- Entries may go where the loggers of an engine's parts leave them. -/
structure Trait.PermitsAll (T : Trait) (loggers : Loggers) : Prop where
  engine : T.Permits loggers.engine.sink
  registry : T.Permits loggers.registry.sink
  catalog : T.Permits loggers.catalog.sink
  runner : T.Permits loggers.runner.sink
  modules : T.Permits loggers.modules.sink
  bus : T.Permits loggers.bus.sink

/-- A trait that every component may print under permits all loggers. -/
theorem Trait.permitsAll {T : Trait} (h : ∀ component, T.prints component) (loggers : Loggers) :
    T.PermitsAll loggers := by
  have hsink (sink : Sink) : T.Permits sink := fun component _ _ => h component
  exact ⟨hsink _, hsink _, hsink _, hsink _, hsink _, hsink _⟩

/-- A property of actions that the steps have which occur everywhere, and what is made of them. -/
structure Stable (T : Trait) : Prop where
  pure : ∀ {α : Type} (a : α), T.holds (Pure.pure a : Action α)
  throw : ∀ {α : Type} (v : Value), T.holds (MonadExcept.throw v : Action α)
  bind : ∀ {α β : Type} {x : Action α} {f : α → Action β},
    T.holds x → (∀ a, T.holds (f a)) → T.holds (x >>= f)
  tryCatch : ∀ {α : Type} {x : Action α} {f : Value → Action α},
    T.holds x → (∀ v, T.holds (f v)) → T.holds (MonadExcept.tryCatch x f)
  read : ∀ {α : Type} {k : World → Action α},
    (∀ w, k w = k w.readable) → (∀ w, T.holds (k w)) → T.holds (MonadState.get >>= k)
  alloc : ∀ {o : Object}, o.HoldsName → T.holds (alloc o)
  change : ∀ (v : Value) {f : Object → Object}, Gentle f → T.holds (change v f)
  note : ∀ {n : Notice}, n.isEvent = false → n.isLine = false → n.isCall = false → T.holds (note n)
  print : ∀ {component : Text}, T.prints component → ∀ level message data, T.holds
    (Action.note (.line (.level level) [.text (Logger.bracketed component ++ message), data]))
  openFrame : ∀ scene frame, T.holds (openFrame scene frame)
  bindVariable : ∀ scene name v, T.holds (bindVariable scene name v)
  postpone : ∀ scene body, T.holds (Evaluator.postpone scene body)
  takeQueue : T.holds takeQueue
  whileJoining : ∀ {α : Type} (r : Ref) {act : Action α}, T.holds act → T.holds (whileJoining r act)

end Action

/-- Every part of an evaluator has a trait. -/
structure Evaluator.Meets (ev : Evaluator) (T : Action.Trait) : Prop where
  expr : ∀ scene e, T.holds (ev.expr scene e)
  block : ∀ scene body, T.holds (ev.block scene body)
  call : ∀ callee this arguments, T.holds (ev.call callee this arguments)
  construct : ∀ realm cls, T.holds (ev.construct realm cls)
  json : ∀ path key v, T.holds (ev.json path key v)
  run : ∀ name program, T.holds (ev.run name program)

/-- An evaluator that has a trait has every trait that follows from it. -/
theorem Evaluator.Meets.imp {ev : Evaluator} {T S : Action.Trait} (h : ev.Meets T)
    (himp : ∀ {α : Type} {act : Action α}, T.holds act → S.holds act) : ev.Meets S where
  expr scene e := himp (h.expr scene e)
  block scene body := himp (h.block scene body)
  call callee this arguments := himp (h.call callee this arguments)
  construct realm cls := himp (h.construct realm cls)
  json path key v := himp (h.json path key v)
  run name program := himp (h.run name program)

namespace Action

/-- A property of actions that everything has which the engine of a host does for scripts. -/
structure Rules (host : Host) (T : Trait) : Prop extends Stable T where
  loggers : T.PermitsAll host.loggers
  withBinding : ∀ {α : Type} (binding : Option RunId) {act : Action α},
    T.holds act → T.holds (withBinding binding act)
  provideImports : ∀ imports, T.holds (provideImports host imports)
  enroll : ∀ type builder, T.holds (enroll type builder)
  attach : ∀ type builder, T.holds (attach type builder)
  publish : ∀ {ev : Evaluator}, ev.Meets T → ∀ type data, T.holds (publish host ev type data none)
  registerSilently : host.role = .bench → ∀ task, T.holds (registerSilently task)
  registerTask : ∀ {ev : Evaluator}, ev.Meets T → ∀ task, T.holds (registerTask host ev task)
  taskVerb : ∀ {ev : Evaluator}, ev.Meets T → ∀ id onTask task,
    T.holds (taskVerb host ev id onTask task)
  execute : ∀ {ev : Evaluator}, ev.Meets T → ∀ script {body : RunId → Action Value},
    (∀ id, T.holds (body id)) → T.holds (execute host ev script body)

/-! ## Relations that are kept -/

/-- A relation between worlds that the steps keep which occur everywhere. -/
structure Steady (R : World → World → Prop) : Prop extends Stepwise R where
  onAlloc : ∀ w o, o.HoldsName → R w { w with heap := w.heap.push o }
  onChange : ∀ w v f, Gentle f →
    R w { w with heap := w.heap.update v f, history := w.history ++ alterations v }
  onFrames : ∀ w frames, R w { w with frames }
  onQueue : ∀ w queue, R w { w with queue }
  onJoining : ∀ w joining, R w { w with joining }
  onNote : ∀ w n, n.isEvent = false → R w { w with notices := w.notices ++ [n] }

end Action

/-- Every part of an evaluator obeys a relation. -/
structure Evaluator.Obeys (ev : Evaluator) (R : World → World → Prop) : Prop where
  expr : ∀ scene e, Action.Keeps R (ev.expr scene e)
  block : ∀ scene body, Action.Keeps R (ev.block scene body)
  call : ∀ callee this arguments, Action.Keeps R (ev.call callee this arguments)
  construct : ∀ realm cls, Action.Keeps R (ev.construct realm cls)
  json : ∀ path key v, Action.Keeps R (ev.json path key v)
  run : ∀ name program, Action.Keeps R (ev.run name program)

/-- What obeys a relation obeys every relation that follows from it. -/
theorem Evaluator.Obeys.mono {ev : Evaluator} {R S : World → World → Prop} (h : ev.Obeys R)
    (himp : ∀ {w w'}, R w w' → S w w') : ev.Obeys S where
  expr scene e w := himp (h.expr scene e w)
  block scene body w := himp (h.block scene body w)
  call callee this arguments w := himp (h.call callee this arguments w)
  construct realm cls w := himp (h.construct realm cls w)
  json path key v w := himp (h.json path key v w)
  run name program w := himp (h.run name program w)

namespace Action

/-- A relation between worlds that everything keeps which the engine of a host does for scripts. -/
structure Law (host : Host) (R : World → World → Prop) : Prop extends Steady R where
  onTypes : ∀ w types, R w { w with types }
  withBinding : ∀ {α : Type} (binding : Option RunId) {act : Action α},
    Keeps R act → Keeps R (withBinding binding act)
  provideImports : ∀ imports, Keeps R (provideImports host imports)
  enroll : ∀ type builder, Keeps R (enroll type builder)
  attach : ∀ type builder, Keeps R (attach type builder)
  observe : ∀ (event : Event) (s : Subscriber), event.run = none → Keeps R (observe event s)
  registerSilently : host.role = .bench → ∀ task, Keeps R (registerSilently task)
  registerTask : ∀ {ev : Evaluator}, ev.Obeys R → ∀ task, Keeps R (registerTask host ev task)
  taskVerb : ∀ {ev : Evaluator}, ev.Obeys R → ∀ id onTask task,
    Keeps R (taskVerb host ev id onTask task)
  execute : ∀ {ev : Evaluator}, ev.Obeys R → ∀ script {body : RunId → Action Value},
    (∀ id, Keeps R (body id)) → Keeps R (execute host ev script body)

end Action

/-! ## Names that are held -/

namespace Table

variable {α β : Type} [BEq α]

/-- After a row is put into a table, every row is an old one or holds the new value. -/
theorem mem_put {t : Table α β} {k : α} {v : β} {row : α × β} (h : row ∈ t.put k v) :
    row ∈ t ∨ row.2 = v ∧ (row.1 = k ∨ (row.1 == k) = true) := by
  induction t with
  | nil =>
    rw [put, List.mem_singleton] at h
    subst h
    exact .inr ⟨rfl, .inl rfl⟩
  | cons first rest ih =>
    unfold put at h
    split at h
    -- the row of the key is replaced where it stands
    next hk =>
      rcases List.mem_cons.mp h with rfl | h
      · exact .inr ⟨rfl, .inr hk⟩
      · exact .inl (List.mem_cons_of_mem _ h)
    -- the row comes further behind
    next =>
      rcases List.mem_cons.mp h with rfl | h
      · exact .inl List.mem_cons_self
      · exact (ih h).imp_left (List.mem_cons_of_mem _)

/-- What is found under a key is the value of a row with an equal key. -/
theorem mem_of_get? {t : Table α β} {k : α} {v : β} (h : t.get? k = some v) :
    ∃ k', (k' == k) = true ∧ (k', v) ∈ t := by
  induction t with
  | nil => cases h
  | cons first rest ih =>
    unfold get? at h
    split at h
    next hk =>
      cases h
      exact ⟨first.1, hk, List.mem_cons_self⟩
    next =>
      obtain ⟨k', hk', hmem⟩ := ih h
      exact ⟨k', hk', List.mem_cons_of_mem _ hmem⟩

end Table

namespace Object

/-- Where every property is held, the name is. -/
theorem holdsName_of_held {o : Object} (h : ∀ row ∈ o.slots, row.2.value?.isSome = true) :
    o.HoldsName :=
  fun row hrow _ => h row hrow

/-- A new object without properties has no name that would have to be computed. -/
theorem holdsName_empty (shape : Shape) (parent : Option Ref) :
    (empty shape parent).HoldsName := nofun

/-- An object that is made of values holds its name, if it has one. -/
theorem holdsName_holding (shape : Shape) (parent : Option Ref) (members : List (Text × Value)) :
    (holding shape parent members).HoldsName := by
  suffices h : ∀ (ms : List (Text × Value)) (t : Table Text Slot),
      (∀ row ∈ t, row.2.value?.isSome = true) →
      ∀ row ∈ ms.foldl (fun (slots : Table Text Slot) m => slots.put m.1 (.ordinary m.2)) t,
        row.2.value?.isSome = true from
    holdsName_of_held (h members [] nofun)
  -- the table is general, since the members are put one after another
  intro ms
  induction ms with
  | nil => exact fun t ht => ht
  | cons m ms ih =>
    refine fun t ht => ih _ fun row hrow => ?_
    rcases Table.mem_put hrow with h | ⟨h, -⟩
    · exact ht row h
    · rw [h]
      rfl

/-- The errors of the language and of the engine hold their names. -/
theorem holdsName_errorObject (kind : ErrorKind) (realm : Realm) (message : Option Text) :
    (Action.errorObject kind realm message).HoldsName := by
  refine holdsName_of_held fun row hrow => ?_
  simp only [Action.errorObject, List.mem_append] at hrow
  rcases hrow with hrow | hrow
  · cases message <;> simp_all [Slot.value?, Slot.hidden]
  · split at hrow
    · simp only [List.mem_cons, List.not_mem_nil, or_false] at hrow
      rcases hrow with rfl | rfl <;> rfl
    · cases hrow

/-- So do the errors that report problems. -/
theorem holdsName_problemObject (p : Problem) : (Action.problemObject p).HoldsName := by
  refine holdsName_of_held fun row hrow => ?_
  simp only [Action.problemObject, List.mem_append, List.mem_singleton] at hrow
  -- the cause and the subject are there only for some problems
  rcases hrow with (((rfl | hrow) | rfl) | hrow) | rfl
  · rfl
  · cases hc : p.cause? <;> simp_all [Slot.value?, Slot.hidden]
  · rfl
  · cases hs : p.subject? <;> simp_all [Slot.value?, Slot.ordinary]
  · rfl

/-- A function holds its name. -/
theorem holdsName_function (realm : Realm) (c : Callable) (name : Text) (arity : Nat) :
    (function realm c name arity).HoldsName := by
  refine holdsName_of_held fun row hrow => ?_
  simp only [function, List.mem_cons, List.not_mem_nil, or_false] at hrow
  rcases hrow with rfl | rfl <;> rfl

/-- A property that holds a value can be put in the place of another one. -/
theorem HoldsName.put {o : Object} (h : o.HoldsName) (name : Text) {s : Slot}
    (hs : s.value?.isSome = true) :
    HoldsName { o with slots := o.slots.put name s } := by
  intro row hrow hname
  rcases Table.mem_put hrow with hmem | ⟨hv, -⟩
  · exact h row hmem hname
  · rw [hv]
    exact hs

end Object

/-! ## Gentle changes -/

namespace Action

/-- A change of an object leaves one mark or none. -/
theorem alterations_eq (v : Value) : alterations v = [] ∨ ∃ r, alterations v = [.altered r] := by
  cases v with
  | ref r =>
    by_cases h : Fixture.has r = true
    · exact .inr ⟨r, if_pos h⟩
    · exact .inl (if_neg h)
  | _ => exact .inl rfl

/-- Setting a property to a value is a gentle change: the name stays held. -/
theorem gentle_put (name : Text) (v : Value) : Gentle (Object.put name v) := by
  refine ⟨fun o => ?_, fun o => ?_, fun o c => ?_, fun o h => ?_⟩
  · unfold Object.put
    -- an item of a list is put into its shape, and anything else among the slots
    split
    · rfl
    · split <;> rfl
  · unfold Object.put
    split
    · rfl
    · split <;> rfl
  · unfold Object.put
    split
    next hshape _ => simp [hshape]
    · split <;> rfl
  · unfold Object.put
    split
    · exact h
    · split
      · exact h.put name rfl
      · exact h.put name rfl

/-- Changing the length of a list is a gentle change. -/
theorem gentle_resize (length : Nat) : Gentle (Object.resize length) := by
  refine ⟨fun o => ?_, fun o => ?_, fun o c => ?_, fun o h => ?_⟩ <;> unfold Object.resize
  · split <;> rfl
  · split <;> rfl
  · split
    next hshape => simp [hshape]
    · rfl
  · split <;> exact h

/-- So is giving an object another parent. -/
theorem gentle_adopt (parent : Option Ref) : Gentle (Object.adopt parent) :=
  ⟨fun _ => rfl, fun _ => rfl, fun _ _ => .rfl, fun _ h => h⟩

/-! ## Steps that occur everywhere -/

namespace Stable

variable {T : Trait} {α β : Type} (law : Stable T)

include law

/-- Looking at the heap has every stable trait. -/
theorem heap : T.holds heap := law.read (fun _ => rfl) fun _ => law.pure _

/-- Carrying out one action after another has a trait that each of the actions has. -/
theorem forM {f : α → Action PUnit} {l : List α} (hf : ∀ a ∈ l, T.holds (f a)) :
    T.holds (l.forM f) := by
  induction l with
  | nil => exact law.pure PUnit.unit
  | cons a l ih =>
    show T.holds (f a >>= fun _ => l.forM f)
    exact law.bind (hf a List.mem_cons_self) fun _ => ih fun b hb =>
      hf b (List.mem_cons_of_mem a hb)

/-- Collecting the answers of actions has a trait that each of the actions has. -/
theorem mapM {f : α → Action β} {l : List α} (hf : ∀ a, T.holds (f a)) : T.holds (l.mapM f) := by
  induction l with
  | nil => exact law.pure []
  | cons a l ih =>
    rw [List.mapM_cons]
    exact law.bind (hf a) fun _ => law.bind ih fun _ => law.pure _

/-- Making an object of members has every stable trait. -/
theorem record (realm : Realm) (members : List (Text × Value)) :
    T.holds (Action.record realm members) :=
  law.alloc (Object.holdsName_holding _ _ members)

/-- Making a list has every stable trait. -/
theorem newList (realm : Realm) (items : List Value) : T.holds (Action.newList realm items) :=
  law.alloc (Object.holdsName_empty _ _)

/-- To refuse is to make an error and to throw it, and both have every stable trait. -/
theorem refuse (p : Problem) : T.holds (Action.refuse p : Action α) :=
  law.bind (law.alloc (Object.holdsName_problemObject p)) law.throw

/-- Throwing an error of a realm has every stable trait. -/
theorem crashIn (realm : Realm) (kind : ErrorKind) (message : Text) :
    T.holds (Action.crashIn realm kind message : Action α) :=
  law.bind (law.alloc (Object.holdsName_errorObject _ _ _)) law.throw

/-- Throwing an error of the library has every stable trait. -/
theorem crash (kind : ErrorKind) (message : Text) :
    T.holds (Action.crash kind message : Action α) :=
  law.crashIn _ kind message

/-- Complaining of a value of the wrong type has every stable trait. -/
theorem typeError (message : Text) : T.holds (Action.typeError message : Action α) :=
  law.crash _ message

end Stable

end Action

end EvalPlan

import EvalPlan.Proofs.Law.Running
import EvalPlan.Proofs.Law.Uniform

/-!
# Relations that runs do not matter for

Many relations say nothing about runs and events: the heap or the registered builders are the same
whatever runs begin and end, and whoever is told. Such a relation is kept by everything that an
engine does once it is kept by the steps that make and change objects and register builders.
-/

namespace EvalPlan

namespace Action

/-- A relation between worlds for which neither runs nor events matter, kept by whatever scripts
do. -/
structure Aloof (R : World → World → Prop) : Prop extends Steady R where
  onPassing : ∀ w scopes binding notices ms, (∀ m ∈ ms, Mark.isPassing m = true) →
    R w { w with scopes, binding, notices, history := w.history ++ ms }
  onImports :
    ∀ w r imports, R w { w with heap := w.heap.update (.ref r) (Object.put "imports" imports) }
  onEnroll : ∀ type builder, Keeps R (enroll type builder)
  onAttach : ∀ type builder, Keeps R (attach type builder)

/-- A relation between worlds for which neither runs nor events nor the known types matter. -/
structure Indifferent (R : World → World → Prop) : Prop extends Aloof R where
  onTypes : ∀ w types, R w { w with types }

namespace Aloof

variable {R : World → World → Prop} (law : Aloof R)

include law

/-- Leaving a mark that is about runs or events keeps the relation. -/
theorem mark {m : Mark} (hm : m.isPassing = true) : Keeps R (Action.mark m) := fun w =>
  law.onPassing w w.scopes w.binding w.notices [m] fun _ h => List.mem_singleton.mp h ▸ hm

/-- Observing an event keeps the relation, for it leaves such a mark. -/
theorem observe (event : Event) (s : Subscriber) : Keeps R (Action.observe event s) := fun w =>
  law.onPassing w w.scopes w.binding (w.notices ++ [Notice.event event.type event.data event.run])
    [.told s.id event]
    fun _ h => List.mem_singleton.mp h ▸ rfl

/-- A change of the scopes that leaves one mark. -/
theorem onScopes (w : World) (scopes : Scopes Value) {m : Mark} (hm : m.isPassing = true) :
    R w { w with scopes, history := w.history ++ [m] } :=
  law.onPassing w scopes w.binding w.notices [m] fun _ h => List.mem_singleton.mp h ▸ hm

/-- A change of the run that is bound, which leaves one mark. -/
theorem onBinding (w : World) (binding : Option RunId) {m : Mark} (hm : m.isPassing = true) :
    R w { w with binding, history := w.history ++ [m] } :=
  law.onPassing w w.scopes binding w.notices [m] fun _ h => List.mem_singleton.mp h ▸ hm

/-- Entering and leaving a run keeps the relation. -/
theorem withBinding {α : Type} (binding : Option RunId) {act : Action α} (h : Keeps R act) :
    Keeps R (Action.withBinding binding act) := by
  intro w
  rw [run_withBinding]
  -- binding a run and binding the former one again are changes like any other
  have hentered : R w (w.enter binding) := law.onBinding w binding rfl
  have hcarried := law.trans hentered (h (w.enter binding))
  exact law.trans hcarried (law.onBinding _ w.binding rfl)

/-- Each step by itself keeps such a relation. -/
theorem uniform (host : Host) : Uniform host (.keeping R) where
  toStable := law.toSteady.stable
  loggers := Trait.keeping_permitsAll R host.loggers
  mark := law.mark
  withBinding := law.withBinding
  beginScope _ w := law.onScopes w _ rfl
  endingScope _ _ _ h w := law.trans (h w) (law.onScopes _ _ rfl)
  countDiscarded _ w := law.onScopes w w.scopes rfl
  declareIn _ _ w := law.onScopes w _ rfl
  offer _ w := law.onScopes w _ rfl
  enroll := law.onEnroll
  attach := law.onAttach
  provideImports imports w := law.onImports w host.role.facade imports
  publish hev type data run :=
    publish_keeps law.toSteady hev.obeys host type data run fun _ s => law.observe _ s

end Aloof

namespace Indifferent

variable {R : World → World → Prop} (law : Indifferent R)

include law

/-- Where runs do not matter, the relation is the same within each of them. -/
theorem runLaw : RunLaw fun _ => R where
  steady _ := law.toSteady
  onTypes := law.onTypes
  within h := h
  observe := law.observe
  declareIn _ _ w := law.onScopes w _ rfl
  offer _ w := law.onScopes w _ rfl
  enroll := law.onEnroll
  attach := law.onAttach
  provideImports host imports w := law.onImports w host.role.facade imports
  withBinding binding _ h := law.withBinding binding h
  counted _ w := law.onScopes w w.scopes rfl
  undescribed _ := law.mark rfl
  failed _ _ _ := law.mark rfl
  abandoned {w w' script} h := by
    have hbegan : R w (w.beginRun script) := law.onScopes w _ rfl
    exact law.trans (law.trans hbegan h) (law.onScopes w' w'.scopes rfl)
  ended {w w' script} well h := by
    have hbegan : R w (w.beginRun script) := law.onScopes w _ rfl
    exact law.trans (law.trans hbegan h) (law.onScopes w' _ rfl)

/-- Where runs do not matter, everything that an engine does keeps a relation. -/
theorem onHost (host : Host) : Law host R := law.runLaw.onHost host

end Indifferent

/-- The action is made of steps of an engine: it keeps everything for which neither runs nor events
matter. -/
def Ordinary {α : Type} (act : Action α) : Prop := ∀ R, Indifferent R → Keeps R act

/-- To be made of steps of an engine. -/
def Trait.ordinary : Trait := { holds := fun act => Ordinary act }

/-- Every step of an engine is ordinary. -/
theorem ordinary_uniform (host : Host) : Uniform host .ordinary where
  pure a _ law := law.pure a
  throw v _ law := law.throw v
  bind hx hf R law := law.bind (hx R law) fun a => hf a R law
  tryCatch hx hf R law := law.tryCatch (hx R law) fun v => hf v R law
  read hk hf R law := law.stable.read hk fun w => hf w R law
  alloc ho _ law := law.stable.alloc ho
  change v _ hf _ law := law.stable.change v hf
  note hn hline hcall _ law := law.stable.note hn hline hcall
  print _ level message data _ law := law.stable.print trivial level message data
  loggers := Trait.permitsAll (fun _ => trivial) host.loggers
  openFrame scene frame _ law := law.stable.openFrame scene frame
  bindVariable scene name v _ law := law.bindVariable scene name v
  postpone scene body _ law := law.stable.postpone scene body
  takeQueue _ law := law.stable.takeQueue
  whileJoining r _ h R law := law.stable.whileJoining r (h R law)
  mark hm _ law := law.mark hm
  withBinding binding _ h R law := law.withBinding binding (h R law)
  beginScope script _ law := (law.uniform host).beginScope script
  endingScope id script _ h R law := (law.uniform host).endingScope id script (h R law)
  countDiscarded id _ law := (law.uniform host).countDiscarded id
  declareIn id task _ law := (law.uniform host).declareIn id task
  offer task _ law := (law.uniform host).offer task
  enroll type builder _ law := law.onEnroll type builder
  attach type builder _ law := law.onAttach type builder
  provideImports imports _ law := (law.uniform host).provideImports imports
  publish hev type data run R law :=
    (law.uniform host).publish (hev.imp fun h => h R law) type data run

/-- To define a type is a step of an engine, too. -/
theorem ordinary_defineType (name : Text) (type : Value) : Ordinary (defineType name type) :=
  fun _ law => law.defineType law.onTypes name type

end Action

end EvalPlan

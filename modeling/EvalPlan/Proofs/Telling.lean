import EvalPlan.Proofs.Law.Indifferent
import EvalPlan.Proofs.Moments
import EvalPlan.Proofs.Quiet
import Mathlib.Data.List.Forall2

/-!
# What subscribers are told about runs

An engine tells its subscribers the moments of runs. `Faithful` says of the marks that are added to
a history that a subscriber was told exactly the moments among them, each by one event and in order.
`Reports` is the relation between worlds that everything an engine does keeps, as long as scripts
leave the engine's parts alone and throw nothing that has no description.
-/

namespace EvalPlan

/-! ## Events that tell moments -/

/-- The fields of an event. -/
def Event.fields (members : List (Text × Portrait)) :
    Option Portrait := some (.object (some "Object") members)

namespace RunMoment

/-- An event tells a moment. The name of a task looks as it did in the heap in which the run took
the task. -/
def ToldBy : RunMoment → Event → Prop
  | started run script, e =>
    e.type = "run:started" ∧ e.run = some run ∧ e.data = Event.fields [("script", .text script)]
  | registered run task name, e =>
    e.type = "task:registered" ∧ e.run = some run ∧
      ∃ (h : Heap) (v : Value), name = some v ∧ h.heldName? task = some v ∧
        e.data = Event.fields [("task", h.portrait v)]
  | counted _ _, _ => False
  | completed run script tasks, e =>
    e.type = "run:completed" ∧ e.run = some run ∧
      e.data = Event.fields
        [("script", .text script), ("taskCount", .number (Float.ofNat tasks.length))]
  | failed run script, e =>
    e.type = "run:failed" ∧ e.run = some run ∧
      ∃ message, e.data = Event.fields [("script", .text script), ("error", .text message)]

/-- Subscribers are told the moment. How many tasks are discarded is logged only. -/
def isTold : RunMoment → Bool
  | counted _ _ => false
  | _ => true

end RunMoment

namespace Mark

/-- The event of a run that a subscriber was told. -/
def seenBy (k : Nat) : Mark → Option Event
  | told subscriber event => if subscriber = k ∧ event.run.isSome then some event else none
  | _ => none

/-- A script changed what the engine reaches its own parts by, or threw a value that has no
description. -/
def isDisturbance : Mark → Bool
  | altered _ => true
  | undescribed _ => true
  | _ => false

/-- The mark tells a subscriber nothing of a run and needs not be told. -/
structure IsSilent (k : Nat) (m : Mark) : Prop where
  moment : m.moment? = none
  seen : m.seenBy k = none
  kept : m.isAbandoned = false

end Mark

/-- A mark that stands for a moment is not one of those that subscribers were told. -/
theorem Mark.seenBy_of_moment? {m : Mark} {t : RunMoment} (hm : m.moment? = some t) (k : Nat) :
    m.seenBy k = none ∧ m.isAbandoned = false := by
  cases m with
  | told subscriber event => cases hm
  | abandoned run => cases hm
  | _ => exact ⟨rfl, rfl⟩

/-- An event that tells a moment is an event of a run. -/
theorem RunMoment.ToldBy.isEventOfRun {t : RunMoment} {e : Event} (h : t.ToldBy e) :
    e.run.isSome = true ∧ e.type ≠ Event.any := by
  cases t with
  | counted run discarded => cases h
  | _ =>
    obtain ⟨htype, hrun, -⟩ := h
    rw [htype, hrun]
    exact ⟨rfl, by decide⟩

/-- Scripts left the engine's parts alone, and threw nothing that has no description. -/
def Undisturbed (ms : List Mark) : Prop := ∀ m ∈ ms, m.isDisturbance = false

theorem Undisturbed.append {ms ns : List Mark} :
    Undisturbed (ms ++ ns) ↔ Undisturbed ms ∧ Undisturbed ns :=
  List.forall_mem_append

/-- The moments of runs that subscribers are to be told, in order. -/
def toldMoments (ms : List Mark) :
    List RunMoment := (ms.filterMap Mark.moment?).filter RunMoment.isTold

theorem toldMoments_append (ms ns : List Mark) :
    toldMoments (ms ++ ns) = toldMoments ms ++ toldMoments ns := by
  rw [toldMoments, List.filterMap_append, List.filter_append]
  rfl

/-- A run whose script failed counted its tasks before it ended. Within a run, its own tasks may
have been counted before. -/
def CountsWithin (run : Option RunId) (ms : List Mark) : Prop :=
  ∀ a b r script, ms = a ++ .ended r script none :: b → run = some r ∨
    ∃ a₁ a₂ d, a = a₁ ++ .counted r d :: a₂

theorem countsDiscarded_of_within {ms : List Mark} (h : CountsWithin none ms) :
    CountsDiscarded ms :=
  fun a b r script hms => (h a b r script hms).resolve_left nofun

theorem CountsWithin.append {run : Option RunId} {ms ns : List Mark} (hms : CountsWithin run ms)
    (hns : CountsWithin run ns) : CountsWithin run (ms ++ ns) := by
  intro a b r script heq
  -- the end of the run is among the later marks or among the earlier ones
  rcases List.append_eq_append_iff.mp heq with ⟨c, rfl, hc⟩ | ⟨c, rfl, hc⟩
  · rcases hns c b r script hc with hrun | ⟨a₁, a₂, d, rfl⟩
    · exact .inl hrun
    · exact .inr ⟨ms ++ a₁, a₂, d, by simp⟩
  · cases c with
    | nil =>
      obtain hrun | ⟨a₁, a₂, d, heq'⟩ := hns [] b r script (by simpa using hc.symm)
      · exact .inl hrun
      · exact absurd heq' (by simp)
    | cons m c =>
      obtain ⟨rfl, rfl⟩ := List.cons.inj hc
      exact hms a c r script rfl

/-- What was told to a subscriber is what happened to runs. -/
structure Faithful (k : Nat) (run : Option RunId) (ms : List Mark) : Prop where
  told : List.Forall₂ RunMoment.ToldBy (toldMoments ms) (ms.filterMap (Mark.seenBy k))
  counts : CountsWithin run ms
  kept : ∀ m ∈ ms, m.isAbandoned = false

namespace Faithful

variable {k : Nat} {run : Option RunId} {ms ns : List Mark}

theorem append (h : Faithful k run ms) (h' : Faithful k run ns) : Faithful k run (ms ++ ns) where
  told := by
    rw [toldMoments_append, List.filterMap_append]
    exact List.rel_append h.told h'.told
  counts := h.counts.append h'.counts
  kept := List.forall_mem_append.mpr ⟨h.kept, h'.kept⟩

theorem within (h : Faithful k none ms) : Faithful k run ms where
  told := h.told
  counts a b r script heq := .inr ((h.counts a b r script heq).resolve_left nofun)
  kept := h.kept

/-- Once the tasks of a run were counted it may fail. -/
theorem of_counted {id : RunId} {d : Nat} (h : Faithful k (some id) ms) :
    Faithful k none (.counted id d :: ms) where
  told := h.told
  counts a b r script heq := by
    cases a with
    | nil => cases heq
    | cons m a =>
      obtain ⟨rfl, heq'⟩ := List.cons.inj heq
      -- the run whose tasks were counted ends, or one that counted its own
      rcases h.counts a b r script heq' with hrun | ⟨a₁, a₂, d', rfl⟩
      · obtain rfl := Option.some.inj hrun
        exact .inr ⟨[], a, d, rfl⟩
      · exact .inr ⟨.counted id d :: a₁, a₂, d', rfl⟩
  kept := List.forall_mem_cons.mpr ⟨rfl, h.kept⟩

theorem of_silent (h : ∀ m ∈ ms, m.IsSilent k) : Faithful k run ms where
  told := by
    have hmoments :
      ms.filterMap Mark.moment? = [] := List.filterMap_eq_nil_iff.mpr fun m hm => (h m hm).moment
    have hseen :
      ms.filterMap (Mark.seenBy k) = [] := List.filterMap_eq_nil_iff.mpr fun m hm => (h m hm).seen
    rw [toldMoments, hmoments, hseen]
    exact List.Forall₂.nil
  counts a b r script heq := by
    have hended := (h (.ended r script none) (by rw [heq]; simp)).moment
    cases hended
  kept m hm := (h m hm).kept

end Faithful

/-! ## Subscribers that hear of every event once -/

/-- The subscriber observes every event once, by its one subscription to all of them. -/
structure Bus.HeardBy (b : Bus Subscriber) (k : Nat) : Prop where
  any : (b.handlers Event.any).countP (Subscriber.observesAs k) = 1
  other : ∀ type ≠ Event.any, (b.handlers type).countP (Subscriber.observesAs k) = 0

/-- All is quiet, and a subscriber listens. -/
structure World.Heard (k : Nat) (w : World) : Prop extends World.Quiet w where
  listens : w.bus.HeardBy k

theorem World.Heard.of_eq {k : Nat} {w w' : World} (h : w.Heard k) (hheap : w'.heap = w.heap)
    (hbus : w'.bus = w.bus) : w'.Heard k where
  toQuiet := h.toQuiet.of_eq hheap hbus
  listens := by rw [hbus]; exact h.listens

/-- A world in which nothing has happened but that somebody subscribed to every event. -/
def World.listening (others : List Object) : World :=
  (ExceptT.run (Action.subscribe Event.any .observe)
    (World.initial (Realm.main.objects ++ Fixture.objects ++ others).toArray)).2

theorem World.history_listening (others : List Object) :
    (World.listening others).history = [] := rfl

theorem World.isOpen_listening (others : List Object) (r : RunId) :
    (World.listening others).scopes.isOpen r = false := by
  have hscopes : (World.listening others).scopes = .empty := rfl
  rw [hscopes]
  simp [Scopes.isOpen, Scopes.open?, Scopes.empty]

/-- Whoever subscribed to every event at first is told each event once. -/
theorem World.heard_listening {others : List Object} (h : ∀ o ∈ others, o.HoldsName) :
    (World.listening others).Heard 0 where
  intact := Heap.intact_initial others
  named := Heap.named_initial h
  ordered := Bus.ordered_empty.subscribe Event.any _
  mild c s hs := by
    -- there is one channel with one subscription
    have hchannel : (World.listening others).bus.channels = #[[⟨0, ⟨0, .observe⟩⟩]] := rfl
    rw [Bus.channel, hchannel] at hs
    cases c with
    | zero => rw [List.mem_singleton.mp hs]; rfl
    | succ c => cases hs
  listens := by
    refine ⟨rfl, fun type htype => ?_⟩
    have htable : (World.listening others).bus.table.get? type = none := by
      show Table.get? [(Event.any, 0)] type = none
      have hne : (Event.any == type) = false := beq_false_of_ne (Ne.symm htype)
      simp [Table.get?, hne]
    rw [Bus.handlers, htable]
    rfl

/-- What one subscriber sees of an event of a run that is told to several. -/
theorem seenBy_hears (k : Nat) {event : Event} (hrun : event.run.isSome = true)
    (subscribers : List Subscriber) :
    (subscribers.flatMap (Subscriber.hears event)).filterMap (Mark.seenBy k) =
      List.replicate (subscribers.countP (Subscriber.observesAs k)) event := by
  induction subscribers with
  | nil => rfl
  | cons s rest ih =>
    rw [List.flatMap_cons, List.filterMap_append, ih, List.countP_cons]
    obtain ⟨id, reaction⟩ := s
    cases reaction with
    | observe =>
      -- only the subscriber with this number sees the event
      by_cases hid : id = k
      · subst hid
        have hseen : Mark.seenBy id (.told id event) = some event := if_pos ⟨rfl, hrun⟩
        simp [Subscriber.hears, Subscriber.observesAs, hseen, List.replicate_succ]
      · have hseen : Mark.seenBy k (.told id event) = none := if_neg fun h => hid h.1
        simp [Subscriber.hears, Subscriber.observesAs, hseen, hid]
    | _ => simp [Subscriber.hears, Subscriber.observesAs]

/-- Marks that subscribers were told an event stand for nothing else. -/
theorem moment?_hears {event : Event} {subscribers : List Subscriber} {m : Mark}
    (hm : m ∈ subscribers.flatMap (Subscriber.hears event)) :
    m.moment? = none ∧ m.isAbandoned = false ∧ m.isDisturbance = false ∧
      (event.run = none → ∀ k, m.seenBy k = none) := by
  obtain ⟨s, -, hm⟩ := List.mem_flatMap.mp hm
  obtain ⟨id, reaction⟩ := s
  cases reaction with
  | observe =>
    obtain rfl := List.mem_singleton.mp hm
    refine ⟨rfl, rfl, rfl, fun hrun k => if_neg fun h => ?_⟩
    rw [hrun] at h
    exact absurd h.2 Bool.false_ne_true
  | _ => cases hm

theorem filterMap_moment?_hears (event : Event) (subscribers : List Subscriber) :
    (subscribers.flatMap (Subscriber.hears event)).filterMap Mark.moment? = [] :=
  List.filterMap_eq_nil_iff.mpr fun _ hm => (moment?_hears hm).1

/-- A subscriber that hears of every event once sees an event of a run once. -/
theorem seenBy_audience {k : Nat} {w : World} (h : w.bus.HeardBy k) {event : Event} {t : RunMoment}
    (ht : t.ToldBy event) :
    ((Action.audience w event).flatMap (Subscriber.hears event)).filterMap (Mark.seenBy k) =
      [event] := by
  obtain ⟨hrun, htype⟩ := ht.isEventOfRun
  rw [seenBy_hears k hrun, Action.audience, List.countP_append, h.any, h.other _ htype]
  rfl

/-! ## Marks that are told -/

namespace Faithful

variable {k : Nat} {run : Option RunId} {w : World} (hlistens : w.bus.HeardBy k) {event : Event}

include hlistens

/-- A moment that is told right after its mark was left. -/
theorem of_telling {m : Mark} {t : RunMoment} (hm : m.moment? = some t) (ht : t.ToldBy event)
    (hwell : ∀ r script, m ≠ .ended r script none) :
    Faithful k run (m :: (Action.audience w event).flatMap (Subscriber.hears event)) where
  told := by
    have htold : t.isTold = true := by
      cases t with
      | counted run discarded => cases ht
      | _ => rfl
    rw [toldMoments, List.filterMap_cons_some hm, filterMap_moment?_hears,
      List.filter_cons_of_pos htold,
      List.filterMap_cons_none (Mark.seenBy_of_moment? hm k).1, seenBy_audience hlistens ht]
    exact .cons ht .nil
  -- neither the mark nor what the audience hears is the end of a run that failed
  counts a b r script heq := by
    have hmem : Mark.ended r script none ∈ m :: (Action.audience w event).flatMap
        (Subscriber.hears event) := by
      rw [heq]
      simp
    rcases List.mem_cons.mp hmem with rfl | hmem
    · exact absurd rfl (hwell r script)
    · cases (moment?_hears hmem).1
  kept m' hm' := by
    rcases List.mem_cons.mp hm' with rfl | hm'
    · exact (Mark.seenBy_of_moment? hm k).2
    · exact (moment?_hears hm').2.1

/-- The end of a run that failed is told before its mark is left. -/
theorem of_failing {r : RunId} {script message : Text}
    (ht : (RunMoment.failed r script).ToldBy event) :
    Faithful k (some r) (.failed r script message ::
      ((Action.audience w event).flatMap (Subscriber.hears event) ++ [.ended r script none])) where
  told := by
    -- what the listeners left are marks of being told, none of which is a moment of a run
    have hmoments : toldMoments (.failed r script message ::
        ((Action.audience w event).flatMap (Subscriber.hears event) ++ [.ended r script none])) =
          [.failed r script] := by
      rw [toldMoments, List.filterMap_cons_none rfl, List.filterMap_append, filterMap_moment?_hears]
      rfl
    rw [hmoments, List.filterMap_cons_none rfl, List.filterMap_append, seenBy_audience hlistens ht]
    exact .cons ht .nil
  counts a b r' script' heq := by
    have hmem : Mark.ended r' script' none ∈ .failed r script message ::
        ((Action.audience w event).flatMap (Subscriber.hears event) ++ [.ended r script none]) := by
      rw [heq]
      simp
    rcases List.mem_append.mp ((List.mem_cons.mp hmem).resolve_left nofun) with hmem | hmem
    · cases (moment?_hears hmem).1
    · cases List.mem_singleton.mp hmem
      exact .inl rfl
  kept m hm := by
    rcases List.mem_cons.mp hm with rfl | hm
    · rfl
    · rcases List.mem_append.mp hm with hm | hm
      · exact (moment?_hears hm).2.1
      · rw [List.mem_singleton.mp hm]
        rfl

end Faithful

end EvalPlan

import EvalPlan.Domain
import EvalPlan.Bus.Session
import EvalPlan.Proofs.Delivery
import EvalPlan.Proofs.Roster
import Mathlib.Algebra.GroupWithZero.Nat

/-!
# Buses as rosters

To those who use it a bus is a roster: for every type of event the handlers that are subscribed to
it, in order and each of them once. `Roster.after` says what each use of a bus does to its roster,
and telling an event does nothing to it: who is told is what the roster lists under the type of the
event, and then what it lists under the type of every event.

`actsAsRoster` states this of the buses of sessions, after any history of uses. Handlers may do
anything but change subscriptions: they may throw whatever can be described (`Polite`), and they may
emit further events while they are called, as named handlers do (`polite_react`).
-/

namespace EvalPlan

open EvalPlan.Action

namespace Bus

variable {H A : Type}

/-! ## Rosters -/

/-- What may be done with a bus. -/
inductive Use (H : Type)
  /-- Subscribes a handler to a type. -/
  | subscribe (type : Text) (handler : H)
  /-- Takes the subscription of a number back. -/
  | unsubscribe (number : Nat)
  /-- Clears a type, or all of them. -/
  | clear (type : Option Text)
  /-- Tells an event. -/
  | tell (event : Event)

/-- What a bus is to those who use it. -/
structure Roster (H : Type) where
  /-- The handlers of each type in order. -/
  handlers : Text → List H
  /-- The subscriptions that were made, by which they are taken back. -/
  made : List (Text × H)

namespace Roster

/-- Nobody is subscribed. -/
def empty : Roster H := ⟨fun _ => [], []⟩

variable [BEq H]

/-- A handler is appended to the handlers of a type, unless it is one of them. -/
def subscribe (r : Roster H) (type : Text) (handler : H) : Roster H where
  handlers t :=
    if t = type then
      if (r.handlers type).contains handler then r.handlers type else r.handlers type ++ [handler]
    else r.handlers t
  made := r.made ++ [(type, handler)]

/-- The handler of a subscription is removed from the handlers of its type. -/
def unsubscribe (r : Roster H) (number : Nat) : Roster H :=
  match r.made[number]? with
  | some (type, handler) =>
    { r with
      handlers := fun t => if t = type then (r.handlers type).erase handler else r.handlers t }
  | none => r

omit [BEq H] in
/-- The handlers of a type are removed, or those of all types. -/
def clear (r : Roster H) (type : Option Text) : Roster H :=
  { r with handlers := fun t => if clears type t then [] else r.handlers t }

/-- A roster after a use of its bus. -/
def after (r : Roster H) : Use H → Roster H
  | .subscribe type handler => r.subscribe type handler
  | .unsubscribe number => r.unsubscribe number
  | .clear type => r.clear type
  | .tell _ => r

/-- A roster after one use after another. -/
def afterAll (r : Roster H) (uses : List (Use H)) : Roster H := uses.foldl after r

/-- Those who are told an event. -/
def told (r : Roster H) (event : Event) : List H := r.handlers event.type ++ r.handlers Event.any

end Roster

/-! ## Sessions -/

namespace Session

variable (host : Host) (ev : Evaluator) (react : Reacting H A)

/-- Uses the bus of a session. -/
def use [BEq H] (s : Session H A) : Use H → Except Value Unit × Session H A
  | .subscribe type handler => (.ok (), (s.subscribe type handler).2)
  | .unsubscribe number => (.ok (), s.unsubscribe number)
  | .clear type => (.ok (), s.clear type)
  | .tell event => s.tell host ev react event

/-- Uses the bus of a session in one way after another, up to the first that throws. -/
def useAll [BEq H] (s : Session H A) : List (Use H) → Except Value Unit × Session H A
  | [] => (.ok (), s)
  | u :: us =>
    match s.use host ev react u with
    | (.ok _, s) => s.useAll us
    | r => r

/-- What a handler threw is described, and written to the log of the bus once. -/
def Reports (event : Event) (v : Value) (w w' : World) : Prop :=
  ∃ words described, ExceptT.run (describe ev v) w = (.ok words, described) ∧
    ExceptT.run (log ev host.loggers.bus .error "Event handler failed" (reportFields event words))
      described = (.ok ⟨⟩, w')

/-- Handlers were told an event one after another, each once. What one of them threw was reported
before the next one was told. -/
inductive Tells (event : Event) : List H → Session H A → Session H A → Prop
  | nil {s} : Tells event [] s s
  | returns {handler rest s s₁ s'} :
      react event handler s = (.ok ⟨⟩, s₁) → Tells event rest s₁ s' →
      Tells event (handler :: rest) s s'
  | throws {handler rest s s₁ s' v world} :
      react event handler s = (.error v, s₁) → Reports host ev event v s₁.world world →
      Tells event rest { s₁ with world } s' → Tells event (handler :: rest) s s'

/-- A session whose subscriptions are those of another one. -/
structure SameSubscriptions (s s' : Session H A) : Prop where
  bus : s'.bus = s.bus
  made : s'.made = s.made

/-- Wherever an invariant holds, handlers change no subscription while they are called, and throw
only what can be described and written to the log. The invariant is kept by this, and by whatever
else may be done with the bus. -/
structure Polite [BEq H] (I : Session H A → Prop) : Prop where
  returns : ∀ {event handler s s'}, I s → react event handler s = (.ok ⟨⟩, s') →
    s.SameSubscriptions s' ∧ I s'
  throws : ∀ {event handler s s' v}, I s → react event handler s = (.error v, s') →
    s.SameSubscriptions s' ∧ ∃ world, Reports host ev event v s'.world world ∧ I { s' with world }
  subscribe : ∀ {s} type handler, I s → I (s.subscribe type handler).2
  unsubscribe : ∀ {s} number, I s → I (s.unsubscribe number)
  clear : ∀ {s} type, I s → I (s.clear type)

namespace SameSubscriptions

theorem refl (s : Session H A) : s.SameSubscriptions s := ⟨rfl, rfl⟩

theorem trans {s s₁ s' : Session H A} (h : s.SameSubscriptions s₁) (h' : s₁.SameSubscriptions s') :
    s.SameSubscriptions s' := ⟨h'.bus.trans h.bus, h'.made.trans h.made⟩

end SameSubscriptions

/-! ## Telling an event -/

/-- What is reported is logged, and no more. -/
theorem Reports.run {host : Host} {ev : Evaluator} {event : Event} {v : Value} {w w' : World}
    (h : Reports host ev event v w w') :
    ExceptT.run (reportFailure host ev event v) w = (.ok ⟨⟩, w') := by
  obtain ⟨words, described, describes, logs⟩ := h
  unfold reportFailure
  rw [run_bind_ok describes]
  exact logs

section tell

variable {host ev react} [BEq H] {I : Session H A → Prop} (polite : Polite host ev react I)
  {s : Session H A}

include polite

/-- A handler that is called answers, since what it throws is reported. -/
theorem call_polite (holds : I s) (event : Event) (handler : H) :
    ∃ s₁, call host ev react event handler s = (.ok ⟨⟩, s₁) ∧ I s₁ ∧ s.SameSubscriptions s₁ ∧
      ∀ {rest s'}, Tells host ev react event rest s₁ s' →
        Tells host ev react event (handler :: rest) s s' := by
  unfold call
  cases called : react event handler s with
  | mk answer s₁ =>
    cases answer with
    | ok _ =>
      obtain ⟨same, kept⟩ := polite.returns holds called
      exact ⟨s₁, rfl, kept, same, .returns called⟩
    | error v =>
      obtain ⟨same, world, reports, kept⟩ := polite.throws holds called
      refine ⟨{ s₁ with world }, ?_, kept, ⟨same.bus, same.made⟩, .throws called reports⟩
      dsimp only
      rw [lift, show ExceptT.run (reportFailure host ev event v) s₁.world = _ from reports.run]

/-- All of the handlers are told, whatever some of them throw. -/
theorem callAll_polite (holds : I s) (event : Event) (handlers : List H) :
    ∃ s', (Hub.mk Session.bus (call host ev react)).callAll event handlers s = (.ok ⟨⟩, s') ∧ I s' ∧
      s.SameSubscriptions s' ∧ Tells host ev react event handlers s s' := by
  induction handlers generalizing s with
  | nil => exact ⟨s, rfl, holds, .refl s, .nil⟩
  | cons handler rest ih =>
    obtain ⟨s₁, called, kept, same, tells⟩ := call_polite polite holds event handler
    obtain ⟨s', others, kept', same', told⟩ := ih kept
    exact ⟨s', (Hub.callAll_cons_ok called).trans others, kept', same.trans same', tells told⟩

/-- Telling an event calls those that are subscribed to its type, and then those that are subscribed
to every event. It changes no subscription. -/
theorem tell_polite (holds : I s) (ordered : s.bus.Ordered) (event : Event) :
    ∃ s', s.tell host ev react event = (.ok ⟨⟩, s') ∧ I s' ∧ s.SameSubscriptions s' ∧
      Tells host ev react event (s.bus.handlers event.type ++ s.bus.handlers Event.any) s s' := by
  have steadfast : (Hub.mk Session.bus (call host ev react)).Steadfast event I := by
    intro s holds _ sub _
    obtain ⟨s₁, called, kept, same, -⟩ := call_polite polite holds event sub.handler
    rw [show (Hub.mk Session.bus (call host ev react)).handle event sub.handler s = _ from called]
    exact ⟨kept, same.bus⟩
  have allowed : s.bus.serial < s.bus.serial + deliveryBound := Nat.lt_add_of_pos_right (by decide)
  have emitted := Hub.emit_eq_callAll steadfast holds ordered allowed
  obtain ⟨s', told, rest⟩ := callAll_polite polite holds event
    (s.bus.handlers event.type ++ s.bus.handlers Event.any)
  refine ⟨s', ?_, rest⟩
  unfold tell
  simp only [emitted]
  exact told

end tell

/-! ## Refinement -/

/-- A session keeps a roster: its bus lists the handlers that stand in it, each of them once, counts
them, and has a channel for the types that have handlers and for no others. -/
structure Keeps (s : Session H A) (r : Roster H) : Prop where
  handlers : ∀ type, s.bus.handlers type = r.handlers type
  nodup : ∀ type, (r.handlers type).Nodup
  count : ∀ type, s.bus.count type = (r.handlers type).length
  listed : ∀ type, s.bus.table.has type = true ↔ r.handlers type ≠ []
  made : s.made = r.made

/-- A session keeps a roster if its bus does and the same subscriptions were made. -/
theorem Keeps.of_coherent {s : Session H A} {r : Roster H} (coherent : s.bus.Coherent)
    (handlers : ∀ type, s.bus.handlers type = r.handlers type) (made : s.made = r.made) :
    s.Keeps r where
  handlers := handlers
  nodup type := handlers type ▸ coherent.nodup type
  count type := congrArg List.length (handlers type)
  listed type := handlers type ▸ coherent.has_iff type
  made := made

section refinement

variable {host ev react} [BEq H] [LawfulBEq H] {I : Session H A → Prop}
  (polite : Polite host ev react I)

include polite

/-- Each use of the bus answers and does to the roster what it says. -/
theorem use_refines {s : Session H A} {r : Roster H} (holds : I s) (coherent : s.bus.Coherent)
    (keeps : s.Keeps r) (u : Use H) :
    ∃ s', s.use host ev react u = (.ok ⟨⟩, s') ∧ I s' ∧ s'.bus.Coherent ∧ s'.Keeps (r.after u) := by
  cases u with
  | subscribe type handler =>
    have coherent' := coherent.subscribe type handler
    refine ⟨_, rfl, polite.subscribe type handler holds, coherent',
      .of_coherent coherent' (fun t => ?_) (congrArg (· ++ _) keeps.made)⟩
    show (s.bus.subscribe type handler).handlers t = _
    rw [handlers_subscribe coherent, keeps.handlers, keeps.handlers]
    rfl
  | unsubscribe number =>
    refine ⟨_, rfl, polite.unsubscribe number holds, ?_⟩
    show _ ∧ (s.unsubscribe number).Keeps (r.unsubscribe number)
    unfold unsubscribe Roster.unsubscribe
    rw [keeps.made]
    -- a number that was not given to a subscription takes nothing back
    cases r.made[number]? with
    | none => exact ⟨coherent, keeps⟩
    | some made =>
      obtain ⟨type, handler⟩ := made
      have coherent' := coherent.unsubscribe type handler
      refine ⟨coherent', .of_coherent coherent' (fun t => ?_) rfl⟩
      show (s.bus.unsubscribe type handler).handlers t = _
      rw [handlers_unsubscribe coherent, keeps.handlers, keeps.handlers]
  | clear type =>
    have coherent' := coherent.clear type
    refine ⟨_, rfl, polite.clear type holds, coherent', .of_coherent coherent' (fun t => ?_) keeps.made⟩
    show (s.bus.clear type).handlers t = _
    rw [handlers_clear coherent, keeps.handlers]
    rfl
  | tell event =>
    obtain ⟨s', told, kept, same, -⟩ := tell_polite polite holds coherent.toOrdered event
    have coherent' : s'.bus.Coherent := same.bus ▸ coherent
    exact ⟨s', told, kept, coherent', .of_coherent coherent'
      (fun t => same.bus ▸ keeps.handlers t) (same.made.trans keeps.made)⟩

/-- So does one use after another. -/
theorem useAll_refines {s : Session H A} {r : Roster H} (holds : I s) (coherent : s.bus.Coherent)
    (keeps : s.Keeps r) (us : List (Use H)) :
    ∃ s', s.useAll host ev react us = (.ok ⟨⟩, s') ∧ I s' ∧ s'.bus.Coherent ∧
      s'.Keeps (r.afterAll us) := by
  induction us generalizing s r with
  | nil => exact ⟨s, rfl, holds, coherent, keeps⟩
  | cons u us ih =>
    obtain ⟨s₁, used, holds, coherent, keeps⟩ := use_refines polite holds coherent keeps u
    obtain ⟨s', rest, kept⟩ := ih holds coherent keeps
    refine ⟨s', ?_, kept⟩
    rw [useAll, used]
    exact rest

end refinement

/-- A bus acts as a roster, in a session in which nobody is subscribed. -/
structure ActsAsRoster [BEq H] (s : Session H A) : Prop where
  /-- Whatever is done with the bus is answered, and the session keeps the roster that results. -/
  keeps : ∀ us, ∃ s', s.useAll host ev react us = (.ok ⟨⟩, s') ∧ s'.Keeps (Roster.empty.afterAll us)
  /-- An event that is told after that reaches those who stand in the roster, each once and in
  order, whatever some of them throw. No subscription changes. -/
  tells : ∀ us event s', s.useAll host ev react us = (.ok ⟨⟩, s') →
    ∃ s'', s'.tell host ev react event = (.ok ⟨⟩, s'') ∧
      Tells host ev react event ((Roster.empty.afterAll us).told event) s' s'' ∧
      s'.SameSubscriptions s''

/-- A bus acts as a roster if its handlers are polite. -/
theorem actsAsRoster {host : Host} {ev : Evaluator} {react : Reacting H A} [BEq H] [LawfulBEq H]
    {I : Session H A → Prop} (polite : Polite host ev react I) {s : Session H A} (holds : I s)
    (nobody : s.bus = .empty) (unmade : s.made = []) : ActsAsRoster host ev react s := by
  have coherent : s.bus.Coherent := nobody ▸ coherent_empty
  have empty : s.Keeps Roster.empty :=
    .of_coherent coherent (fun _ => by rw [nobody]; rfl) unmade
  constructor
  · intro us
    obtain ⟨s', used, -, -, keeps⟩ := useAll_refines polite holds coherent empty us
    exact ⟨s', used, keeps⟩
  · intro us event s' used
    obtain ⟨_, used', holds', coherent', keeps⟩ := useAll_refines polite holds coherent empty us
    rw [used] at used'
    cases used'
    obtain ⟨s'', told, -, same, tells⟩ := tell_polite polite holds' coherent'.toOrdered event
    rw [keeps.handlers, keeps.handlers] at tells
    exact ⟨s'', told, tells, same⟩

end Session

/-! ## Named handlers -/

/-- The act changes no subscription, and if it throws a value, that can be described. -/
inductive Act.IsMild (h : Heap) : Act → Prop
  | emit {type : Text} : IsMild h (.emit type)
  | fail {v : Value} : h.Describable v → IsMild h (.fail v)

/-- How often acts may still be performed. -/
def performances (acts : List Limited) : Nat := (acts.map (·.left)).sum

/-- How often the acts of all handlers may still be performed. -/
def budget (acts : Table Text (List Limited)) : Nat := (acts.map fun row => performances row.2).sum

/-- An act that is carried out leaves one performance less. -/
theorem performances_set {acts : List Limited} {i : Nat} {act : Act} {left : Nat}
    (found : acts[i]? = some ⟨act, left + 1⟩) :
    performances (acts.set i ⟨act, left⟩) + 1 = performances acts := by
  induction acts generalizing i with
  | nil => cases found
  | cons first rest ih =>
    cases i with
    | zero =>
      obtain rfl : first = ⟨act, left + 1⟩ := by simpa using found
      simp [performances]
      omega
    | succ i =>
      have hrest := ih (i := i) (by simpa using found)
      simp only [performances, List.set_cons_succ, List.map_cons, List.sum_cons] at hrest ⊢
      omega

/-- So the budget goes down by what the handler has done. -/
theorem budget_put {acts : Table Text (List Limited)} {handler : Text} {before : List Limited}
    (found : acts.get? handler = some before) (now : List Limited) :
    budget (acts.put handler now) + performances before = budget acts + performances now := by
  induction acts with
  | nil => cases found
  | cons row rest ih =>
    obtain ⟨name, acts⟩ := row
    unfold Table.get? at found
    unfold Table.put
    split at found
    next same =>
      cases found
      rw [if_pos same]
      simp only [budget, List.map_cons, List.sum_cons]
      omega
    next other =>
      have hrest := ih found
      rw [if_neg other]
      simp only [budget, List.map_cons, List.sum_cons] at hrest ⊢
      omega

namespace Session

/-- Named handlers only emit events and throw what can be described, no more often than a number
says; failures are reported in a log that works. -/
structure Mild (host : Host) (n : Nat) (s : Session) : Prop where
  acts : ∀ row ∈ s.acts, ∀ l ∈ row.2, l.act.IsMild s.world.heap
  budget : Bus.budget s.acts ≤ n
  works : host.loggers.bus.Works s.world.heap
  ordered : s.bus.Ordered

variable {host : Host} {ev : Evaluator} {n : Nat} {s s' : Session} {handler : Text}

/-- An act is taken if it is there and has performances left. -/
theorem take?_eq_some {i : Nat} {act : Act} (taken : s.take? handler i = some (act, s')) :
    ∃ acts left, s.acts.get? handler = some acts ∧ acts[i]? = some ⟨act, left + 1⟩ ∧
      s' = { s with acts := s.acts.put handler (acts.set i ⟨act, left⟩) } := by
  unfold take? at taken
  dsimp only at taken
  split at taken
  next act' left found =>
    cases taken
    cases listed : s.acts.get? handler with
    | none =>
      rw [listed] at found
      cases found
    | some acts =>
      rw [listed] at found
      exact ⟨acts, left, rfl, found, by rw [Option.getD_some]⟩
  next => cases taken

/-- Once an act is taken there is one performance less, and the act is mild as the others are. -/
theorem Mild.take {i : Nat} {act : Act} (mild : s.Mild host n)
    (taken : s.take? handler i = some (act, s')) :
    ∃ m, n = m + 1 ∧ s'.Mild host m ∧ s.SameSubscriptions s' ∧ s'.world = s.world ∧
      act.IsMild s.world.heap := by
  obtain ⟨acts, left, listed, found, rfl⟩ := take?_eq_some taken
  obtain ⟨name, -, mem⟩ := Table.mem_of_get? listed
  have less := performances_set found
  have total := budget_put listed (acts.set i ⟨act, left⟩)
  have within := mild.budget
  obtain ⟨m, rfl⟩ : ∃ m, n = m + 1 := ⟨n - 1, by omega⟩
  have isMild := mild.acts _ mem ⟨act, left + 1⟩ (List.mem_of_getElem? found)
  refine ⟨m, rfl, ⟨fun row hrow l hl => ?_, by dsimp only; omega, mild.works, mild.ordered⟩,
    ⟨rfl, rfl⟩, rfl, isMild⟩
  rcases Table.mem_put hrow with before | ⟨now, -⟩
  · exact mild.acts row before l hl
  · rw [now] at hl
    rcases List.mem_or_eq_of_mem_set hl with kept | rfl
    · exact mild.acts _ mem l kept
    · exact isMild

/-- How a handler comes out that is mild: it changes no subscription, and what it throws can be
described. -/
structure ComesOut (host : Host) (n : Nat) (s : Session) (answer : Except Value Unit × Session) :
    Prop where
  same : s.SameSubscriptions answer.2
  mild : answer.2.Mild host n
  described : ∀ v, answer.1 = .error v → answer.2.world.heap.Describable v

/-- Acts that are mild come out mildly one after another, given that events can be emitted with one
performance less. -/
theorem performFrom_comesOut {emit : Event → Session → Except Value Unit × Session}
    (emits : ∀ m, n = m + 1 → ∀ event {s : Session}, s.Mild host m →
      ∃ s', emit event s = (.ok ⟨⟩, s') ∧ s'.Mild host m ∧ s.SameSubscriptions s')
    (handler : Text) (mild : s.Mild host n) (count i : Nat) :
    ComesOut host n s (performFrom emit handler count i s) := by
  induction count generalizing i s with
  | zero => exact ⟨.refl s, mild, nofun⟩
  | succ count ih =>
    unfold performFrom
    split
    next => exact ih mild (i + 1)
    -- an act that is taken leaves a smaller budget, with which it may emit
    next act s₁ taken =>
      obtain ⟨m, rfl, mild₁, same₁, world, isMild⟩ := mild.take taken
      cases isMild with
      | emit =>
        obtain ⟨s₂, emitted, mild₂, same₂⟩ := emits m rfl (s₁.event _ none) mild₁
        have weaker : s₂.Mild host (m + 1) :=
          { mild₂ with budget := Nat.le_succ_of_le mild₂.budget }
        rw [perform, emitted]
        have rest := ih weaker (i + 1)
        exact ⟨same₁.trans (same₂.trans rest.same), rest.mild, rest.described⟩
      | fail describable =>
        refine ⟨same₁, { mild₁ with budget := Nat.le_succ_of_le mild₁.budget }, fun v thrown => ?_⟩
        cases thrown
        exact world.symm ▸ describable

/-- Mild handlers are polite, given that events can be emitted with one performance less. -/
theorem polite_of_emits {emit : Event → Session → Except Value Unit × Session}
    (emits : ∀ m, n = m + 1 → ∀ event {s : Session}, s.Mild host m →
      ∃ s', emit event s = (.ok ⟨⟩, s') ∧ s'.Mild host m ∧ s.SameSubscriptions s') :
    Polite host ev (react emit) (Mild host n) := by
  have out (event : Event) (handler : Text) {s : Session} (mild : s.Mild host n) :
      ComesOut host n s (react emit event handler s) := by
    -- what the handler notes does not matter to what it does
    have noted : ((s.lift (note (.handled handler event.type event.data))).2).Mild host n :=
      ⟨mild.acts, mild.budget, mild.works, mild.ordered⟩
    have came := performFrom_comesOut emits handler noted
      ((s.acts.get? handler).getD []).length 0
    exact ⟨⟨came.same.bus, came.same.made⟩, came.mild, came.described⟩
  exact
    { returns := fun {event handler s s'} mild called => by
        have came := out event handler mild
        rw [called] at came
        exact ⟨came.same, came.mild⟩
      throws := fun {event handler s s' v} mild called => by
        have came := out event handler mild
        rw [called] at came
        obtain ⟨words, describes⟩ := (came.described v rfl).describes
        have left := came.mild
        exact ⟨came.same, _, ⟨words, s'.world, describes ev _ rfl, run_log_works ev left.works _ _ _⟩,
          ⟨left.acts, left.budget, left.works, left.ordered⟩⟩
      subscribe := fun type handler mild =>
        ⟨mild.acts, mild.budget, mild.works, mild.ordered.subscribe type handler⟩
      unsubscribe := fun {s} number mild => by
        unfold unsubscribe
        cases s.made[number]? with
        | none => exact mild
        | some made => exact ⟨mild.acts, mild.budget, mild.works, mild.ordered.unsubscribe _ _⟩
      clear := fun type mild => ⟨mild.acts, mild.budget, mild.works, mild.ordered.clear type⟩ }

/-- Named handlers that are mild are polite, however deeply they emit events within events. -/
theorem polite_react (host : Host) (ev : Evaluator) (n : Nat) :
    Polite host ev (react (emit host ev n)) (Mild host n) := by
  -- the induction is on the performances that are left, each of which may emit an event
  induction n with
  | zero => exact polite_of_emits fun m none_left => nomatch none_left
  | succ n ih =>
    refine polite_of_emits fun m left event s mild => ?_
    cases left
    obtain ⟨s', told, kept, same, -⟩ := tell_polite ih mild mild.ordered event
    exact ⟨s', told, kept, same⟩

/-! ## A session -/

/-- Three handlers: the first one throws, and the second one emits another event. -/
def sampleActs : Table Text (List Limited) :=
  [("first", [⟨.fail (.text "boom"), 3⟩]), ("second", [⟨.emit "later", 2⟩]), ("every", [])]

/-- A session in which nobody is subscribed yet. -/
def sampleSession : Session := ⟨World.initial Domain.heap, .empty, [], sampleActs⟩

/-- A history with a subscription that is taken back twice, and made again in between. -/
def sampleUses : List (Use Text) :=
  [.subscribe "run" "first", .subscribe "run" "second", .subscribe Event.any "every",
    .subscribe "run" "first", .tell ⟨"run", "", none, none⟩, .unsubscribe 0,
      .subscribe "run" "first",
    .unsubscribe 1, .unsubscribe 1, .tell ⟨"run", "", none, none⟩]

/-- An engine whose bus prints what it reports. -/
def sampleHost : Host := Host.engine Logger.recording (Logger.printing "EventBus") []

/-- The sample session is mild. -/
theorem mild_sampleSession : sampleSession.Mild sampleHost 5 where
  acts := by
    intro row hrow l hl
    simp only [sampleSession, sampleActs, List.mem_cons, List.not_mem_nil, or_false] at hrow
    rcases hrow with rfl | rfl | rfl
    · rw [List.mem_singleton.mp hl]
      exact .fail (.inl rfl)
    · rw [List.mem_singleton.mp hl]
      exact .emit
    · cases hl
  budget := by decide
  works := fun reached => (reached rfl).elim
  ordered := ordered_empty

/-- The bus of this session acts as a roster, and the history leaves it with the handler that was
subscribed last, although that throws whenever it is called. -/
theorem sampleSession_actsAsRoster :
    ActsAsRoster sampleHost (evaluator sampleHost 3)
      (react (emit sampleHost (evaluator sampleHost 3) 5))
      sampleSession ∧
    (Roster.empty.afterAll sampleUses).handlers "run" = ["first"] ∧
    (sampleSession.useAll sampleHost (evaluator sampleHost 3)
      (react (emit sampleHost (evaluator sampleHost 3) 5)) sampleUses).2.bus.count "run" = 1 :=
  ⟨actsAsRoster (polite_react sampleHost (evaluator sampleHost 3) 5) mild_sampleSession rfl rfl,
    by decide +kernel, by decide +kernel⟩

end Session

end Bus

end EvalPlan

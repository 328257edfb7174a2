import EvalPlan.Proofs.Subscriptions
import EvalPlan.Proofs.Traffic
import EvalPlan.Proofs.Uncalled

/-!
# What happens in a session

Whatever is done in a session of named handlers is a run of the traffic at its bus, move by move,
and the handlers that are noted as called are those that the moves call (`Proceeds`). This holds of
what a handler does when it is called, of an event that is emitted within others to any depth
(`emit_proceeds`), and of any history of uses (`useAll_proceeds`). What is true of all runs is true
of all sessions by this.

An event that is told without an error was delivered to all who were subscribed when it was told,
those apart who are removed while it is told (`tell_proceeds`).
-/

namespace EvalPlan.Bus

namespace Traffic

variable {H : Type} [BEq H] [LawfulBEq H] {x y : Traffic H} {moves : List (Move H)} {type : Text}
  {handler : H}

/-- Who is subscribed stays subscribed, unless removed. -/
theorem Run.subscribed (sound : x.Sound) (run : Run x moves y)
    (subscribed : handler ∈ x.bus.handlers type)
    (kept : ∀ m ∈ moves, ¬ m.Removes y.made type handler) : handler ∈ y.bus.handlers type := by
  cases listed : x.bus.table.get? type with
  | none =>
    rw [handlers_of_none listed] at subscribed
    cases subscribed
  | some k =>
    rw [handlers_of_some listed] at subscribed
    obtain ⟨sub, stands, rfl⟩ := List.mem_map.mp subscribed
    obtain ⟨listed', stands'⟩ := run.stands sound listed stands kept
    rw [handlers_of_some listed']
    exact List.mem_map_of_mem stands'

/-- At a moment when it is the only one in progress, a delivery calls a handler of a type. -/
def Tells (x : Traffic H) (moves : List (Move H)) (type : Text) (handler : H) : Prop :=
  ∃ before after y, moves = before ++ .call type handler :: after ∧ Run x before y ∧
    y.deliveries.length = 1

namespace Tells

omit [LawfulBEq H]

/-- Later moves take no telling back. -/
theorem append (h : x.Tells moves type handler) (more : List (Move H)) :
    x.Tells (moves ++ more) type handler := by
  obtain ⟨before, after, y, rfl, run, one⟩ := h
  exact ⟨before, after ++ more, y, by simp, run, one⟩

/-- A telling behind other moves is one after them. -/
theorem prepend {first : List (Move H)} (run : Run x first y) (h : y.Tells moves type handler) :
    x.Tells (first ++ moves) type handler := by
  obtain ⟨before, after, z, rfl, run', one⟩ := h
  exact ⟨first ++ before, after, z, by simp, run.trans run', one⟩

end Tells

end Traffic

namespace Session

open Traffic (Run Step)

/-- The bus of a session in the midst of deliveries. -/
def traffic {H A : Type} (s : Session H A) (deliveries : List Delivery) : Traffic H :=
  ⟨s.bus, s.made, deliveries⟩

/-- A session goes on to another one by moves, from some innermost deliveries to others, whatever
the outer deliveries are. The handlers that are called meanwhile are those that the moves call. -/
structure Proceeds (s : Session) (inner : List Delivery) (moves : List (Move Text)) (s' : Session)
    (inner' : List Delivery) : Prop where
  run : ∀ outer, Run (s.traffic (inner ++ outer)) moves (s'.traffic (inner' ++ outer))
  calls : s'.world.calls = s.world.calls ++ moves.filterMap Move.called?

variable {s s₁ s' : Session} {ds ds₁ ds' : List Delivery} {moves moves' : List (Move Text)}
  {m : Move Text}

namespace Proceeds

/-- What leaves bus and calls alone makes no move. -/
theorem of_same (bus : s'.bus = s.bus) (made : s'.made = s.made)
    (calls : s'.world.calls = s.world.calls) : s.Proceeds ds [] s' ds where
  run outer := by
    rw [traffic, traffic, bus, made]
    exact .nil
  calls := by rw [calls, List.filterMap_nil, List.append_nil]

/-- Nothing is done by no moves. -/
theorem refl (s : Session) : s.Proceeds ds [] s ds := .of_same rfl rfl rfl

/-- Moves go one after the other. -/
theorem trans (h : s.Proceeds ds moves s₁ ds₁) (h' : s₁.Proceeds ds₁ moves' s' ds') :
    s.Proceeds ds (moves ++ moves') s' ds' where
  run outer := (h.run outer).trans (h'.run outer)
  calls := by rw [h'.calls, h.calls, List.filterMap_append, List.append_assoc]

/-- What happens in no delivery happens in any. -/
theorem within (h : s.Proceeds [] moves s' []) (ds : List Delivery) :
    s.Proceeds ds moves s' ds where
  run outer := h.run (ds ++ outer)
  calls := h.calls

/-- A move that calls nobody. -/
theorem of_step (calls : s'.world.calls = s.world.calls) (silent : m.called? = none)
    (step : ∀ outer, Step (s.traffic (ds ++ outer)) m (s'.traffic (ds' ++ outer))) :
    s.Proceeds ds [m] s' ds' where
  run outer := (step outer).run
  calls := by rw [calls, List.filterMap_cons_none silent, List.filterMap_nil, List.append_nil]

/-- Subscribing is one move. -/
theorem subscribe (s : Session) (type handler : Text) :
    s.Proceeds [] [.subscribe type handler] (s.subscribe type handler).2 [] :=
  .of_step rfl rfl fun _ => .subscribe

/-- So is clearing. -/
theorem clear (s : Session) (type : Option Text) : s.Proceeds [] [.clear type] (s.clear type) [] :=
  .of_step rfl rfl fun _ => .clear

/-- So is using the handle of a subscription. -/
theorem unsubscribe {number : Nat} (made : number < s.made.length) :
    s.Proceeds [] [.unsubscribe number] (s.unsubscribe number) [] := by
  have found := List.getElem?_eq_getElem made
  unfold Session.unsubscribe
  rw [found]
  exact .of_step rfl rfl fun _ => .unsubscribe found

end Proceeds

/-- A number that was given to no subscription takes nothing back. -/
theorem unsubscribe_astray {number : Nat} (astray : s.made.length ≤ number) :
    s.unsubscribe number = s := by
  unfold unsubscribe
  rw [List.getElem?_eq_none astray]

/-- Using any handle is a run of moves: of none, if it was never given out. -/
theorem exists_unsubscribe (s : Session) (number : Nat) :
    ∃ moves, s.Proceeds [] moves (s.unsubscribe number) [] := by
  rcases Nat.lt_or_ge number s.made.length with made | astray
  · exact ⟨_, .unsubscribe made⟩
  · rw [unsubscribe_astray astray]
    exact ⟨[], .refl s⟩

/-- Nobody has been subscribed yet. -/
structure Unused (s : Session) : Prop where
  bus : s.bus = .empty
  made : s.made = []

/-- A session from a bus without subscriptions runs from an idle one. -/
theorem Unused.run (unused : s.Unused) (h : s.Proceeds [] moves s' ds) :
    Run Traffic.idle moves (s'.traffic ds) := by
  have run := h.run []
  rw [List.append_nil ds, traffic, unused.bus, unused.made] at run
  exact run

/-- What happens in no delivery calls nobody who is not subscribed. -/
theorem Proceeds.uncalled {type handler : Text} (h : s.Proceeds [] moves s' [])
    (coherent : s.bus.Coherent)
    (gone : handler ∉ s.bus.handlers type) (apart : .subscribe type handler ∉ moves) :
    .call type handler ∉ moves := by
  have removed : (s.traffic []).Removed type handler := ⟨gone, nofun⟩
  exact (removed.run ⟨coherent, nofun, nofun⟩ (h.run []) apart).2

/-! ## Handlers that are called -/

/-- Emitting events is traffic. -/
def Emits (emit : Event → Session → Except Value Unit × Session) : Prop :=
  ∀ event (s : Session), ∃ moves, s.Proceeds [] moves (emit event s).2 []

section handlers

variable {emit : Event → Session → Except Value Unit × Session} (emits : Emits emit)

include emits

/-- Every act goes by moves of its own and those of what it emits. -/
theorem perform_proceeds (act : Act) (s : Session) :
    ∃ moves, s.Proceeds [] moves (perform emit act s).2 [] := by
  cases act with
  | subscribe type handler => exact ⟨_, .subscribe s type handler⟩
  | unsubscribe number => exact exists_unsubscribe s number
  | emit type => exact emits _ s
  | clear type => exact ⟨_, .clear s type⟩
  | fail v => exact ⟨[], .refl s⟩

/-- So do acts one after the other. -/
theorem performFrom_proceeds (handler : Text) (count i : Nat) (s : Session) :
    ∃ moves, s.Proceeds [] moves (performFrom emit handler count i s).2 [] := by
  induction count generalizing i s with
  | zero => exact ⟨[], .refl s⟩
  | succ count ih =>
    unfold performFrom
    split
    next => exact ih (i + 1) s
    next act s₁ taken =>
      obtain ⟨acts, left, -, -, rfl⟩ := take?_eq_some taken
      let spent : Session := { s with acts := s.acts.put handler (acts.set i ⟨act, left⟩) }
      have took : s.Proceeds [] [] spent [] := .of_same rfl rfl rfl
      obtain ⟨moves, performed⟩ := perform_proceeds emits act spent
      split
      next s₂ same =>
        rw [same] at performed
        obtain ⟨rest, others⟩ := ih (i + 1) s₂
        exact ⟨_, (took.trans performed).trans others⟩
      next => exact ⟨_, took.trans performed⟩

/-- A delivery that calls a handler: what the handler does is traffic within the delivery, and
nothing else happens at the bus when the handler throws. -/
theorem call_proceeds (host : Host) (n : Nat) (event : Event) {d : Delivery}
    {sub : Subscription Text} (found : s.bus.next? d.channel d.serial = some sub) :
    ∃ moves, s.Proceeds [d] (.call d.type sub.handler :: moves)
      (call host (evaluator host n) (react emit) event sub.handler s).2
      [{ d with serial := sub.serial + 1 }] := by
  -- the call is noted before the handler does anything
  let noted := (s.lift (Action.note (.handled sub.handler event.type event.data))).2
  have called : s.Proceeds [d] [.call d.type sub.handler] noted
      [{ d with serial := sub.serial + 1 }] :=
    { run := fun _ => Step.run (.call found)
      calls := List.filterMap_append }
  obtain ⟨moves, performed⟩ :=
    performFrom_proceeds emits sub.handler ((s.acts.get? sub.handler).getD []).length 0 noted
  refine ⟨moves, ?_⟩
  have reacted : s.Proceeds [d] (.call d.type sub.handler :: moves)
    (react emit event sub.handler s).2
      [{ d with serial := sub.serial + 1 }] := called.trans (performed.within _)
  unfold call
  split
  next s₁ same =>
    rw [same] at reacted
    exact reacted
  next thrown s₁ same =>
    rw [same] at reacted
    have reported : s₁.Proceeds [{ d with serial := sub.serial + 1 }] []
        (s₁.lift (Action.reportFailure host (evaluator host n) event thrown)).2
        [{ d with serial := sub.serial + 1 }] :=
      .of_same rfl rfl (reportFailure_callsNobody host (evaluator_callsNobody host n) event thrown s₁.world)
    exact List.append_nil moves ▸ reacted.trans reported

end handlers

/-! ## Events that are delivered -/

/-- Moves from one session to another have a handler of a type told by the outermost delivery,
unless they remove it. -/
def Serves (s : Session) (ds : List Delivery) (moves : List (Move Text)) (s' : Session)
    (type handler : Text) : Prop :=
  (∀ m ∈ moves, ¬ m.Removes s'.made type handler) → (s.traffic ds).Tells moves type handler

/-- What removes nobody in the end did not when it happened, as numbers of subscriptions stay what
they are. -/
theorem Proceeds.kept {moves : List (Move Text)} {type handler : Text}
    (h : s₁.Proceeds ds moves' s' ds')
    (kept : ∀ m ∈ moves, ¬ m.Removes s'.made type handler) :
    ∀ m ∈ moves, ¬ m.Removes s₁.made type handler := by
  intro m mem removes
  have made : s'.made = _ := (h.run []).made_eq
  exact kept m mem (made ▸ Traffic.removes_append removes)

/-- A delivery that begins goes through the channel that is listed for its type. -/
theorem sound_traffic {d : Delivery} (coherent : s.bus.Coherent)
    (listed : s.bus.table.get? d.type = some d.channel) : (s.traffic [d]).Sound where
  coherent := coherent
  opened := List.forall_mem_singleton.mpr (coherent.opened listed)
  own := List.forall_mem_singleton.mpr fun listed' => coherent.apart listed' listed

section delivered

variable {emit : Event → Session → Except Value Unit × Session} (emits : Emits emit) (host : Host)
  (n : Nat)
  (event : Event)

/-- How named handlers are called when an event is delivered. -/
def named (emit : Event → Session → Except Value Unit × Session) (host : Host) (n : Nat) :
    Hub Session Text Value := ⟨Session.bus, call host (evaluator host n) (react emit)⟩

include emits

/-- The rest of a delivery is traffic. If it ends well, it calls everybody whose turn was to come,
those apart who are removed before. -/
theorem walk_proceeds {d : Delivery} {bound : Nat} {r : Except Value Unit}
    (walked : (named emit host n).walk event d.channel bound d.serial s = some (r, s')) :
    ∃ moves, s.Proceeds [d] moves s' [] ∧ (r = .ok ⟨⟩ → s.bus.Coherent →
      s.bus.table.get? d.type = some d.channel → ∀ sub ∈ s.bus.channel d.channel,
        d.serial ≤ sub.serial →
        s.Serves [d] moves s' d.type sub.handler) := by
  -- the induction is on the calls that are allowed; the subscriptions that stand are carried from
  -- call to call
  induction bound generalizing d s with
  | zero => cases walked
  | succ bound ih =>
    unfold Hub.walk at walked
    split at walked
    next ended =>
      cases walked
      have stopped : s'.Proceeds [d] [.stop] s' [] := .of_step rfl rfl fun _ => .stop
      exact ⟨_, stopped, fun _ _ _ sub stands later =>
        absurd later (Nat.not_le.mpr (Bus.next?_eq_none ended stands))⟩
    next first found =>
      obtain ⟨moves, called⟩ := call_proceeds emits host n event found
      split at walked
      next s₁ same =>
        rw [show call host (evaluator host n) (react emit) event first.handler s =
          _ from same] at called
        obtain ⟨rest, others, serves⟩ := ih (d := { d with serial := first.serial + 1 }) walked
        refine ⟨_, called.trans others, fun well coherent listed sub stands later kept => ?_⟩
        rcases coherent.next?_le found stands later with rfl | behind
        · have now : (s.traffic [d]).Tells (.call d.type sub.handler :: moves) d.type sub.handler :=
            ⟨[], moves, _, rfl, .nil, rfl⟩
          exact now.append rest
        · have sound := sound_traffic coherent listed
          obtain ⟨kept₁, kept'⟩ := List.forall_mem_append.mp kept
          obtain ⟨listed', stands'⟩ :=
            (called.run []).stands sound listed stands (others.kept kept₁)
          have coherent' := (sound.run (called.run [])).coherent
          exact .prepend (called.run []) (serves well coherent' listed' sub stands' behind kept')
      next thrown s₁ same =>
        cases walked
        rw [show call host (evaluator host n) (react emit) event first.handler s =
          _ from same] at called
        have stopped : s'.Proceeds [{ d with serial := first.serial + 1 }] [.stop] s' [] :=
          .of_step rfl rfl fun _ => .stop
        refine ⟨_, called.trans stopped, ?_⟩
        rintro ⟨⟩

/-- Delivering an event to the handlers of a type is traffic. If it ends well, they were called. -/
theorem dispatch_proceeds {type : Text} {bound : Nat} {r : Except Value Unit}
    (dispatched : (named emit host n).dispatch bound type event s = some (r, s')) :
    ∃ moves, s.Proceeds [] moves s' [] ∧ (r = .ok ⟨⟩ → s.bus.Coherent →
      ∀ handler ∈ s.bus.handlers type, s.Serves [] moves s' type handler) := by
  unfold Hub.dispatch at dispatched
  split at dispatched
  next unlisted =>
    cases dispatched
    refine ⟨[], .refl s, fun _ _ handler subscribed => ?_⟩
    rw [handlers_of_none (show s.bus.table.get? type = none from unlisted)] at subscribed
    cases subscribed
  next c listed =>
    replace listed : s.bus.table.get? type = some c := listed
    obtain ⟨moves, walked, serves⟩ :=
      walk_proceeds emits host n event (d := ⟨type, c, 0⟩) dispatched
    have started : s.Proceeds [] [.start type] s [⟨type, c, 0⟩] := .of_step rfl rfl fun _ =>
      .start listed
    refine ⟨_, started.trans walked, fun well coherent handler subscribed kept => ?_⟩
    rw [handlers_of_some listed] at subscribed
    obtain ⟨sub, stands, rfl⟩ := List.mem_map.mp subscribed
    exact .prepend (started.run []) (serves well coherent listed sub stands (Nat.zero_le _)
      fun m mem => kept m (List.mem_append_right _ mem))

/-- So is delivering it to the handlers of its type and then to those of every event. -/
theorem hub_emit_proceeds {bound : Nat} {r : Except Value Unit}
    (emitted : (named emit host n).emit bound event s = some (r, s')) :
    ∃ moves, s.Proceeds [] moves s' [] ∧ (r = .ok ⟨⟩ → s.bus.Coherent →
      ∀ type, type = event.type ∨ type = Event.any → ∀ handler ∈ s.bus.handlers type,
        s.Serves [] moves s' type handler) := by
  unfold Hub.emit at emitted
  split at emitted
  next s₁ first =>
    obtain ⟨moves, own, serves⟩ := dispatch_proceeds emits host n event first
    -- the handlers of the type come first, and then those of every event
    obtain ⟨moves', every, serves'⟩ := dispatch_proceeds emits host n event emitted
    refine ⟨_, own.trans every, fun well coherent type told handler subscribed kept => ?_⟩
    obtain ⟨kept₁, kept'⟩ := List.forall_mem_append.mp kept
    rcases told with rfl | rfl
    · exact (serves rfl coherent handler subscribed (every.kept kept₁)).append moves'
    · -- who is subscribed to every event still is when the handlers of the event's own type were called
      have sound : (s.traffic []).Sound := ⟨coherent, nofun, nofun⟩
      have subscribed' := (own.run []).subscribed sound subscribed (every.kept kept₁)
      have coherent' := (sound.run (own.run [])).coherent
      exact .prepend (own.run []) (serves' well coherent' handler subscribed' kept')
  next other =>
    obtain ⟨moves, own, -⟩ := dispatch_proceeds emits host n event emitted
    exact ⟨moves, own, fun well => absurd (well ▸ emitted) (other _ _)⟩

/-- Telling an event is traffic. If it ends well, it was delivered to those who are subscribed to
its type, and to those who are subscribed to every event. -/
theorem tell_proceeds {r : Except Value Unit}
    (told : s.tell host (evaluator host n) (react emit) event = (r, s')) :
    ∃ moves, s.Proceeds [] moves s' [] ∧ (r = .ok ⟨⟩ → s.bus.Coherent →
      ∀ type, type = event.type ∨ type = Event.any → ∀ handler ∈ s.bus.handlers type,
        s.Serves [] moves s' type handler) := by
  unfold tell at told
  cases emitted : (named emit host n).emit (s.bus.serial + deliveryBound) event s with
  | some answer =>
    rw [named] at emitted
    simp only [emitted] at told
    subst told
    exact hub_emit_proceeds emits host n event emitted
  | none =>
    rw [named] at emitted
    simp only [emitted] at told
    cases told
    exact ⟨[], .of_same rfl rfl rfl, nofun⟩

end delivered

/-- Emitting an event is traffic, however deeply events are emitted within it. -/
theorem emit_proceeds (host : Host) (n depth : Nat) :
    Emits (emit host (evaluator host n) depth) := by
  induction depth with
  | zero => exact fun event s => ⟨[], .of_same rfl rfl rfl⟩
  | succ depth ih =>
    intro event s
    obtain ⟨moves, told, -⟩ := tell_proceeds ih host n event (s := s) rfl
    exact ⟨moves, told⟩

/-- So is any history of uses of the bus. -/
theorem useAll_proceeds (host : Host) (n depth : Nat) (s : Session) (uses : List (Use Text)) :
    ∃ moves, s.Proceeds [] moves
      (s.useAll host (evaluator host n) (react (emit host (evaluator host n) depth)) uses).2
        [] := by
  induction uses generalizing s with
  | nil => exact ⟨[], .refl s⟩
  | cons u uses ih =>
    have used : ∃ moves, s.Proceeds [] moves
        (s.use host (evaluator host n) (react (emit host (evaluator host n) depth)) u).2 [] := by
      cases u with
      | subscribe type handler => exact ⟨_, .subscribe s type handler⟩
      | unsubscribe number => exact exists_unsubscribe s number
      | clear type => exact ⟨_, .clear s type⟩
      | tell event => exact emit_proceeds host n (depth + 1) event s
    obtain ⟨moves, first⟩ := used
    unfold useAll
    split
    next s₁ same =>
      rw [same] at first
      obtain ⟨moves', rest⟩ := ih s₁
      exact ⟨_, first.trans rest⟩
    next => exact ⟨moves, first⟩

end Session

end EvalPlan.Bus

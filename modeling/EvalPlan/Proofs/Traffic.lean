import EvalPlan.Proofs.Emission

/-!
# Buses in use

While an event is delivered, the handler that is called may change subscriptions and have other
events delivered before it returns. `Traffic` is a bus with the deliveries that are in progress, one
within another, and a `Run` is what happens from one moment to another, move by move, whoever makes
the moves.

Two questions are answered here for all runs. A handler is subscribed as long as one of its
subscriptions stands (`mem_handlers_iff`). And a handler that was removed from a type is called
again only by deliveries to the type that have it still before them (`Removed.run`,
`Pending.exists_call`); there are none of these where the type is never cleared while an event is
delivered to it (`Considerate.attached`).
-/

namespace EvalPlan.Bus

variable {H : Type}

/-- A delivery of an event that is in progress. -/
structure Delivery where
  /-- The type to whose handlers the event is delivered. -/
  type : Text
  /-- The channel that it goes through. -/
  channel : Nat
  /-- The serial number from which on subscriptions have not had their turn. -/
  serial : Nat

/-- A bus in use: the subscriptions that were made on it are known by their numbers, and the
deliveries that are in progress by their order, the innermost first. -/
structure Traffic (H : Type) where
  /-- The bus. -/
  bus : Bus H
  /-- The subscriptions that were made, in order. -/
  made : List (Text × H)
  /-- The deliveries that are in progress. -/
  deliveries : List Delivery

/-- What may happen at a bus. -/
inductive Move (H : Type)
  /-- A handler is subscribed to a type. -/
  | subscribe (type : Text) (handler : H)
  /-- The subscription of a number is taken back. -/
  | unsubscribe (number : Nat)
  /-- A type is cleared, or all of them are. -/
  | clear (type : Option Text)
  /-- A delivery to the handlers of a type begins. -/
  | start (type : Text)
  /-- The innermost delivery, which is one to a type, calls a handler. -/
  | call (type : Text) (handler : H)
  /-- The innermost delivery ends, because it is through or because something was thrown. -/
  | stop

namespace Move

/-- The subscription that the move makes. -/
def subscription? : Move H → Option (Text × H)
  | subscribe type handler => some (type, handler)
  | _ => none

/-- The handler that the move calls. -/
def called? : Move H → Option H
  | call _ handler => some handler
  | _ => none

/-- The move takes a handler out of a type: it clears the type, or takes a subscription of the
handler to the type back. -/
def Removes (made : List (Text × H)) (type : Text) (handler : H) : Move H → Prop
  | unsubscribe number => made[number]? = some (type, handler)
  | clear cleared => clears cleared type = true
  | _ => False

end Move

/-- The subscriptions that moves make, in order. -/
def subscriptions (moves : List (Move H)) : List (Text × H) := moves.filterMap Move.subscription?

/-- One of the subscriptions of a handler to a type stands: no move behind it takes the handler out
of the type. -/
def Stands (moves : List (Move H)) (type : Text) (handler : H) : Prop :=
  ∃ before after, moves = before ++ .subscribe type handler :: after ∧
    ∀ m ∈ after, ¬ m.Removes (subscriptions moves) type handler

namespace Traffic

/-- Nobody is subscribed, and nothing is delivered. -/
def idle : Traffic H := ⟨empty, [], []⟩

/-- A move, and what it leads to. -/
inductive Step [BEq H] : Traffic H → Move H → Traffic H → Prop
  | subscribe {b : Bus H} {made ds type handler} :
      Step ⟨b, made, ds⟩ (.subscribe type handler)
        ⟨b.subscribe type handler, made ++ [(type, handler)], ds⟩
  | unsubscribe {b : Bus H} {made : List (Text × H)} {ds number type handler} :
      made[number]? = some (type, handler) →
      Step ⟨b, made, ds⟩ (.unsubscribe number) ⟨b.unsubscribe type handler, made, ds⟩
  | clear {b : Bus H} {made ds type} : Step ⟨b, made, ds⟩ (.clear type) ⟨b.clear type, made, ds⟩
  | start {b : Bus H} {made ds type c} : b.table.get? type = some c →
      Step ⟨b, made, ds⟩ (.start type) ⟨b, made, ⟨type, c, 0⟩ :: ds⟩
  | call {b : Bus H} {made ds} {d : Delivery} {sub} : b.next? d.channel d.serial = some sub →
      Step ⟨b, made, d :: ds⟩ (.call d.type sub.handler)
        ⟨b, made, { d with serial := sub.serial + 1 } :: ds⟩
  | stop {b : Bus H} {made ds d} : Step ⟨b, made, d :: ds⟩ .stop ⟨b, made, ds⟩

/-- Moves one after another. -/
inductive Run [BEq H] (x : Traffic H) : List (Move H) → Traffic H → Prop
  | nil : Run x [] x
  | snoc {moves y m z} : Run x moves y → Step y m z → Run x (moves ++ [m]) z

variable [BEq H] {x y z : Traffic H} {m : Move H} {moves moves' : List (Move H)} {b : Bus H}
  {made made' : List (Text × H)} {ds : List Delivery} {type : Text} {handler : H}

/-- One move is a run. -/
theorem Step.run (step : Step x m y) : Run x [m] y := .snoc .nil step

/-- Two runs, the second from where the first one ended, make one. -/
theorem Run.trans (first : Run x moves y) (rest : Run y moves' z) : Run x (moves ++ moves') z := by
  induction rest with
  | nil => rwa [List.append_nil]
  | snoc _ step ih =>
    rw [← List.append_assoc]
    exact .snoc ih step

/-- Between moves there is a state. -/
theorem Run.exists_between (run : Run x (moves ++ moves') z) : ∃ y, Run x moves y ∧
    Run y moves' z := by
  generalize split : moves ++ moves' = all at run
  induction run generalizing moves' with
  | nil =>
    obtain ⟨rfl, rfl⟩ := List.append_eq_nil_iff.mp split
    exact ⟨x, .nil, .nil⟩
  | @snoc all y m z first step ih =>
    rcases List.eq_nil_or_concat' moves' with rfl | ⟨moves', last, rfl⟩
    · rw [List.append_nil] at split
      subst split
      exact ⟨z, .snoc first step, .nil⟩
    · rw [← List.append_assoc] at split
      obtain ⟨rfl, same⟩ := List.append_inj' split rfl
      obtain rfl : last = m := List.singleton_inj.mp same
      obtain ⟨between, run, run'⟩ := ih rfl
      exact ⟨between, run, .snoc run' step⟩

/-! ## Soundness -/

/-- The deliveries that are in progress go through channels of their types, also where these are not
listed with them anymore. -/
structure Sound (x : Traffic H) : Prop where
  coherent : x.bus.Coherent
  opened : ∀ d ∈ x.deliveries, d.channel < x.bus.channels.size
  own : ∀ d ∈ x.deliveries, ∀ {type}, x.bus.table.get? type = some d.channel → type = d.type

omit [BEq H] in
/-- Nothing is delivered at first. -/
theorem sound_idle : (idle : Traffic H).Sound := ⟨coherent_empty, nofun, nofun⟩

variable [LawfulBEq H]

/-- A change to the bus leaves the deliveries that are in progress in channels of their types. -/
theorem Sound.change (h : Sound ⟨b, made, ds⟩) (c : Change H) (made' : List (Text × H)) :
    Sound ⟨b.change c, made', ds⟩ where
  coherent := h.coherent.change c
  opened d hd := Nat.lt_of_lt_of_le (h.opened d hd) (size_change b c)
  own d hd _ listed := by
    rcases listed_of_change h.coherent listed with before | fresh
    · exact h.own d hd before
    · -- a new channel is none that a delivery goes through
      exact absurd (h.opened d hd) (fresh ▸ Nat.lt_irrefl _)

/-- Every other move does so too. -/
theorem Sound.step (h : x.Sound) (step : Step x m y) : y.Sound := by
  cases step with
  | subscribe => exact h.change (.subscribe _ _) _
  | unsubscribe => exact h.change (.unsubscribe _ _) _
  | clear => exact h.change (.clear _) _
  | start listed =>
    exact ⟨h.coherent, List.forall_mem_cons.mpr ⟨h.coherent.opened listed, h.opened⟩,
      List.forall_mem_cons.mpr ⟨fun listed' => h.coherent.apart listed' listed, h.own⟩⟩
  | call =>
    obtain ⟨opened, others⟩ := List.forall_mem_cons.mp h.opened
    obtain ⟨own, others'⟩ := List.forall_mem_cons.mp h.own
    exact ⟨h.coherent, List.forall_mem_cons.mpr ⟨opened, others⟩,
      List.forall_mem_cons.mpr ⟨own, others'⟩⟩
  | stop => exact ⟨h.coherent, (List.forall_mem_cons.mp h.opened).2,
      (List.forall_mem_cons.mp h.own).2⟩

/-- So do all moves, by induction. -/
theorem Sound.run (h : x.Sound) (run : Run x moves y) : y.Sound := by
  induction run with
  | nil => exact h
  | snoc _ step ih => exact ih.step step

/-! ## Subscriptions that stand -/

omit [BEq H] [LawfulBEq H] in
/-- A subscription that is made later has another number. -/
theorem removes_append {more : List (Text × H)} (h : m.Removes made type handler) :
    m.Removes (made ++ more) type handler := by
  cases m with
  | unsubscribe number =>
    show (made ++ more)[number]? = some (type, handler)
    rw [List.getElem?_append_left (List.getElem?_eq_some_iff.mp h).1]
    exact h
  | clear => exact h
  | _ => cases h

omit [BEq H] [LawfulBEq H] in
/-- The last move comes last among the subscriptions. -/
theorem subscriptions_concat (moves : List (Move H)) (m : Move H) :
    subscriptions (moves ++ [m]) = subscriptions moves ++ m.subscription?.toList := by
  rw [subscriptions, List.filterMap_append]
  cases h : m.subscription? <;> simp [subscriptions, h]

omit [BEq H] [LawfulBEq H] in
/-- After one more move a subscription stands if it is made now, or if it stood before and is not
taken away. -/
theorem stands_concat : Stands (moves ++ [m]) type handler ↔
    m = .subscribe type handler ∨
      Stands moves type handler ∧ ¬ m.Removes (subscriptions moves) type handler := by
  rw [Stands, subscriptions_concat]
  constructor
  · rintro ⟨before, after, split, spared⟩
    rcases List.eq_nil_or_concat' after with rfl | ⟨after, last, rfl⟩
    · exact .inl (by simpa using (List.append_inj' split rfl).2)
    · rw [← List.cons_append, ← List.append_assoc] at split
      obtain ⟨rfl, same⟩ := List.append_inj' split rfl
      obtain rfl : m = last := by simpa using same
      refine .inr ⟨⟨before, after, rfl, fun m' hm' removes => ?_⟩, fun removes => ?_⟩
      · exact spared m' (List.mem_append_left _ hm') (removes_append removes)
      · exact spared m (List.mem_append_right _ List.mem_cons_self) (removes_append removes)
  · by_cases now : m = .subscribe type handler
    · subst now
      exact fun _ => ⟨moves, [], rfl, nofun⟩
    · rintro (same | ⟨⟨before, after, rfl, spared⟩, kept⟩)
      · exact absurd same now
      -- the number of the subscription that is made now is that of another handler or type
      have later {m' : Move H} (h : ¬ m'.Removes (subscriptions (before ++ .subscribe type handler :: after))
          type handler) : ¬ m'.Removes
            (subscriptions (before ++ .subscribe type handler :: after) ++
            m.subscription?.toList) type handler := by
        intro removes
        cases m' with
        | unsubscribe number =>
          have found := List.getElem?_append.symm.trans removes
          split at found
          next => exact h found
          next =>
            have mem : (type, handler) ∈ m.subscription?.toList := List.mem_of_getElem? found
            cases m with
            | subscribe =>
              obtain ⟨rfl, rfl⟩ := Prod.mk.inj (List.mem_singleton.mp mem)
              exact now rfl
            | _ => cases mem
        | clear => exact h removes
        | _ => cases removes
      refine ⟨before, after ++ [m], by simp, fun m' hm' => ?_⟩
      rcases List.mem_append.mp hm' with hm' | hm'
      · exact later (spared m' hm')
      · exact later (List.mem_singleton.mp hm' ▸ kept)

/-- What a move does to who is subscribed. -/
theorem Step.mem_handlers_iff (sound : x.Sound) (step : Step x m y) :
    handler ∈ y.bus.handlers type ↔ m = .subscribe type handler ∨
      handler ∈ x.bus.handlers type ∧ ¬ m.Removes x.made type handler := by
  -- only subscribing adds a handler; only unsubscribing and clearing take some away
  cases step with
  | @subscribe b made ds type' handler' =>
    simp only [handlers_subscribe sound.coherent, Move.Removes, not_false_eq_true, and_true,
      Move.subscribe.injEq]
    by_cases same : type = type'
    · subst same
      rw [if_pos rfl]
      split
      next present =>
        rw [List.contains_iff_mem] at present
        exact ⟨.inr, fun h => h.elim (fun h => h.2 ▸ present) id⟩
      next =>
        rw [List.mem_append, List.mem_singleton, or_comm]
        exact or_congr_left ⟨fun h => ⟨rfl, h.symm⟩, fun h => h.2.symm⟩
    · rw [if_neg same]
      exact ⟨.inr, fun h => h.elim (fun h => absurd h.1.symm same) id⟩
  | @unsubscribe b made ds number type' handler' found =>
    simp only [handlers_unsubscribe sound.coherent, Move.Removes, found, reduceCtorEq, false_or,
      Option.some.injEq, Prod.mk.injEq]
    by_cases same : type = type'
    · subst same
      rw [if_pos rfl, (sound.coherent.nodup type).mem_erase_iff, and_comm]
      exact and_congr_right fun _ => not_congr ⟨fun h => ⟨rfl, h.symm⟩, fun h => h.2.symm⟩
    · rw [if_neg same]
      exact ⟨fun h => ⟨h, fun h' => same h'.1.symm⟩, fun h => h.1⟩
  | @clear b made ds cleared =>
    simp only [handlers_clear sound.coherent, Move.Removes, reduceCtorEq, false_or]
    split <;> simp_all
  | _ => simp [Move.Removes]

omit [LawfulBEq H] in
/-- A move is counted among the subscriptions if it makes one. -/
theorem Step.made_eq (step : Step x m y) : y.made = x.made ++ m.subscription?.toList := by
  cases step with
  | subscribe => rfl
  | _ => exact (List.append_nil _).symm

/-- A handler is subscribed to a type exactly as long as one of its subscriptions stands. -/
theorem mem_handlers_iff (run : Run idle moves x) : x.made = subscriptions moves ∧
    ∀ type handler, handler ∈ x.bus.handlers type ↔ Stands moves type handler := by
  induction run with
  | nil =>
    exact ⟨rfl, fun type handler => iff_of_false List.not_mem_nil fun ⟨_, _, split, _⟩ => by simp at split⟩
  | snoc first step ih =>
    refine ⟨by rw [step.made_eq, ih.1, subscriptions_concat], fun type handler => ?_⟩
    rw [step.mem_handlers_iff (sound_idle.run first), stands_concat, ih.1, ih.2]

/-! ## Removed handlers -/

omit [BEq H] [LawfulBEq H] in
/-- A delivery to the type that is in progress has the handler still before it. -/
def Pending (x : Traffic H) (type : Text) (handler : H) : Prop :=
  ∃ d ∈ x.deliveries, d.type = type ∧
    ∃ sub ∈ x.bus.channel d.channel, sub.handler = handler ∧ d.serial ≤ sub.serial

omit [BEq H] [LawfulBEq H] in
/-- The handler is not subscribed to the type, and no delivery has it before it. -/
structure Removed (x : Traffic H) (type : Text) (handler : H) : Prop where
  unsubscribed : handler ∉ x.bus.handlers type
  passed : ¬ x.Pending type handler

/-- A handler that is out stays out of the bus and of every delivery, unless it is subscribed
again. -/
theorem Removed.change (h : Removed ⟨b, made, ds⟩ type handler) (sound : Sound ⟨b, made, ds⟩)
    {c : Change H} (other : c ≠ .subscribe type handler) (made' : List (Text × H)) :
    Removed ⟨b.change c, made', ds⟩ type handler where
  unsubscribed mem := (mem_handlers_change sound.coherent mem).elim h.unsubscribed other
  passed := by
    rintro ⟨d, hd, rfl, sub, stands, rfl, later⟩
    rcases mem_channel_change sound.coherent stands with before | ⟨type, rfl, listed⟩
    · exact h.passed ⟨d, hd, rfl, sub, before, rfl, later⟩
    · -- what is appended to the channel is subscribed to the type of the delivery
      exact other (congrArg (Change.subscribe · sub.handler) ((sound.change _ made').own d hd listed))

/-- A handler that was removed is not called, and stays removed unless it is subscribed again. -/
theorem Removed.step (h : x.Removed type handler) (sound : x.Sound) (step : Step x m y)
    (other : m ≠ .subscribe type handler) : y.Removed type handler ∧ m ≠ .call type handler := by
  cases step with
  | subscribe =>
    exact ⟨h.change (c := .subscribe _ _) sound (fun same => by cases same; exact other rfl) _,
      nofun⟩
  | unsubscribe => exact ⟨h.change (c := .unsubscribe _ _) sound nofun _, nofun⟩
  | clear => exact ⟨h.change (c := .clear _) sound nofun _, nofun⟩
  | start listed =>
    refine ⟨⟨h.unsubscribed, ?_⟩, nofun⟩
    rintro ⟨d, hd, rfl, sub, stands, rfl, later⟩
    rcases List.mem_cons.mp hd with rfl | hd
    · -- a new delivery goes through the channel of those that are subscribed
      refine h.unsubscribed ?_
      rw [handlers_of_some listed]
      exact List.mem_map_of_mem stands
    · exact h.passed ⟨d, hd, rfl, sub, stands, rfl, later⟩
  | call found =>
    obtain ⟨stands, turn⟩ := next?_eq_some found
    refine ⟨⟨h.unsubscribed, ?_⟩, fun same => ?_⟩
    · rintro ⟨d, hd, rfl, sub, stands', rfl, later⟩
      rcases List.mem_cons.mp hd with rfl | hd
      · -- what the delivery is still to come to after its turn, it was to come to before it
        exact h.passed ⟨_, List.mem_cons_self, rfl, sub, stands', rfl,
          Nat.le_trans turn (Nat.le_of_succ_le later)⟩
      · exact h.passed ⟨d, List.mem_cons_of_mem _ hd, rfl, sub, stands', rfl, later⟩
    · cases same
      exact h.passed ⟨_, List.mem_cons_self, rfl, _, stands, rfl, turn⟩
  | stop =>
    refine ⟨⟨h.unsubscribed, ?_⟩, nofun⟩
    rintro ⟨d, hd, rest⟩
    exact h.passed ⟨d, List.mem_cons_of_mem _ hd, rest⟩

/-- So it is not called, however many moves follow. -/
theorem Removed.run (h : x.Removed type handler) (sound : x.Sound) (run : Run x moves y)
    (apart : .subscribe type handler ∉ moves) : y.Removed type handler ∧
    .call type handler ∉ moves := by
  induction run with
  | nil => exact ⟨h, nofun⟩
  | snoc first step ih =>
    rw [List.mem_append, not_or] at apart
    obtain ⟨removed, uncalled⟩ := ih apart.1
    obtain ⟨removed', other⟩ := removed.step (sound.run first) step fun same =>
      apart.2 (same ▸ List.mem_cons_self)
    refine ⟨removed', fun mem => ?_⟩
    rcases List.mem_append.mp mem with mem | mem
    · exact uncalled mem
    · exact other (List.mem_singleton.mp mem).symm

/-- Who is not subscribed is not subscribed until it is. -/
theorem Run.unsubscribed (sound : x.Sound) (run : Run x moves y)
    (apart : .subscribe type handler ∉ moves)
    (gone : handler ∉ x.bus.handlers type) : handler ∉ y.bus.handlers type := by
  induction run with
  | nil => exact gone
  | snoc first step ih =>
    rw [List.mem_append, not_or] at apart
    rw [step.mem_handlers_iff (sound.run first)]
    rintro (same | ⟨subscribed, -⟩)
    · exact apart.2 (same ▸ List.mem_cons_self)
    · exact ih apart.1 subscribed

omit [LawfulBEq H] in
/-- Deliveries may end until one of them is the innermost. -/
theorem run_stops (b : Bus H) (made : List (Text × H)) (inner rest : List Delivery) :
    Run ⟨b, made, inner ++ rest⟩ (List.replicate inner.length .stop) ⟨b, made, rest⟩ := by
  induction inner with
  | nil => exact .nil
  | cons d inner ih => exact (Step.run .stop).trans ih

omit [LawfulBEq H] in
/-- A delivery comes to call whoever stands in its channel and has not had its turn; the induction
is on the serial numbers until there. -/
theorem exists_run_call (ordered : b.Ordered) (made : List (Text × H)) (ds : List Delivery)
    (d : Delivery)
    {sub : Subscription H} (stands : sub ∈ b.channel d.channel) (later : d.serial ≤ sub.serial) :
    ∃ (handlers : List H) (y : Traffic H), Run ⟨b, made, d :: ds⟩ (handlers.map (.call d.type)) y ∧
      sub.handler ∈ handlers := by
  induction left : sub.serial - d.serial using Nat.strongRecOn generalizing d with
  | ind n ih =>
    cases found : b.next? d.channel d.serial with
    | none => exact absurd later (Nat.not_le.mpr (next?_eq_none found stands))
    | some first =>
      have step : Step (⟨b, made, d :: ds⟩ : Traffic H) (.call d.type first.handler) _ :=
        .call found
      rcases ordered.next?_le found stands later with rfl | behind
      · exact ⟨[sub.handler], _, step.run, List.mem_cons_self⟩
      · have turn := (next?_eq_some found).2
        obtain ⟨handlers, y, run, mem⟩ := ih (sub.serial - (first.serial + 1)) (by omega)
          { d with serial := first.serial + 1 } stands behind rfl
        exact ⟨first.handler :: handlers, y, step.run.trans run, List.mem_cons_of_mem _ mem⟩

omit [LawfulBEq H] in
/-- A delivery that has the handler before it may call it. -/
theorem Pending.exists_call (h : x.Pending type handler) (ordered : x.bus.Ordered) :
    ∃ moves y, Run x moves y ∧ .subscribe type handler ∉ moves ∧ .call type handler ∈ moves := by
  obtain ⟨b, made, ds⟩ := x
  obtain ⟨d, hd, rfl, sub, stands, rfl, later⟩ := h
  obtain ⟨inner, rest, rfl⟩ := List.append_of_mem hd
  obtain ⟨handlers, y, run, mem⟩ := exists_run_call ordered made rest d stands later
  refine ⟨_, y, (run_stops b made inner (d :: rest)).trans run, fun resubscribed => ?_, ?_⟩
  · rcases List.mem_append.mp resubscribed with resubscribed | resubscribed
    · exact nomatch List.eq_of_mem_replicate resubscribed
    · obtain ⟨_, _, same⟩ := List.mem_map.mp resubscribed
      cases same
  · exact List.mem_append_right _ (List.mem_map_of_mem mem)

/-! ## Deliveries in the channel that is listed -/

omit [BEq H] [LawfulBEq H] in
/-- Deliveries to the type that are in progress go through the channel that is listed for it, or
through one in which nobody stands. -/
def Attached (x : Traffic H) (type : Text) : Prop :=
  ∀ d ∈ x.deliveries, d.type = type →
    x.bus.table.get? type = some d.channel ∨ x.bus.channel d.channel = []

omit [BEq H] [LawfulBEq H] in
/-- Then they have nobody before them who is not subscribed. -/
theorem Attached.passed (h : x.Attached type) (unsubscribed : handler ∉ x.bus.handlers type) :
    ¬ x.Pending type handler := by
  rintro ⟨d, hd, same, sub, stands, rfl, -⟩
  rcases h d hd same with listed | nobody
  · rw [handlers_of_some listed] at unsubscribed
    exact unsubscribed (List.mem_map_of_mem stands)
  · rw [nobody] at stands
    cases stands

/-- Deliveries stay with the channel that is listed, if the type is not cleared while one is in
progress. -/
theorem Attached.change (h : Attached ⟨b, made, ds⟩ type) (sound : Sound ⟨b, made, ds⟩)
    {c : Change H}
    (kept : ∀ cleared, c = .clear cleared → clears cleared type = true → ∀ d ∈ ds, d.type ≠ type)
    (made' : List (Text × H)) : Attached ⟨b.change c, made', ds⟩ type := by
  intro d hd same
  rcases h d hd same with listed | nobody
  · refine sound.coherent.listed_change listed fun cleared clearing => ?_
    by_contra covers
    exact kept cleared clearing (Bool.not_eq_false _ ▸ covers) d hd same
  · by_cases somebody : ∃ sub, sub ∈ (b.change c).channel d.channel
    · obtain ⟨sub, stands⟩ := somebody
      rcases mem_channel_change sound.coherent stands with before | ⟨type', rfl, listed⟩
      · exact absurd before (nobody.symm ▸ List.not_mem_nil)
      · -- who is subscribed now is subscribed to the type that the channel is listed for
        exact .inl (((sound.change _ made').own d hd listed).trans same ▸ listed)
    · exact .inr (List.eq_nil_iff_forall_not_mem.mpr fun sub stands => somebody ⟨sub, stands⟩)

/-- Deliveries stay attached, unless their type is cleared. -/
theorem Attached.step (h : x.Attached type) (sound : x.Sound) (step : Step x m y)
    (kept : ∀ cleared, m = .clear cleared → clears cleared type = true → ∀ d ∈ x.deliveries,
      d.type ≠ type) :
    y.Attached type := by
  cases step with
  | subscribe => exact h.change (c := .subscribe _ _) sound nofun _
  | unsubscribe => exact h.change (c := .unsubscribe _ _) sound nofun _
  | clear =>
    exact h.change (c := .clear _) sound (fun cleared same => kept cleared (by cases same; rfl)) _
  | start listed =>
    intro d hd same
    rcases List.mem_cons.mp hd with rfl | hd
    · exact .inl (same ▸ listed)
    · exact h d hd same
  | @call _ _ _ innermost =>
    intro d hd same
    rcases List.mem_cons.mp hd with rfl | hd
    · exact h innermost List.mem_cons_self same
    · exact h d (List.mem_cons_of_mem _ hd) same
  | stop => exact fun d hd => h d (List.mem_cons_of_mem _ hd)

omit [LawfulBEq H] in
/-- The type is cleared only when no event is delivered to it. -/
def Considerate (type : Text) (moves : List (Move H)) : Prop :=
  ∀ before cleared after x, moves = before ++ .clear cleared :: after → Run idle before x →
    clears cleared type = true → ∀ d ∈ x.deliveries, d.type ≠ type

/-- Where types are cleared between deliveries only, every delivery is with the channel that is
listed. -/
theorem Considerate.attached (h : Considerate type moves) (run : Run idle moves x) :
    x.Attached type := by
  induction run with
  | nil => exact nofun
  | @snoc moves y m z first step ih =>
    have before : Considerate type moves := fun earlier cleared after x split =>
      h earlier cleared (after ++ [m]) x (by rw [split]; simp)
    refine (ih before).step (sound_idle.run first) step fun cleared same => ?_
    exact h moves cleared [] y (by rw [same]) first

/-! ## Standing deliveries -/

omit [LawfulBEq H] in
/-- What was subscribed in the end was subscribed before or by the moves. -/
theorem Run.made_eq (run : Run x moves y) : y.made = x.made ++ subscriptions moves := by
  induction run with
  | nil => exact (List.append_nil _).symm
  | snoc _ step ih => rw [step.made_eq, ih, List.append_assoc, subscriptions_concat]

/-- What stands in the channel of a type stays there, unless it is removed. -/
theorem Step.stands (sound : x.Sound) (step : Step x m y) {k : Nat} {sub : Subscription H}
    (listed : x.bus.table.get? type = some k) (stands : sub ∈ x.bus.channel k)
    (kept : ¬ m.Removes x.made type sub.handler) :
    y.bus.table.get? type = some k ∧ sub ∈ y.bus.channel k := by
  cases step with
  | subscribe => exact sound.coherent.stands_change (c := .subscribe _ _) listed stands nofun nofun
  | unsubscribe found =>
    refine sound.coherent.stands_change (c := .unsubscribe _ _) listed stands (fun same => kept ?_)
      nofun
    cases same
    exact found
  | clear =>
    refine sound.coherent.stands_change (c := .clear _) listed stands nofun fun cleared same => ?_
    cases same
    exact Bool.eq_false_iff.mpr kept
  | _ => exact ⟨listed, stands⟩

/-- A subscription stands until a move takes it out. -/
theorem Run.stands (sound : x.Sound) (run : Run x moves y) {k : Nat} {sub : Subscription H}
    (listed : x.bus.table.get? type = some k) (stands : sub ∈ x.bus.channel k)
    (kept : ∀ m ∈ moves, ¬ m.Removes y.made type sub.handler) :
    y.bus.table.get? type = some k ∧ sub ∈ y.bus.channel k := by
  induction run with
  | nil => exact ⟨listed, stands⟩
  | snoc first step ih =>
    -- a subscription that is made at the last move has a number that no earlier move names
    have spared {m' : Move H} (mem : m' ∈ _) : ¬ m'.Removes _ type sub.handler := fun removes =>
      kept m' mem (step.made_eq ▸ removes_append removes)
    obtain ⟨listed', stands'⟩ := ih fun m' mem => spared (List.mem_append_left _ mem)
    exact step.stands (sound.run first) listed' stands'
      (spared (List.mem_append_right _ List.mem_cons_self))

end Traffic

end EvalPlan.Bus

import EvalPlan.Bus.Session
import EvalPlan.Domain
import EvalPlan.Engine
import EvalPlan.Proofs.Changes
import Mathlib.Data.List.Nodup

/-!
# How emitting an event ends

Handlers may change subscriptions while an event is delivered to them. `Hub.Calls` is the run of
calls that goes through a channel, one call after another, each by the first subscription that the
channel then holds behind those that had their turn. Delivery is bounded by a number of calls where
it runs; `walk_eq_ok` says that a bound lets it end exactly if the run ends within it.

Each subscription has one turn, so the run ends unless handlers go on subscribing to the type for
ever (`exists_ended_of_bounded`), and a handler has a second turn only under a subscription that was
made since its first one (`Calls.turns`). `emission` puts this together for the two channels that an
event is delivered to.
-/

namespace EvalPlan

namespace Bus

variable {H : Type} {b : Bus H} {c k : Nat} {sub : Subscription H}

/-- The next subscription stands in the channel, and has not had its turn. -/
theorem next?_eq_some (h : b.next? c k = some sub) : sub ∈ b.channel c ∧ k ≤ sub.serial :=
  ⟨List.mem_of_find?_eq_some h, by simpa using List.find?_some h⟩

/-- No other one that has not had its turn is older. -/
theorem Ordered.next?_le (ordered : b.Ordered) (h : b.next? c k = some sub) {sub' : Subscription H}
    (stands : sub' ∈ b.channel c) (later : k ≤ sub'.serial) : sub' = sub ∨
    sub.serial < sub'.serial := by
  obtain ⟨-, passed, rest, channel, before⟩ := List.find?_eq_some_iff_append.mp h
  have increasing := ordered.increasing c
  rw [channel] at stands increasing
  rcases List.mem_append.mp stands with had | stands
  · have earlier := before sub' had
    simp only [Bool.not_eq_true', decide_eq_false_iff_not] at earlier
    exact absurd later earlier
  · rcases List.mem_cons.mp stands with same | behind
    · exact .inl same
    · exact .inr ((List.pairwise_cons.mp (List.pairwise_append.mp increasing).2.1).1 sub' behind)

/-- When nothing is next, every subscription in the channel has had its turn. -/
theorem next?_eq_none (h : b.next? c k = none) (stands : sub ∈ b.channel c) : sub.serial < k := by
  have passed := List.find?_eq_none.mp h sub stands
  simpa using passed

end Bus

namespace Hub

variable {σ H ε : Type}

/-- A call of a handler. -/
structure Call (σ H : Type) where
  /-- The subscription that it is called under. -/
  subscription : Subscription H
  /-- The state it is called in. -/
  state : σ

/-- The handler that is called. -/
def Call.handler (call : Call σ H) : H := call.subscription.handler

variable (hub : Hub σ H ε) (event : Event)

/-- Calls of handlers of a channel from a serial number on, one after another, each in the state
that the one before left; and the serial number to go on from. -/
inductive Calls (c : Nat) : Nat → σ → List (Call σ H) → Nat → σ → Prop
  | nil {k : Nat} {s : σ} : Calls c k s [] k s
  | cons {k k' : Nat} {s s₁ s' : σ} {sub : Subscription H} {calls : List (Call σ H)} :
      (hub.bus s).next? c k = some sub → hub.handle event sub.handler s = (.ok ⟨⟩, s₁) →
      Calls c (sub.serial + 1) s₁ calls k' s' → Calls c k s (⟨sub, s⟩ :: calls) k' s'

/-- Every handler returns, having made a number of changes. -/
def Returns [BEq H] : Prop := ∀ handler s, ∃ s', hub.handle event handler s = (.ok ⟨⟩, s') ∧
  ∃ changes, hub.bus s' = (hub.bus s).changed changes

variable {hub event} {c k k' n : Nat} {s s₁ s' : σ} {calls : List (Call σ H)}

/-! ## Runs of calls -/

/-- A run of calls is walked with as many calls. -/
theorem Calls.walk (h : hub.Calls event c k s calls k' s') (n : Nat) :
    hub.walk event c (calls.length + n) k s = hub.walk event c n k' s' := by
  induction h with
  | nil => rw [List.length_nil, Nat.zero_add]
  | @cons _ _ _ _ _ _ calls found handled _ ih =>
    rw [List.length_cons, Nat.add_right_comm, Hub.walk, found]
    simp only [handled]
    exact ih

/-- Two runs of calls, the second from where the first one ended, make one. -/
theorem Calls.trans {k₁ : Nat} {rest : List (Call σ H)} (h : hub.Calls event c k s calls k₁ s₁)
    (h' : hub.Calls event c k₁ s₁ rest k' s') : hub.Calls event c k s (calls ++ rest) k' s' := by
  induction h with
  | nil => exact h'
  | cons found handled _ ih => exact .cons found handled (ih h')

/-- Walking a channel ends well exactly if a run of fewer calls than allowed ends. -/
theorem walk_eq_ok : hub.walk event c n k s = some (.ok ⟨⟩, s') ↔
    ∃ calls k', hub.Calls event c k s calls k' s' ∧ (hub.bus s').next? c k' = none ∧
      calls.length < n := by
  constructor
  · intro walked
    induction n generalizing k s with
    | zero => cases walked
    | succ n ih =>
      unfold Hub.walk at walked
      split at walked
      next ended =>
        cases walked
        exact ⟨[], k, .nil, ended, Nat.succ_pos n⟩
      next sub found =>
        split at walked
        next s₁ handled =>
          obtain ⟨calls, k', run, ended, short⟩ := ih walked
          exact ⟨_, k', .cons found handled run, ended, Nat.succ_lt_succ short⟩
        next => cases walked
  · rintro ⟨calls, k', run, ended, short⟩
    obtain ⟨m, rfl⟩ := Nat.exists_eq_add_of_lt short
    rw [Nat.add_assoc, run.walk, Hub.walk, ended]

/-- A run that goes on from the same state to the end has the calls of any other run before its
own. -/
theorem Calls.exists_rest {k₁ : Nat} {first : List (Call σ H)}
    (h : hub.Calls event c k s first k₁ s₁)
    (h' : hub.Calls event c k s calls k' s') (ended : (hub.bus s').next? c k' = none) :
    ∃ rest, calls = first ++ rest ∧ hub.Calls event c k₁ s₁ rest k' s' := by
  induction h generalizing calls with
  | nil => exact ⟨calls, rfl, h'⟩
  | cons found handled _ ih =>
    cases h' with
    | nil =>
      rw [ended] at found
      cases found
    | cons found' handled' run =>
      obtain rfl := Option.some.inj (found.symm.trans found')
      obtain rfl : _ = _ := (Prod.mk.inj (handled.symm.trans handled')).2
      obtain ⟨rest, rfl, remaining⟩ := ih run
      exact ⟨rest, rfl, remaining⟩

/-- A call in a run has its turn at the earliest where the run begins. -/
theorem Calls.le {call : Call σ H} (h : hub.Calls event c k s calls k' s') (mem : call ∈ calls) :
    k ≤ call.subscription.serial := by
  induction h with
  | nil => cases mem
  | cons found _ _ ih =>
    have first := (Bus.next?_eq_some found).2
    rcases List.mem_cons.mp mem with rfl | later
    · exact first
    · exact Nat.le_trans (Nat.le_succ_of_le first) (ih later)

/-- A call is made by a subscription that stands in the channel when its turn comes. -/
theorem Calls.exists_before {call : Call σ H} (h : hub.Calls event c k s calls k' s')
    (mem : call ∈ calls) : (∃ before k₁, hub.Calls event c k s before k₁ call.state) ∧
      call.subscription ∈ (hub.bus call.state).channel c := by
  induction h with
  | nil => cases mem
  | cons found handled _ ih =>
    rcases List.mem_cons.mp mem with rfl | later
    · exact ⟨⟨[], _, .nil⟩, (Bus.next?_eq_some found).1⟩
    · obtain ⟨⟨before, k₁, run⟩, stands⟩ := ih later
      exact ⟨⟨_, k₁, .cons found handled run⟩, stands⟩

/-- Each call is made by a subscription behind the one before. -/
theorem Calls.add_length_le (h : hub.Calls event c k s calls k' s') : k + calls.length ≤ k' := by
  induction h with
  | nil => exact Nat.le_refl _
  | cons found _ _ ih =>
    have first := (Bus.next?_eq_some found).2
    rw [List.length_cons]
    omega

/-- A run goes no further than behind the last subscription that it calls. -/
theorem Calls.le_of_bounded (h : hub.Calls event c k s calls k' s') (start : k ≤ n)
    (bounded : ∀ call ∈ calls, call.subscription.serial < n) : k' ≤ n := by
  induction h with
  | nil => exact start
  | cons _ _ _ ih =>
    obtain ⟨first, rest⟩ := List.forall_mem_cons.mp bounded
    exact ih first rest

/-- Wherever a run from a state leads to, a call of a handler that stands in the channel adds
nothing to it. -/
def Still (hub : Hub σ H ε) (event : Event) (c k : Nat) (s : σ) : Prop :=
  ∀ ⦃calls k₁ s₁ sub s₂⦄, hub.Calls event c k s calls k₁ s₁ → sub ∈ (hub.bus s₁).channel c →
    hub.handle event sub.handler s₁ = (.ok ⟨⟩, s₂) → (hub.bus s₂).channel c ⊆ (hub.bus s₁).channel c

/-- Then nobody comes to stand in the channel along a run. -/
theorem Still.subset (still : hub.Still event c k s) (h : hub.Calls event c k s calls k' s') :
    (hub.bus s').channel c ⊆ (hub.bus s).channel c := by
  induction h with
  | nil => exact fun _ => id
  | cons found handled _ ih =>
    have first := still .nil (Bus.next?_eq_some found).1 handled
    exact fun _ stands => first (ih (fun _ _ _ _ _ run => still (.cons found handled run)) stands)

/-- Then later calls go by subscriptions that stand in the channel all the time. -/
theorem Still.pairwise (still : hub.Still event c k s) (h : hub.Calls event c k s calls k' s') :
    calls.Pairwise fun a b => b.subscription ∈ (hub.bus a.state).channel c := by
  induction h with
  | nil => exact .nil
  | cons found handled rest ih =>
    have later : hub.Still event c _ _ := fun _ _ _ _ _ run => still (.cons found handled run)
    refine List.pairwise_cons.mpr ⟨fun b mem => still .nil (Bus.next?_eq_some found).1 handled ?_,
      ih later⟩
    obtain ⟨⟨before, k₁, run⟩, stands⟩ := rest.exists_before mem
    exact later.subset run stands

section returns

variable [BEq H] (returns : hub.Returns event)

include returns

/-- Either a run comes to an end, or there are runs of any number of calls. -/
theorem exists_calls (n : Nat) (k : Nat) (s : σ) :
    (∃ calls k' s', hub.Calls event c k s calls k' s' ∧ calls.length = n) ∨
      ∃ calls k' s', hub.Calls event c k s calls k' s' ∧ (hub.bus s').next? c k' = none ∧
        calls.length < n := by
  induction n generalizing k s with
  | zero => exact .inl ⟨[], k, s, .nil, rfl⟩
  | succ n ih =>
    cases found : (hub.bus s).next? c k with
    | none => exact .inr ⟨[], k, s, .nil, found, Nat.succ_pos n⟩
    | some sub =>
      obtain ⟨s₁, handled, -⟩ := returns sub.handler s
      rcases ih (sub.serial + 1) s₁ with ⟨calls, k', s', run, long⟩ | ⟨calls, k', s', run, ended,
        short⟩
      · exact .inl ⟨_, k', s', .cons found handled run, congrArg (· + 1) long⟩
      · exact .inr ⟨_, k', s', .cons found handled run, ended, Nat.succ_lt_succ short⟩

/-- What a run leaves is the bus after a number of changes. -/
theorem Calls.exists_changes (h : hub.Calls event c k s calls k' s') :
    ∃ changes, hub.bus s' = (hub.bus s).changed changes := by
  induction h with
  | nil => exact ⟨[], rfl⟩
  | @cons _ _ s s₁ _ sub _ _ handled _ ih =>
    obtain ⟨_, handled', first, left⟩ := returns sub.handler s
    obtain rfl : s₁ = _ := (Prod.mk.inj (handled.symm.trans handled')).2
    obtain ⟨changes, rest⟩ := ih
    exact ⟨first ++ changes, by rw [rest, left, Bus.changed_append]⟩

variable [LawfulBEq H]

/-- What stands in the channel after a run stood there before, or was subscribed since. -/
theorem Calls.mem_channel (h : hub.Calls event c k s calls k' s') {sub : Subscription H}
    (stands : sub ∈ (hub.bus s').channel c) :
    sub ∈ (hub.bus s).channel c ∨ (hub.bus s).serial ≤ sub.serial := by
  obtain ⟨changes, left⟩ := h.exists_changes returns
  rw [left] at stands
  exact Bus.mem_channel_changed _ changes stands

omit [LawfulBEq H] in
/-- Subscriptions stay in their order along a run. -/
theorem Calls.ordered (h : hub.Calls event c k s calls k' s') (ordered : (hub.bus s).Ordered) :
    (hub.bus s').Ordered := by
  obtain ⟨changes, left⟩ := h.exists_changes returns
  rw [left]
  exact ordered.changed changes

/-- Along a run no handler comes to stand twice in a channel. -/
theorem Calls.single (h : hub.Calls event c k s calls k' s') (single : (hub.bus s).Single) :
    (hub.bus s').Single := by
  obtain ⟨changes, left⟩ := h.exists_changes returns
  rw [left]
  exact single.changed changes

omit [LawfulBEq H] in
/-- Serial numbers are only ever given out. -/
theorem Calls.serial_le (h : hub.Calls event c k s calls k' s') :
    (hub.bus s).serial ≤ (hub.bus s').serial := by
  obtain ⟨changes, left⟩ := h.exists_changes returns
  rw [left]
  exact Bus.serial_changed _ changes

/-! ## Turns -/

/-- The calls go by subscriptions that were made one after another, so that each subscription has
one turn. A handler has another turn only under a subscription that was made since it was called. -/
def Turns (hub : Hub σ H ε) (calls : List (Call σ H)) : Prop :=
  calls.Pairwise fun a b => a.subscription.serial < b.subscription.serial ∧
    (a.handler = b.handler → (hub.bus a.state).serial ≤ b.subscription.serial)

/-- Each call of a run has its turn behind the one before, and a handler again only when it was
subscribed again. -/
theorem Calls.turns (h : hub.Calls event c k s calls k' s') (ordered : (hub.bus s).Ordered)
    (single : (hub.bus s).Single) : hub.Turns calls := by
  induction h with
  | nil => exact .nil
  | @cons k k' s s₁ s' sub calls found handled rest ih =>
    have first : hub.Calls event c k s [⟨sub, s⟩] (sub.serial + 1) s₁ := .cons found handled .nil
    refine List.pairwise_cons.mpr
      ⟨fun b later => ?_, ih (first.ordered returns ordered) (first.single returns single)⟩
    have behind : sub.serial < b.subscription.serial := rest.le later
    refine ⟨behind, fun same => ?_⟩
    obtain ⟨⟨before, k₁, run⟩, stands⟩ := rest.exists_before later
    rcases (first.trans run).mem_channel returns stands with stood | since
    · -- both subscriptions of the handler would stand in the channel together
      have one := List.inj_on_of_nodup_map (single c) (Bus.next?_eq_some found).1 stood same
      rw [← one] at behind
      exact absurd behind (Nat.lt_irrefl _)
    · exact since

/-- What stands in the channel behind a run and is older than what the run goes on from had its turn
in it, or before. -/
theorem Calls.exists_call (h : hub.Calls event c k s calls k' s') (ordered : (hub.bus s).Ordered)
    {sub : Subscription H} (stands : sub ∈ (hub.bus s').channel c) (passed : sub.serial < k') :
    sub.serial < k ∨ ∃ call ∈ calls, call.subscription = sub := by
  induction h with
  | nil => exact .inl passed
  | @cons k k' s s₁ s' first calls found handled rest ih =>
    have one : hub.Calls event c k s [⟨first, s⟩] (first.serial + 1) s₁ := .cons found handled .nil
    rcases ih (one.ordered returns ordered) stands passed with before | ⟨call, mem, same⟩
    · rcases (one.trans rest).mem_channel returns stands with stood | since
      · rcases Nat.lt_or_ge sub.serial k with earlier | later
        · exact .inl earlier
        · rcases ordered.next?_le found stood later with rfl | behind
          · exact .inr ⟨_, List.mem_cons_self, rfl⟩
          · omega
      · have made := ordered.below c first (Bus.next?_eq_some found).1
        omega
    · exact .inr ⟨call, List.mem_cons_of_mem _ mem, same⟩

omit [LawfulBEq H] in
/-- A run comes to an end if the serial numbers that come to stand in the channel are bounded. -/
theorem exists_ended_of_bounded (bounded : ∀ calls k' s', hub.Calls event c 0 s calls k' s' →
      ∀ sub ∈ (hub.bus s').channel c, sub.serial < n) :
    ∃ calls k' s', hub.Calls event c 0 s calls k' s' ∧ (hub.bus s').next? c k' = none := by
  rcases exists_calls (c := c) returns (n + 1) 0 s with ⟨calls, k', s', run, long⟩ | ⟨calls, k', s',
    run, ended, -⟩
  · -- each of the calls has a number of its own below the bound
    have below : ∀ call ∈ calls, call.subscription.serial < n := by
      intro call mem
      obtain ⟨⟨before, k₁, upto⟩, stands⟩ := run.exists_before mem
      exact bounded before k₁ call.state upto call.subscription stands
    have most := run.le_of_bounded (Nat.zero_le n) below
    have least := run.add_length_le
    omega
  · exact ⟨calls, k', s', run, ended⟩

end returns

/-- Among calls there are two of one handler, the second one under a subscription that was made
after the first call had begun. -/
def Renews (hub : Hub σ H ε) (calls : List (Call σ H)) : Prop :=
  ∃ a b, [a, b].Sublist calls ∧ a.handler = b.handler ∧
    (hub.bus a.state).serial ≤ b.subscription.serial

/-- No handler is called twice exactly if none is subscribed anew in between. -/
theorem Turns.nodup_iff (h : hub.Turns calls) : (calls.map Call.handler).Nodup ↔
    ¬ hub.Renews calls := by
  rw [List.nodup_iff_pairwise_ne, List.pairwise_map]
  constructor
  · rintro apart ⟨a, b, both, same, -⟩
    exact (List.pairwise_iff_forall_sublist.mp apart both) same
  · intro settled
    refine List.pairwise_iff_forall_sublist.mpr fun {a b} both same =>
      settled ⟨a, b, both, same, ?_⟩
    exact (List.pairwise_iff_forall_sublist.mp h both).2 same

/-! ## Emitting -/

/-- An event was delivered to all of the channel that a type has, or to nobody if it has none. -/
inductive Dispatched (hub : Hub σ H ε) (event : Event) (type : Text) (s : σ) : List (Call σ H) → σ →
    Prop
  | nobody : (hub.bus s).table.get? type = none → Dispatched hub event type s [] s
  | channel {c k : Nat} {calls : List (Call σ H)} {s' : σ} : (hub.bus s).table.get? type = some c →
      hub.Calls event c 0 s calls k s' → (hub.bus s').next? c k = none →
      Dispatched hub event type s calls s'

/-- An event was emitted by calls of the handlers of its type, and then of the handlers of every
event. -/
structure Emitted (hub : Hub σ H ε) (event : Event) (s : σ) (own : List (Call σ H)) (s₁ : σ)
    (every : List (Call σ H)) (s' : σ) : Prop where
  own : hub.Dispatched event event.type s own s₁
  every : hub.Dispatched event Event.any s₁ every s'

/-- The states between calls while an event is emitted, each with the channel that is gone through
then. -/
inductive Visits (hub : Hub σ H ε) (event : Event) (s : σ) : Nat → σ → Prop
  | own {c k : Nat} {calls : List (Call σ H)} {s' : σ} :
      (hub.bus s).table.get? event.type = some c → hub.Calls event c 0 s calls k s' →
        Visits hub event s c s'
  | every {c k : Nat} {own calls : List (Call σ H)} {s₁ s' : σ} :
      hub.Dispatched event event.type s own s₁ →
      (hub.bus s₁).table.get? Event.any = some c → hub.Calls event c 0 s₁ calls k s' →
      Visits hub event s c s'

section dispatched

variable {type : Text} {own every : List (Call σ H)}

/-- What was delivered is what delivering comes to, if enough calls are allowed. -/
theorem Dispatched.dispatch (h : hub.Dispatched event type s calls s') (enough : calls.length < n) :
    hub.dispatch n type event s = some (.ok ⟨⟩, s') := by
  unfold Hub.dispatch
  cases h with
  | nobody unlisted => rw [unlisted]
  | channel listed run ended =>
    simp only [listed]
    exact walk_eq_ok.mpr ⟨calls, _, run, ended, enough⟩

/-- A delivery that ends well was made by some calls. -/
theorem exists_dispatched (h : hub.dispatch n type event s = some (.ok ⟨⟩, s')) :
    ∃ calls, hub.Dispatched event type s calls s' := by
  unfold Hub.dispatch at h
  cases listed : (hub.bus s).table.get? type with
  | none =>
    rw [listed] at h
    cases h
    exact ⟨[], .nobody listed⟩
  | some c =>
    simp only [listed] at h
    obtain ⟨calls, k', run, ended, -⟩ := walk_eq_ok.mp h
    exact ⟨calls, .channel listed run ended⟩

/-- Emitting an event ends well in a state, if enough calls are allowed, exactly if it is emitted by
calls that lead to the state. -/
theorem exists_emit_iff : (∃ bound, hub.emit bound event s = some (.ok ⟨⟩, s')) ↔
    ∃ own s₁ every, hub.Emitted event s own s₁ every s' := by
  constructor
  · rintro ⟨bound, emitted⟩
    unfold Hub.emit at emitted
    split at emitted
    next s₁ first =>
      obtain ⟨own, called⟩ := exists_dispatched first
      obtain ⟨every, called'⟩ := exists_dispatched emitted
      exact ⟨own, s₁, every, called, called'⟩
    next other => exact (other _ _ emitted).elim
  · rintro ⟨own, s₁, every, called, called'⟩
    refine ⟨own.length + every.length + 1, ?_⟩
    rw [Hub.emit, called.dispatch (by omega)]
    exact called'.dispatch (by omega)

/-- The calls that deliver an event are determined. -/
theorem Dispatched.unique {calls' : List (Call σ H)} {s₂ : σ}
    (h : hub.Dispatched event type s calls s₁)
    (h' : hub.Dispatched event type s calls' s₂) : calls = calls' ∧ s₁ = s₂ := by
  cases h with
  | nobody unlisted =>
    cases h' with
    | nobody => exact ⟨rfl, rfl⟩
    | channel listed => exact absurd (unlisted.symm.trans listed) nofun
  | channel listed run ended =>
    cases h' with
    | nobody unlisted => exact absurd (unlisted.symm.trans listed) nofun
    | channel listed' run' ended' =>
      obtain rfl := Option.some.inj (listed.symm.trans listed')
      obtain ⟨rest, rfl, remaining⟩ := run.exists_rest run' ended'
      cases remaining with
      | nil => exact ⟨(List.append_nil _).symm, rfl⟩
      | cons found => exact absurd (ended.symm.trans found) nofun

variable [BEq H] (returns : hub.Returns event)

include returns

/-- It leaves the bus after a number of changes. -/
theorem Dispatched.exists_changes (h : hub.Dispatched event type s calls s') :
    ∃ changes, hub.bus s' = (hub.bus s).changed changes := by
  cases h with
  | nobody => exact ⟨[], rfl⟩
  | channel _ run => exact run.exists_changes returns

variable [LawfulBEq H]

/-- Its calls go by subscriptions that were made one after another. -/
theorem Dispatched.turns (h : hub.Dispatched event type s calls s') (ordered : (hub.bus s).Ordered)
    (single : (hub.bus s).Single) : hub.Turns calls := by
  cases h with
  | nobody => exact .nil
  | channel _ run => exact run.turns returns ordered single

/-- What stands in the channel of a type when all of it was gone through had its turn. -/
theorem Dispatched.serves (h : hub.Dispatched event type s calls s') (ordered : (hub.bus s).Ordered)
    (listed : (hub.bus s).table.get? type = some c) :
    ∀ sub ∈ (hub.bus s').channel c, ∃ call ∈ calls, call.subscription = sub := by
  cases h with
  | nobody unlisted => exact absurd (unlisted.symm.trans listed) nofun
  | channel listed' run ended =>
    obtain rfl := Option.some.inj (listed.symm.trans listed')
    intro sub stands
    exact (run.exists_call returns ordered stands (Bus.next?_eq_none ended stands)).resolve_left
      (Nat.not_lt_zero _)

variable (type) in
omit [LawfulBEq H] in
/-- An event is delivered to all of a channel if the serial numbers that come to stand in it are
bounded. -/
theorem exists_dispatched_of_bounded
    (bounded : ∀ c calls k' s', (hub.bus s).table.get? type = some c →
      hub.Calls event c 0 s calls k' s' → ∀ sub ∈ (hub.bus s').channel c, sub.serial < n) :
    ∃ calls s', hub.Dispatched event type s calls s' := by
  cases listed : (hub.bus s).table.get? type with
  | none => exact ⟨[], s, .nobody listed⟩
  | some c =>
    obtain ⟨calls, k', s', run, ended⟩ := exists_ended_of_bounded returns fun calls k' s' =>
      bounded c calls k' s' listed
    exact ⟨calls, s', .channel listed run ended⟩

omit [LawfulBEq H] in
/-- Where an event was delivered, the numbers that stood in the channel meanwhile are those of
subscriptions that were made. -/
theorem Dispatched.bounded (h : hub.Dispatched event type s calls s')
    (ordered : (hub.bus s).Ordered)
    (listed : (hub.bus s).table.get? type = some c) {first : List (Call σ H)}
    (run : hub.Calls event c 0 s first k s₁) : ∀ sub ∈ (hub.bus s₁).channel c,
    sub.serial < (hub.bus s').serial := by
  cases h with
  | nobody unlisted => exact absurd (unlisted.symm.trans listed) nofun
  | channel listed' whole ended =>
    obtain rfl := Option.some.inj (listed.symm.trans listed')
    obtain ⟨rest, -, remaining⟩ := run.exists_rest whole ended
    intro sub stands
    exact Nat.lt_of_lt_of_le ((run.ordered returns ordered).below c sub stands)
      (remaining.serial_le returns)

variable (type) in
/-- Where calls add nothing to the channel, an event is delivered to all of it, to each handler
once. -/
theorem exists_dispatched_once (ordered : (hub.bus s).Ordered) (single : (hub.bus s).Single)
    (still : ∀ c, (hub.bus s).table.get? type = some c → hub.Still event c 0 s) :
    ∃ calls s', hub.Dispatched event type s calls s' ∧ (calls.map Call.handler).Nodup := by
  obtain ⟨calls, s', dispatched⟩ := exists_dispatched_of_bounded type returns
    fun c calls k' s' listed run sub stands =>
      ordered.below c sub ((still c listed).subset run stands)
  refine ⟨calls, s', dispatched, (dispatched.turns returns ordered single).nodup_iff.mpr ?_⟩
  rintro ⟨a, b, both, -, since⟩
  cases dispatched with
  | nobody => exact absurd (List.sublist_nil.mp both) nofun
  | channel listed run =>
    obtain ⟨⟨before, k₁, upto⟩, -⟩ := run.exists_before (both.subset List.mem_cons_self)
    have stands := List.pairwise_iff_forall_sublist.mp ((still _ listed).pairwise run) both
    exact absurd ((upto.ordered returns ordered).below _ _ stands) (Nat.not_lt.mpr since)

end dispatched

/-! ## What emitting comes to -/

/-- What emitting an event comes to, whatever subscriptions change meanwhile. -/
structure Emission (hub : Hub σ H ε) (event : Event) (s : σ) : Prop where
  /-- It ends exactly if finitely many subscriptions come to stand in the channels that it goes
  through. -/
  ends : (∃ bound s', hub.emit bound event s = some (.ok ⟨⟩, s')) ↔
    ∃ n, ∀ c s', hub.Visits event s c s' → ∀ sub ∈ (hub.bus s').channel c, sub.serial < n
  /-- It then consists of two runs of calls. -/
  emitted : ∀ {bound s'}, hub.emit bound event s = some (.ok ⟨⟩, s') →
    ∃ own s₁ every, hub.Emitted event s own s₁ every s'
  /-- Each of them is through with all that stands in its channel. -/
  serves : ∀ {own s₁ every s'}, hub.Emitted event s own s₁ every s' →
    (∀ c, (hub.bus s).table.get? event.type = some c →
      ∀ sub ∈ (hub.bus s₁).channel c, ∃ call ∈ own, call.subscription = sub) ∧
    ∀ c, (hub.bus s₁).table.get? Event.any = some c →
      ∀ sub ∈ (hub.bus s').channel c, ∃ call ∈ every, call.subscription = sub
  /-- It calls each handler once exactly if none is subscribed again after it was called, and
  reached. -/
  once : ∀ {own s₁ every s'}, hub.Emitted event s own s₁ every s' →
    ((own.map Call.handler).Nodup ↔ ¬ hub.Renews own) ∧
      ((every.map Call.handler).Nodup ↔ ¬ hub.Renews every)
  /-- In particular it ends, and calls each handler once, where calls of handlers in the channel
  that is gone through add nothing to it. -/
  still : (∀ c s₁ s₂ sub, hub.Visits event s c s₁ → sub ∈ (hub.bus s₁).channel c →
      hub.handle event sub.handler s₁ = (.ok ⟨⟩, s₂) →
        (hub.bus s₂).channel c ⊆ (hub.bus s₁).channel c) →
    ∃ own s₁ every s', hub.Emitted event s own s₁ every s' ∧
      (own.map Call.handler).Nodup ∧ (every.map Call.handler).Nodup

/-- Handlers that return after finitely many changes of subscriptions need not let the emission of
an event end, nor are they called once each: both is so exactly if what they subscribe meanwhile is
limited. -/
theorem emission [BEq H] [LawfulBEq H] (returns : hub.Returns event) {changes : List (Bus.Change H)}
    (made : hub.bus s = Bus.empty.changed changes) : hub.Emission event s := by
  have ordered : (hub.bus s).Ordered := made ▸ Bus.ordered_empty.changed changes
  have single : (hub.bus s).Single := made ▸ Bus.single_empty.changed changes
  have between {own : List (Call σ H)} {s₁ : σ} (first : hub.Dispatched event event.type s own s₁) :
      (hub.bus s₁).Ordered ∧ (hub.bus s₁).Single ∧ (hub.bus s).serial ≤ (hub.bus s₁).serial := by
    obtain ⟨changes, left⟩ := first.exists_changes returns
    rw [left]
    exact ⟨ordered.changed changes, single.changed changes, Bus.serial_changed _ changes⟩
  -- in the order of the fields, the first one of which has two directions
  refine ⟨⟨?_, ?_⟩, fun emitted => exists_emit_iff.mp ⟨_, emitted⟩, ?_, ?_, ?_⟩
  · rintro ⟨bound, s', emitted⟩
    obtain ⟨own, s₁, every, first, second⟩ := exists_emit_iff.mp ⟨bound, emitted⟩
    obtain ⟨changes, left⟩ := second.exists_changes returns
    have later : (hub.bus s₁).serial ≤ (hub.bus s').serial := left ▸ Bus.serial_changed _ changes
    refine ⟨(hub.bus s').serial, fun c t visited sub stands => ?_⟩
    -- each channel that is visited is bounded by the serial number that the emission ends with
    cases visited with
    | own listed run =>
      exact Nat.lt_of_lt_of_le (first.bounded returns ordered listed run sub stands) later
    | every first' listed run =>
      obtain ⟨-, rfl⟩ := first.unique first'
      exact second.bounded returns (between first).1 listed run sub stands
  · rintro ⟨n, bounded⟩
    obtain ⟨own, s₁, first⟩ := exists_dispatched_of_bounded event.type returns
      fun c calls k' t listed run => bounded c t (.own listed run)
    obtain ⟨every, s', second⟩ := exists_dispatched_of_bounded Event.any returns
      fun c calls k' t listed run => bounded c t (.every first listed run)
    obtain ⟨bound, emitted⟩ := exists_emit_iff.mpr ⟨own, s₁, every, first, second⟩
    exact ⟨bound, s', emitted⟩
  · intro own s₁ every s' emitted
    exact ⟨fun c => emitted.own.serves returns ordered,
      fun c => emitted.every.serves returns (between emitted.own).1⟩
  · intro own s₁ every s' emitted
    obtain ⟨ordered₁, single₁, -⟩ := between emitted.own
    exact ⟨(emitted.own.turns returns ordered single).nodup_iff,
      (emitted.every.turns returns ordered₁ single₁).nodup_iff⟩
  · intro still
    obtain ⟨own, s₁, first, once⟩ := exists_dispatched_once event.type returns ordered single
      fun c listed _ _ _ _ _ run => still c _ _ _ (.own listed run)
    obtain ⟨ordered₁, single₁, -⟩ := between first
    obtain ⟨every, s', second, once'⟩ := exists_dispatched_once Event.any returns ordered₁ single₁
      fun c listed _ _ _ _ _ run => still c _ _ _ (.every first listed run)
    exact ⟨own, s₁, every, s', ⟨first, second⟩, once, once'⟩

section playing

/-- A hub whose handlers do nothing but change subscriptions, each in its own way. -/
def playing [BEq H] (plays : H → List (Bus.Change H)) : Hub (Bus H) H Empty :=
  ⟨id, fun _ handler b => (.ok ⟨⟩, b.changed (plays handler))⟩

/-- Handlers that only make changes return. -/
theorem returns_playing [BEq H] (plays : H → List (Bus.Change H)) (event : Event) :
    (playing plays).Returns event :=
  fun handler b => ⟨b.changed (plays handler), rfl, plays handler, rfl⟩

/-- A host who subscribes a guest, and a guest who leaves. -/
def inviting (handler : Text) : List (Bus.Change Text) :=
  if handler = "host" then [.subscribe "run" "guest"] else [.unsubscribe "run" "guest"]

/-- A handler that takes its subscription back and subscribes again, and others that do nothing. -/
def returning (handler : Text) : List (Bus.Change Text) :=
  if handler = "first" then [.unsubscribe "run" "first", .subscribe "run" "first"] else []

/-- The event that they are told. -/
def runEvent : Event := ⟨"run", "", none, none⟩

/-- The guest is told the event that it was invited on. -/
theorem emission_inviting :
    (playing inviting).Returns runEvent ∧
      (playing inviting).Emission runEvent (Bus.empty.changed [.subscribe "run" "host"]) ∧
      ((playing inviting).emit 3 runEvent (Bus.empty.changed [.subscribe "run" "host"])).map
        (fun r => r.2.handlers "run") = some [↑"host"] :=
  ⟨returns_playing inviting runEvent, emission (returns_playing inviting runEvent) rfl, by decide⟩

/-- The bus after the first one of two handlers returned for a number of times. -/
def returned (m : Nat) : Bus Text :=
  ⟨#[[⟨1, "second"⟩, ⟨m + 2, "first"⟩]], [("run", 0)], m + 3⟩

/-- From its new place on, the handler is called again and again. -/
theorem walk_returned (n m : Nat) :
    (playing returning).walk runEvent 0 n (m + 2) (returned m) = none := by
  induction n generalizing m with
  | zero => rfl
  | succ n ih =>
    have found : ((playing returning).bus (returned m)).next? 0 (m + 2) =
        some ⟨m + 2, "first"⟩ := by
      simp [Bus.next?, playing, returned, Bus.channel]
    rw [Hub.walk, found]
    -- its call leaves the bus after it returned once more
    exact ih (m + 1)

/-- A handler that takes itself off and comes back each time is called without end, whatever number
of calls is allowed. -/
theorem emit_returning (bound : Nat) : (playing returning).emit bound runEvent
    (Bus.empty.changed [.subscribe "run" "first", .subscribe "run" "second"]) = none := by
  -- the first one is called, then the second one, and then the first one at its new place
  match bound with
  | 0 => rfl
  | 1 => rfl
  | n + 2 =>
    have dispatched : (playing returning).dispatch (n + 2) runEvent.type runEvent
        (Bus.empty.changed [.subscribe "run" "first", .subscribe "run" "second"]) = none :=
      walk_returned n 0
    rw [Hub.emit, dispatched]

end playing

end Hub

namespace Bus.Session

/-- The named handlers that were called in a session, in order. -/
def called (s : Session) : List Text :=
  s.world.notices.filterMap fun
    | .handled handler _ _ => some handler
    | _ => none

/-- A session with two handlers of an event. The first one takes its subscription back and
subscribes again, but only once. -/
def returningOnce : Session where
  world := World.initial Domain.heap
  bus := empty.changed [.subscribe "run" "first", .subscribe "run" "second"]
  made := [("run", "first"), ("run", "second")]
  acts := [("first", [⟨.unsubscribe 0, 1⟩, ⟨.subscribe "run" "first", 1⟩]), ("second", [])]

/-- A handler that takes its subscription back and subscribes again when it is called is called
again, and if it does so whenever it is called, the emission does not end. -/
theorem returning_repeats :
    ((Hub.playing Hub.returning).Returns Hub.runEvent ∧
      ∀ bound, (Hub.playing Hub.returning).emit bound Hub.runEvent
        (empty.changed [.subscribe "run" "first", .subscribe "run" "second"]) = none) ∧
    called (emit (Host.engine Logger.recording (Logger.printing "EventBus") [])
      (evaluator (Host.engine Logger.recording (Logger.printing "EventBus") []) 3) 1 Hub.runEvent
      returningOnce).2 = [↑"first", ↑"second", ↑"first"] :=
  ⟨⟨Hub.returns_playing _ _, Hub.emit_returning⟩, by decide +kernel⟩

end Bus.Session

end EvalPlan

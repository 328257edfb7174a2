import EvalPlan.Bus
import Mathlib.Data.List.Perm.Subperm

/-!
# Delivering events

The subscriptions in a channel stand in the order in which they were made: `Bus.Ordered` holds of
every bus that is made by subscribing and taking subscriptions back. Where no handler changes a
subscription, emitting an event calls each handler of its type once, in this order, and then each
handler of every event.
-/

namespace EvalPlan

namespace Bus

variable {H : Type} {b : Bus H}

/-- The subscriptions in each channel stand in the order in which they were made. -/
structure Ordered (b : Bus H) : Prop where
  increasing : ∀ c, (b.channel c).Pairwise fun s s' => s.serial < s'.serial
  below : ∀ c, ∀ s ∈ b.channel c, s.serial < b.serial

theorem ordered_empty : (empty : Bus H).Ordered := by
  have hchannel (c : Nat) : (empty : Bus H).channel c = [] := rfl
  refine ⟨fun c => ?_, fun c s hs => ?_⟩
  · rw [hchannel]
    exact List.Pairwise.nil
  · rw [hchannel] at hs
    cases hs

/-- There are no more subscriptions in a channel than were made. -/
theorem Ordered.length_le (h : b.Ordered) (c : Nat) : (b.channel c).length ≤ b.serial := by
  -- different subscriptions have different numbers, all of them below the next one
  have hnodup : ((b.channel c).map (·.serial)).Nodup := by
    rw [List.nodup_iff_pairwise_ne, List.pairwise_map]
    exact (h.increasing c).imp Nat.ne_of_lt
  have hsubset : (b.channel c).map (·.serial) ⊆ List.range b.serial := by
    intro n hn
    obtain ⟨s, hs, rfl⟩ := List.mem_map.mp hn
    exact List.mem_range.mpr (h.below c s hs)
  have hle := (List.Nodup.subperm hnodup hsubset).length_le
  rwa [List.length_map, List.length_range] at hle

/-- The channel that is opened for a type is empty. -/
theorem channel_openChannel (b : Bus H) (type : Text) (c : Nat) :
    (b.openChannel type).2.channel c = b.channel c := by
  unfold openChannel
  split
  · rfl
  · show ((b.channels.push [])[c]?).getD [] = (b.channels[c]?).getD []
    rw [Array.getElem?_push]
    split
    next heq => rw [heq, Array.getElem?_eq_none (Nat.le_refl _)]; rfl
    next => rfl

theorem serial_openChannel (b : Bus H) (type : Text) :
    (b.openChannel type).2.serial = b.serial := by
  unfold openChannel
  split <;> rfl

theorem Ordered.openChannel (h : b.Ordered) (type : Text) : (b.openChannel type).2.Ordered := by
  refine ⟨fun c => ?_, fun c s hs => ?_⟩
  · rw [channel_openChannel]
    exact h.increasing c
  · rw [channel_openChannel] at hs
    rw [serial_openChannel]
    exact h.below c s hs

/-- Only the channel that is written changes. -/
theorem channel_write (b : Bus H) (c c' : Nat) (l : List (Subscription H))
    (table : Table Text Nat) (serial : Nat) :
    ({ channels := b.channels.setIfInBounds c l, table, serial } : Bus H).channel c' =
        b.channel c' ∨
      c' = c ∧
        ({ channels := b.channels.setIfInBounds c l, table, serial } : Bus H).channel c' = l := by
  simp only [channel, Array.getElem?_setIfInBounds]
  split
  next heq =>
    split
    · exact .inr ⟨heq.symm, rfl⟩
    next hout =>
      left
      rw [Array.getElem?_eq_none (by omega)]
  next => exact .inl rfl

variable [BEq H]

/-- Subscribing a handler subscribes nobody else. -/
theorem mem_channel_subscribe {type : Text} {handler : H} {c : Nat} {s : Subscription H}
    (hs : s ∈ (b.subscribe type handler).channel c) : s ∈ b.channel c ∨ s.handler = handler := by
  have hopen := channel_openChannel b type c
  unfold Bus.subscribe at hs
  generalize b.openChannel type = p at hopen hs
  obtain ⟨c', b'⟩ := p
  simp only at hopen hs
  split at hs
  · exact .inl (hopen ▸ hs)
  · rcases channel_write b' c' c (b'.channel c' ++ [⟨b'.serial, handler⟩]) b'.table
      (b'.serial + 1) with
      heq | ⟨rfl, heq⟩
    · exact .inl (hopen ▸ heq ▸ hs)
    · rw [heq, hopen] at hs
      exact (List.mem_append.mp hs).imp_right fun h => by rw [List.mem_singleton.mp h]

/-- A new subscription is made behind the others. -/
theorem Ordered.subscribe (h : b.Ordered) (type : Text) (handler : H) :
    (b.subscribe type handler).Ordered := by
  have hopen := h.openChannel type
  unfold Bus.subscribe
  generalize b.openChannel type = p at hopen
  obtain ⟨c, b⟩ := p
  simp only at hopen ⊢
  -- a handler that is subscribed already is not subscribed again
  split
  · exact hopen
  · refine ⟨fun c' => ?_, fun c' s hs => ?_⟩
    · rcases channel_write b c c' (b.channel c ++ [⟨b.serial, handler⟩])
        b.table (b.serial + 1) with heq | ⟨-, heq⟩
      · rw [heq]
        exact hopen.increasing c'
      · rw [heq, List.pairwise_append]
        refine ⟨hopen.increasing c, List.pairwise_singleton _ _, fun s hs s' hs' => ?_⟩
        rw [List.mem_singleton.mp hs']
        exact hopen.below c s hs
    · show s.serial < b.serial + 1
      rcases channel_write b c c' (b.channel c ++ [⟨b.serial, handler⟩])
        b.table (b.serial + 1) with heq | ⟨-, heq⟩
      · rw [heq] at hs
        exact Nat.lt_succ_of_lt (hopen.below c' s hs)
      · rw [heq] at hs
        rcases List.mem_append.mp hs with hs | hs
        · exact Nat.lt_succ_of_lt (hopen.below c s hs)
        · rw [List.mem_singleton.mp hs]
          exact Nat.lt_succ_self _

/-- Taking a subscription back leaves the others in their order. -/
theorem Ordered.unsubscribe (h : b.Ordered) (type : Text) (handler : H) :
    (b.unsubscribe type handler).Ordered := by
  unfold Bus.unsubscribe
  split
  · exact h
  next c _ =>
    -- what is left in a channel stood there before in this order
    have hsub (table : Table Text Nat) (c' : Nat) : List.Sublist
        (({ channels := b.channels.setIfInBounds c ((b.channel c).filter fun s => !(s.handler == handler))
            table
            serial := b.serial } : Bus H).channel c') (b.channel c') := by
      rcases channel_write b c c' _ table b.serial with heq | ⟨rfl, heq⟩
      · exact heq ▸ List.Sublist.refl _
      · rw [heq]
        exact List.filter_sublist
    exact ⟨fun c' => (h.increasing c').sublist (hsub _ c'), fun c' s hs =>
      h.below c' s ((hsub _ c').subset hs)⟩

end Bus

/-! ## Emitting -/

namespace Bus

variable {H : Type} {b : Bus H}

/-- A handler of a type is subscribed in a channel. -/
theorem exists_subscription {type : Text} {h : H} (hh : h ∈ b.handlers type) :
    ∃ c, ∃ sub ∈ b.channel c, sub.handler = h := by
  unfold handlers at hh
  split at hh
  next c _ =>
    obtain ⟨sub, hsub, rfl⟩ := List.mem_map.mp hh
    exact ⟨c, sub, hsub, rfl⟩
  next => cases hh

/-- The next subscription from a serial number on is the first one that is not below it. -/
theorem next?_eq {c serial : Nat} {pre rest : List (Subscription H)}
    (hchannel : b.channel c = pre ++ rest)
    (hpre : ∀ s ∈ pre, s.serial < serial) (hrest : ∀ s ∈ rest, serial ≤ s.serial) :
    b.next? c serial = rest.head? := by
  have hnone : pre.find? (fun s => decide (serial ≤ s.serial)) = none := by
    rw [List.find?_eq_none]
    intro s hs
    have hlt := hpre s hs
    simp only [decide_eq_true_eq]
    omega
  rw [next?, hchannel, List.find?_append, hnone, Option.none_or]
  cases rest with
  | nil => rfl
  | cons s rest => rw [List.find?_cons_of_pos (by simp [hrest s List.mem_cons_self])]; rfl

end Bus

namespace Hub

variable {σ H ε : Type}

/-- Calls handlers one after another, up to the first failure that cannot be reported. -/
def callAll (hub : Hub σ H ε) (event : Event) : List H → σ → Except ε Unit × σ
  | [], s => (.ok (), s)
  | h :: rest, s =>
    match hub.handle event h s with
    | (.ok _, s) => hub.callAll event rest s
    | (.error e, s) => (.error e, s)

/-- Wherever the invariant holds, calling a subscribed handler keeps it and changes no
subscription. -/
def Steadfast (hub : Hub σ H ε) (event : Event) (I : σ → Prop) : Prop :=
  ∀ s, I s → ∀ c, ∀ sub ∈ (hub.bus s).channel c,
    I (hub.handle event sub.handler s).2 ∧ hub.bus (hub.handle event sub.handler s).2 = hub.bus s

/-- Wherever the invariant holds, calling a subscribed handler with an event does what `step` says,
which keeps the invariant and changes no subscription. -/
def Calm (hub : Hub σ H ε) (event : Event) (I : σ → Prop) (step : H → σ → σ) : Prop :=
  ∀ s, I s → ∀ c, ∀ sub ∈ (hub.bus s).channel c, hub.handle event sub.handler s =
    (.ok ⟨⟩, step sub.handler s) ∧
    I (step sub.handler s) ∧ hub.bus (step sub.handler s) = hub.bus s

variable {hub : Hub σ H ε} {event : Event} {I : σ → Prop} {step : H → σ → σ}

theorem Calm.steadfast (hcalm : hub.Calm event I step) : hub.Steadfast event I := by
  intro s hs c sub hsub
  obtain ⟨hhandle, hkept, hbus⟩ := hcalm s hs c sub hsub
  rw [hhandle]
  exact ⟨hkept, hbus⟩

theorem callAll_cons_ok {h : H} {rest : List H} {s s' : σ}
    (hh : hub.handle event h s = (.ok ⟨⟩, s')) :
    hub.callAll event (h :: rest) s = hub.callAll event rest s' := by
  rw [callAll, hh]

theorem callAll_cons_error {h : H} {rest : List H} {s s' : σ} {e : ε}
    (hh : hub.handle event h s = (.error e, s')) :
    hub.callAll event (h :: rest) s = (.error e, s') := by
  rw [callAll, hh]

theorem callAll_append (hub : Hub σ H ε) (event : Event) (first second : List H) (s : σ) :
    hub.callAll event (first ++ second) s =
      match hub.callAll event first s with
      | (.ok _, s) => hub.callAll event second s
      | (.error e, s) => (.error e, s) := by
  induction first generalizing s with
  | nil => rfl
  | cons h first ih =>
    rw [List.cons_append, callAll, callAll]
    rcases hub.handle event h s with ⟨_ | _, s'⟩
    · rfl
    · exact ih s'

/-- Handlers that are subscribed. -/
def Subscribed (hub : Hub σ H ε) (s : σ) (handlers : List H) : Prop :=
  ∀ h ∈ handlers, ∃ c, ∃ sub ∈ (hub.bus s).channel c, sub.handler = h

theorem subscribed_handlers (hub : Hub σ H ε) (s : σ) (type : Text) :
    hub.Subscribed s ((hub.bus s).handlers type) := fun _ hh => Bus.exists_subscription hh

/-- Where no subscription changed, what was subscribed is. -/
theorem Subscribed.tail {h : H} {rest : List H} {s s' : σ}
    (hsubscribed : hub.Subscribed s (h :: rest))
    (hbus : hub.bus s' = hub.bus s) : hub.Subscribed s' rest := by
  intro h' hh'
  rw [hbus]
  exact hsubscribed h' (List.mem_cons_of_mem _ hh')

section steadfast

variable (hsteadfast : hub.Steadfast event I)

include hsteadfast

theorem callAll_keeps {handlers : List H} {s : σ} (hs : I s)
    (hsubscribed : hub.Subscribed s handlers) :
    I (hub.callAll event handlers s).2 ∧ hub.bus (hub.callAll event handlers s).2 = hub.bus s := by
  induction handlers generalizing s with
  | nil => exact ⟨hs, rfl⟩
  | cons h rest ih =>
    obtain ⟨c, sub, hsub, rfl⟩ := hsubscribed h List.mem_cons_self
    obtain ⟨hkept, hbus⟩ := hsteadfast s hs c sub hsub
    rw [callAll]
    generalize hub.handle event sub.handler s = answer at hkept hbus ⊢
    obtain ⟨_ | _, s'⟩ := answer
    · exact ⟨hkept, hbus⟩
    · obtain ⟨hkept', hbus'⟩ := ih hkept (hsubscribed.tail hbus)
      exact ⟨hkept', hbus'.trans hbus⟩

/-- The handlers in a channel are called one after another; the induction is on those that are
left. -/
theorem walk_eq {c n : Nat} (serial : Nat) {s : σ} (pre : List (Subscription H))
    {rest : List (Subscription H)} (hs : I s)
    (hchannel : (hub.bus s).channel c = pre ++ rest) (hpre : ∀ sub ∈ pre, sub.serial < serial)
    (hrest : ∀ sub ∈ rest, serial ≤ sub.serial) (hincreasing : rest.Pairwise fun a b =>
      a.serial < b.serial)
    (hbound : rest.length < n) :
    hub.walk event c n serial s = some (hub.callAll event (rest.map (·.handler)) s) := by
  induction rest generalizing pre n serial s with
  | nil =>
    obtain ⟨n, rfl⟩ : ∃ m, n = m + 1 := Nat.exists_eq_add_one.mpr (Nat.zero_lt_of_lt hbound)
    rw [walk, Bus.next?_eq hchannel hpre hrest]
    rfl
  | cons sub rest ih =>
    obtain ⟨n, rfl⟩ : ∃ m, n = m + 1 := Nat.exists_eq_add_one.mpr (Nat.zero_lt_of_lt hbound)
    have hmem : sub ∈ (hub.bus s).channel c := by
      rw [hchannel]
      exact List.mem_append_right _ List.mem_cons_self
    obtain ⟨hkept, hbus⟩ := hsteadfast s hs c sub hmem
    have hlater := List.pairwise_cons.mp hincreasing
    -- the subscription that was called joins those that the walk has passed
    have hbelow : ∀ sub' ∈ pre ++ [sub], sub'.serial < sub.serial + 1 := by
      intro sub' hsub'
      rcases List.mem_append.mp hsub' with hsub' | hsub'
      · have hle := hrest sub List.mem_cons_self
        have hlt := hpre sub' hsub'
        omega
      · rw [List.mem_singleton.mp hsub']
        exact Nat.lt_succ_self _
    rw [walk, Bus.next?_eq hchannel hpre hrest, List.map_cons, callAll]
    simp only [List.head?_cons]
    generalize hub.handle event sub.handler s = answer at hkept hbus ⊢
    obtain ⟨_ | _, s'⟩ := answer
    · rfl
    · have hchannel' : (hub.bus s').channel c = (pre ++ [sub]) ++ rest := by
        rw [show hub.bus s' = hub.bus s from hbus, hchannel]
        simp
      exact ih (sub.serial + 1) (pre ++ [sub]) hkept hchannel' hbelow hlater.1 hlater.2
        (Nat.lt_of_succ_lt_succ hbound)

/-- Dispatching an event under a type calls each handler of the type once, if as many calls are
allowed as subscriptions were made. -/
theorem dispatch_eq {s : σ} (hs : I s) (hordered : (hub.bus s).Ordered) {bound : Nat}
    (hbound : (hub.bus s).serial < bound) (type : Text) :
    hub.dispatch bound type event s =
      some (hub.callAll event ((hub.bus s).handlers type) s) := by
  cases htype : (hub.bus s).table.get? type with
  | none =>
    simp only [dispatch, Bus.handlers, htype]
    rfl
  | some c =>
    simp only [dispatch, Bus.handlers, htype]
    exact walk_eq hsteadfast 0 [] hs rfl nofun (fun _ _ => Nat.zero_le _) (hordered.increasing c)
      (Nat.lt_of_le_of_lt (hordered.length_le c) hbound)

/-- Emitting an event calls each handler of its type once, and then each handler of every event. -/
theorem emit_eq_callAll {s : σ} (hs : I s) (hordered : (hub.bus s).Ordered) {bound : Nat}
    (hbound : (hub.bus s).serial < bound) :
    hub.emit bound event s = some (hub.callAll event
      ((hub.bus s).handlers event.type ++ (hub.bus s).handlers Event.any) s) := by
  obtain ⟨hkept, hbus⟩ := callAll_keeps hsteadfast hs (hub.subscribed_handlers s event.type)
  rw [emit, dispatch_eq hsteadfast hs hordered hbound event.type, callAll_append]
  generalize hub.callAll event ((hub.bus s).handlers event.type) s = answer at hkept hbus ⊢
  obtain ⟨_ | _, s'⟩ := answer
  · rfl
  · -- the handlers of the type left the subscriptions as they are
    simp only at hkept hbus ⊢
    rw [← hbus] at hordered hbound ⊢
    exact dispatch_eq hsteadfast hkept hordered hbound Event.any

end steadfast

/-- Calm handlers do what is known of them one after another. -/
theorem callAll_calm (hcalm : hub.Calm event I step) {handlers : List H} {s : σ} (hs : I s)
    (hsubscribed : hub.Subscribed s handlers) :
    hub.callAll event handlers s = (.ok ⟨⟩, handlers.foldl (fun s h => step h s) s) := by
  induction handlers generalizing s with
  | nil => rfl
  | cons h rest ih =>
    obtain ⟨c, sub, hsub, rfl⟩ := hsubscribed h List.mem_cons_self
    obtain ⟨hhandle, hkept, hbus⟩ := hcalm s hs c sub hsub
    rw [callAll, hhandle]
    exact ih hkept (hsubscribed.tail hbus)

/-- Emitting an event to calm handlers calls each handler of its type once, and then each handler of
every event. -/
theorem emit_eq (hcalm : hub.Calm event I step) {s : σ} (hs : I s) (hordered : (hub.bus s).Ordered)
    {bound : Nat} (hbound : (hub.bus s).serial < bound) :
    hub.emit bound event s = some (.ok ⟨⟩,
      ((hub.bus s).handlers event.type ++ (hub.bus s).handlers Event.any).foldl
        (fun s h => step h s) s) := by
  have hsubscribed : hub.Subscribed s
      ((hub.bus s).handlers event.type ++ (hub.bus s).handlers Event.any) := fun h hh =>
    (List.mem_append.mp hh).elim (hub.subscribed_handlers s _ h) (hub.subscribed_handlers s _ h)
  rw [emit_eq_callAll hcalm.steadfast hs hordered hbound, callAll_calm hcalm hs hsubscribed]

end Hub

end EvalPlan

import EvalPlan.Proofs.Bus
import EvalPlan.Proofs.Keys

/-!
# What a bus lists

A bus keeps the handlers of a type in a channel, and a table says which channel that is. A channel
that was detached stays where it is, so that the table may lead to some channels only.
`Bus.Coherent` says how the table and the channels fit together wherever a bus is used: no two types
share a channel, no channel of a type is empty, and no handler stands in a channel twice. Each
change of subscriptions keeps this (`Coherent.subscribe`, `Coherent.unsubscribe`, `Coherent.clear`),
and changes the handlers of the types that it is about, and of no others.
-/

namespace EvalPlan.Bus

variable {H : Type} {b : Bus H} {type : Text} {c : Nat}

/-! ## The handlers of a type -/

/-- The handlers of a listed type stand in its channel. -/
theorem handlers_of_some (h : b.table.get? type = some c) :
    b.handlers type = (b.channel c).map (·.handler) := by
  rw [handlers, h]

/-- A type that is not listed has none. -/
theorem handlers_of_none (h : b.table.get? type = none) : b.handlers type = [] := by
  rw [handlers, h]

/-- Only the channel that is written changes, and it holds what is written. -/
theorem channel_setIfInBounds (hc : c < b.channels.size) (c' : Nat) (l : List (Subscription H))
    (table : Table Text Nat) (serial : Nat) :
    ({ channels := b.channels.setIfInBounds c l, table, serial } : Bus H).channel c' =
      if c' = c then l else b.channel c' := by
  simp only [channel, Array.getElem?_setIfInBounds]
  by_cases h : c' = c
  · subst h
    simp [hc]
  · rw [if_neg (Ne.symm h), if_neg h]

/-- A new channel changes no other. -/
theorem channel_push (c' : Nat) (l : List (Subscription H)) (table : Table Text Nat)
    (serial : Nat) : ({ channels := b.channels.push l, table, serial } : Bus H).channel c' =
      if c' = b.channels.size then l else b.channel c' := by
  simp only [channel, Array.getElem?_push]
  split <;> rfl

/-! ## Coherent buses -/

/-- The table of a bus leads every type that it lists to a channel of its own, in which some
handlers stand in the order of their subscriptions, each once. -/
structure Coherent (b : Bus H) : Prop extends Ordered b where
  /-- A type is listed once. -/
  keys : b.table.keys.Nodup
  /-- Its channel was opened. -/
  opened : ∀ {type c}, b.table.get? type = some c → c < b.channels.size
  /-- No other type has this channel. -/
  apart : ∀ {type type' c}, b.table.get? type = some c → b.table.get? type' = some c → type = type'
  /-- Some handler stands in the channel. -/
  filled : ∀ {type c}, b.table.get? type = some c → b.channel c ≠ []
  /-- No handler stands there twice. -/
  nodup : ∀ type, (b.handlers type).Nodup

/-- A bus without subscriptions is coherent. -/
theorem coherent_empty : (empty : Bus H).Coherent where
  toOrdered := ordered_empty
  keys := List.nodup_nil
  opened := nofun
  apart := nofun
  filled := nofun
  nodup _ := List.nodup_nil

/-- A type is listed exactly if it has handlers. -/
theorem Coherent.has_iff (h : b.Coherent) (type : Text) :
    b.table.has type = true ↔ b.handlers type ≠ [] := by
  rw [Table.has, Option.isSome_iff_exists]
  constructor
  · rintro ⟨c, found⟩
    rw [handlers_of_some found, Ne, List.map_eq_nil_iff]
    exact h.filled found
  · intro some_handler
    by_contra unlisted
    exact some_handler (handlers_of_none (by simpa [Option.eq_none_iff_forall_ne_some] using unlisted))

/-! ## Clearing -/

/-- Whether a type is among those that are cleared. -/
def clears (cleared : Option Text) (type : Text) : Bool :=
  cleared == none || cleared == some Event.any || cleared == some type

/-- What the table lists of a type after clearing. -/
theorem get?_clear (h : b.Coherent) (cleared : Option Text) (type : Text) :
    (b.clear cleared).table.get? type =
    if clears cleared type then none else b.table.get? type := by
  cases cleared with
  | none => rfl
  | some t =>
    show (if t = Event.any then [] else b.table.erase t : Table Text Nat).get? type = _
    by_cases hany : t = Event.any
    · -- the type of every event stands for all types
      subst hany
      rfl
    · rw [if_neg hany]
      by_cases ht : t = type
      · subst ht
        rw [Table.get?_erase_same h.keys, if_pos (by simp [clears])]
      · rw [Table.get?_erase_of_ne _ ht, if_neg (by simp [clears, hany, ht])]

/-- What the table lists after clearing it listed before. -/
theorem get?_of_clear (h : b.Coherent) {cleared : Option Text}
    (found : (b.clear cleared).table.get? type = some c) : b.table.get? type = some c := by
  rw [get?_clear h] at found
  split at found
  · cases found
  · exact found

/-- Clearing leaves every channel as it is. -/
theorem channel_clear (b : Bus H) (cleared : Option Text) (c : Nat) :
    (b.clear cleared).channel c = b.channel c := by
  cases cleared <;> rfl

/-- Clearing gives no serial numbers back. -/
theorem serial_clear (b : Bus H) (cleared : Option Text) : (b.clear cleared).serial = b.serial := by
  cases cleared <;> rfl

/-- Clearing takes all handlers from the types that are cleared, and none from others. -/
theorem handlers_clear (h : b.Coherent) (cleared : Option Text) (type : Text) :
    (b.clear cleared).handlers type = if clears cleared type then [] else b.handlers type := by
  have listed := get?_clear h cleared type
  split
  next cleared => exact handlers_of_none (by rw [listed, if_pos cleared])
  next kept =>
    rw [if_neg kept] at listed
    unfold handlers
    simp only [listed, channel_clear]

/-- The types that stay listed keep their order. -/
theorem keys_clear_sublist (b : Bus H) (cleared : Option Text) :
    (b.clear cleared).table.keys.Sublist b.table.keys := by
  cases cleared with
  | none => exact List.nil_sublist _
  | some t =>
    show (if t = Event.any then [] else b.table.erase t : Table Text Nat).keys.Sublist _
    split
    · exact List.nil_sublist _
    · rw [Table.keys_erase]
      exact List.erase_sublist

/-- Clearing keeps the order of what stays. -/
theorem Ordered.clear (h : b.Ordered) (cleared : Option Text) : (b.clear cleared).Ordered where
  increasing c := by
    rw [channel_clear]
    exact h.increasing c
  below c s mem := by
    rw [channel_clear] at mem
    rw [serial_clear]
    exact h.below c s mem

/-- It keeps a bus coherent. -/
theorem Coherent.clear (h : b.Coherent) (cleared : Option Text) : (b.clear cleared).Coherent where
  toOrdered := h.toOrdered.clear cleared
  keys := h.keys.sublist (keys_clear_sublist b cleared)
  opened found := by
    have opened := h.opened (get?_of_clear h found)
    cases cleared <;> exact opened
  apart found found' := h.apart (get?_of_clear h found) (get?_of_clear h found')
  filled found := by
    rw [channel_clear]
    exact h.filled (get?_of_clear h found)
  nodup type := by
    rw [handlers_clear h]
    split
    · exact List.nodup_nil
    · exact h.nodup type

/-! ## Subscribing -/

section subscribe

variable [BEq H] [LawfulBEq H]

/-- A handler of a type that is listed stands in the type's channel. -/
theorem any_channel (h : b.table.get? type = some c) (handler : H) :
    (b.channel c).any (·.handler == handler) = (b.handlers type).contains handler := by
  rw [handlers_of_some h, Bool.eq_iff_iff]
  simp only [List.any_eq_true, beq_iff_eq, List.contains_iff_mem, List.mem_map]

/-- A handler is added to the channel of a listed type, unless it stands there. -/
theorem subscribe_of_some (h : b.table.get? type = some c) (handler : H) :
    b.subscribe type handler =
      if (b.handlers type).contains handler then b
      else { b with
        channels := b.channels.setIfInBounds c (b.channel c ++ [⟨b.serial, handler⟩])
        serial := b.serial + 1 } := by
  rw [← any_channel h, subscribe, openChannel, h]

omit [LawfulBEq H] in
/-- For a type that is not listed a channel is made. -/
theorem subscribe_of_none (h : b.table.get? type = none) (handler : H) :
    b.subscribe type handler =
      { channels := b.channels.push [⟨b.serial, handler⟩]
        table := b.table.put type b.channels.size
        serial := b.serial + 1 } := by
  -- the channel that is opened is empty until the handler is written into it
  have vacant (table : Table Text Nat) (serial : Nat) :
      ({ channels := b.channels.push [], table, serial } : Bus H).channel b.channels.size = [] := by
    rw [channel_push, if_pos rfl]
  have written (l : List (Subscription H)) :
      (b.channels.push []).setIfInBounds b.channels.size l = b.channels.push l :=
    Array.toList_inj.mp (by simp)
  rw [subscribe, openChannel, h]
  dsimp only
  rw [vacant, List.nil_append, written]
  rfl

/-- Subscribing a handler to a type appends it to the handlers of the type, unless it is one of
them. Those of the other types stay. -/
theorem handlers_subscribe (h : b.Coherent) (type : Text) (handler : H) (t : Text) :
    (b.subscribe type handler).handlers t =
      if t = type then
        if (b.handlers type).contains handler then b.handlers type else b.handlers type ++ [handler]
      else b.handlers t := by
  cases found : b.table.get? type with
  | some c =>
    rw [subscribe_of_some found]
    by_cases present : (b.handlers type).contains handler = true
    · rw [if_pos present, if_pos present]
      split
      next same => rw [same]
      next => rfl
    · rw [if_neg present, if_neg present]
      unfold handlers
      simp only [channel_setIfInBounds (h.opened found)]
      by_cases same : t = type
      · subst same
        simp [found]
      · rw [if_neg same]
        cases other : b.table.get? t with
        | none => rfl
        | some c' =>
          -- another type has another channel
          have apart : c' ≠ c := fun eq => same (h.apart other (eq ▸ found))
          simp only [if_neg apart]
  | none =>
    rw [subscribe_of_none found, handlers_of_none found]
    unfold handlers
    simp only [channel_push]
    by_cases same : t = type
    · subst same
      rw [Table.get?_put_same]
      simp
    · rw [Table.get?_put_of_ne _ (Ne.symm same), if_neg same]
      cases other : b.table.get? t with
      | none => rfl
      | some c' =>
        -- the channel was opened before the new one
        simp only [if_neg (Nat.ne_of_lt (h.opened other))]

/-- Subscribing keeps a bus coherent. -/
theorem Coherent.subscribe (h : b.Coherent) (type : Text) (handler : H) :
    (b.subscribe type handler).Coherent := by
  -- a handler that is there already is not added once more
  have nodup (t : Text) : ((b.subscribe type handler).handlers t).Nodup := by
    rw [handlers_subscribe h]
    split
    · split
      · exact h.nodup type
      next absent =>
        rw [List.contains_iff_mem] at absent
        refine List.nodup_append.mpr
          ⟨h.nodup type, List.pairwise_singleton _ _, fun a ha b hb same => ?_⟩
        rw [same, List.mem_singleton.mp hb] at ha
        exact absent ha
    · exact h.nodup t
  have ordered := h.toOrdered.subscribe type handler
  cases found : b.table.get? type with
  | some c =>
    rw [subscribe_of_some found] at nodup ordered ⊢
    split
    · exact h
    next absent =>
      rw [if_neg absent] at nodup ordered
      exact
        { toOrdered := ordered
          keys := h.keys
          opened := fun listed => by
            rw [Array.size_setIfInBounds]
            exact h.opened listed
          apart := h.apart
          filled := fun listed => by
            rw [channel_setIfInBounds (h.opened found)]
            split
            · exact List.append_ne_nil_of_right_ne_nil _ (List.cons_ne_nil _ _)
            · exact h.filled listed
          nodup := nodup }
  | none =>
    rw [subscribe_of_none found] at nodup ordered ⊢
    -- a type is listed with the new channel, or it was listed before with one that is older
    have listed_iff {t : Text} {c : Nat}
      (listed : (b.table.put type b.channels.size).get? t = some c) :
        t = type ∧ c = b.channels.size ∨ b.table.get? t = some c ∧ c < b.channels.size := by
      by_cases same : type = t
      · subst same
        rw [Table.get?_put_same] at listed
        exact .inl ⟨rfl, (Option.some.inj listed).symm⟩
      · rw [Table.get?_put_of_ne _ same] at listed
        exact .inr ⟨listed, h.opened listed⟩
    exact
      { toOrdered := ordered
        keys := Table.nodup_keys_put h.keys _ _
        opened := fun listed => by
          rw [Array.size_push]
          rcases listed_iff listed with ⟨-, rfl⟩ | ⟨-, older⟩
          · exact Nat.lt_succ_self _
          · exact Nat.lt_succ_of_lt older
        apart := fun listed listed' => by
          rcases listed_iff listed with ⟨rfl, rfl⟩ | ⟨before, older⟩
          · rcases listed_iff listed' with ⟨rfl, -⟩ | ⟨-, older'⟩
            · rfl
            · exact absurd older' (Nat.lt_irrefl _)
          · rcases listed_iff listed' with ⟨rfl, rfl⟩ | ⟨before', -⟩
            · exact absurd older (Nat.lt_irrefl _)
            · exact h.apart before before'
        filled := fun listed => by
          rw [channel_push]
          rcases listed_iff listed with ⟨-, rfl⟩ | ⟨before, older⟩
          · rw [if_pos rfl]
            exact List.cons_ne_nil _ _
          · rw [if_neg (Nat.ne_of_lt older)]
            exact h.filled before
        nodup }

end subscribe

/-! ## Unsubscribing -/

section unsubscribe

variable [BEq H]

/-- From a type that is not listed nothing is taken. -/
theorem unsubscribe_of_none (h : b.table.get? type = none) (handler : H) :
    b.unsubscribe type handler = b := by
  rw [unsubscribe, h]

/-- A handler is taken out of the channel of the type. -/
theorem unsubscribe_of_some (h : b.table.get? type = some c) (handler : H) :
    b.unsubscribe type handler =
      { b with
        channels := b.channels.setIfInBounds c
          ((b.channel c).filter fun s => !(s.handler == handler))
        table := if ((b.channel c).filter fun s => !(s.handler == handler)).isEmpty then
          b.table.erase type else b.table } := by
  rw [unsubscribe, h]

/-- What the table lists afterwards it listed before, and something is left of the type itself if it
is listed. -/
theorem listed_of_unsubscribe (h : b.Coherent) (found : b.table.get? type = some c) {handler : H}
    {t : Text} {c' : Nat} (listed : (b.unsubscribe type handler).table.get? t = some c') :
    b.table.get? t = some c' ∧
      (t = type → ((b.channel c).filter fun s => !(s.handler == handler)) ≠ []) := by
  rw [unsubscribe_of_some found] at listed
  dsimp only at listed
  split at listed
  next none_left =>
    by_cases same : type = t
    · subst same
      rw [Table.get?_erase_same h.keys] at listed
      cases listed
    · rw [Table.get?_erase_of_ne _ same] at listed
      exact ⟨listed, fun eq => absurd eq.symm same⟩
  next some_left => exact ⟨listed, fun _ none_left => some_left (by rw [none_left]; rfl)⟩

/-- Nothing is left of a type that is not listed anymore. -/
theorem empty_of_unsubscribe (found : b.table.get? type = some c) {handler : H}
    (unlisted : (b.unsubscribe type handler).table.get? type = none) :
    ((b.channel c).filter fun s => !(s.handler == handler)) = [] := by
  rw [unsubscribe_of_some found] at unlisted
  dsimp only at unlisted
  split at unlisted
  next none_left => exact List.isEmpty_iff.mp none_left
  next => rw [found] at unlisted; cases unlisted

/-- Other types stay listed. -/
theorem get?_unsubscribe_of_ne (found : b.table.get? type = some c) (handler : H)
    {t : Text} (other : t ≠ type) : (b.unsubscribe type handler).table.get? t = b.table.get? t := by
  rw [unsubscribe_of_some found]
  dsimp only
  split
  · exact Table.get?_erase_of_ne _ (Ne.symm other)
  · rfl

/-- Taking a handler out of one channel changes no other. -/
theorem channel_unsubscribe (h : b.Coherent) (found : b.table.get? type = some c) (handler : H)
    (c' : Nat) : (b.unsubscribe type handler).channel c' =
      if c' = c then (b.channel c).filter fun s => !(s.handler == handler) else b.channel c' := by
  rw [unsubscribe_of_some found, channel_setIfInBounds (h.opened found)]

variable [LawfulBEq H]

/-- Taking a subscription back removes its handler from the handlers of its type, and from those of
no other type. -/
theorem handlers_unsubscribe (h : b.Coherent) (type : Text) (handler : H) (t : Text) :
    (b.unsubscribe type handler).handlers t =
      if t = type then (b.handlers type).erase handler else b.handlers t := by
  cases found : b.table.get? type with
  | none =>
    rw [unsubscribe_of_none found, handlers_of_none found]
    split
    next same => rw [same, handlers_of_none found, List.erase_nil]
    next => rfl
  | some c =>
    -- what is left in the channel are the handlers of the type but the one
    have left : ((b.channel c).filter fun s => !(s.handler == handler)).map (·.handler) =
        (b.handlers type).erase handler := by
      rw [(h.nodup type).erase_eq_filter, handlers_of_some found, List.filter_map]
      rfl
    split
    next same =>
      subst same
      rw [← left]
      cases listed : (b.unsubscribe t handler).table.get? t with
      | none => rw [handlers_of_none listed, empty_of_unsubscribe found listed, List.map_nil]
      | some c' =>
        obtain rfl : c' = c :=
          Option.some.inj ((listed_of_unsubscribe h found listed).1.symm.trans found)
        rw [handlers_of_some listed, channel_unsubscribe h found, if_pos rfl]
    next other =>
      unfold handlers
      rw [get?_unsubscribe_of_ne found handler other]
      cases listed : b.table.get? t with
      | none => rfl
      | some c' =>
        have apart : c' ≠ c := fun eq => other (h.apart listed (eq ▸ found))
        simp only [channel_unsubscribe h found, if_neg apart]

/-- Taking back a subscription keeps a bus coherent. -/
theorem Coherent.unsubscribe (h : b.Coherent) (type : Text) (handler : H) :
    (b.unsubscribe type handler).Coherent := by
  cases found : b.table.get? type with
  | none => rwa [unsubscribe_of_none found]
  | some c =>
    exact
      { toOrdered := h.toOrdered.unsubscribe type handler
        keys := by
          rw [unsubscribe_of_some found]
          dsimp only
          split
          · rw [Table.keys_erase]
            exact h.keys.erase _
          · exact h.keys
        opened := fun listed => by
          have opened := h.opened (listed_of_unsubscribe h found listed).1
          rw [unsubscribe_of_some found]
          simpa using opened
        apart := fun listed listed' => h.apart (listed_of_unsubscribe h found listed).1
          (listed_of_unsubscribe h found listed').1
        -- a channel that lost its last handler is not listed any more
        filled := fun listed => by
          obtain ⟨before, left⟩ := listed_of_unsubscribe h found listed
          rw [channel_unsubscribe h found]
          split
          next same => exact left (h.apart before (same ▸ found))
          next => exact h.filled before
        nodup := fun t => by
          rw [handlers_unsubscribe h]
          split
          · exact (h.nodup type).erase _
          · exact h.nodup t }

end unsubscribe

end EvalPlan.Bus

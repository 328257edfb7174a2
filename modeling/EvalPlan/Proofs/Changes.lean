import EvalPlan.Proofs.Roster

/-!
# Changes of subscriptions

What any number of changes do to the channels of a bus, those that are detached included. A change
takes subscriptions out of a channel, or appends one that is newer than all others, of a handler
that does not stand there (`channel_change`). So a channel lists each handler once (`Single`), and
what stands in it after changes stood there before or was subscribed since (`mem_channel_changed`).
-/

namespace EvalPlan.Bus

variable {H : Type} [BEq H] {b : Bus H}

/-- A change of subscriptions. -/
inductive Change (H : Type)
  /-- Subscribes a handler to a type. -/
  | subscribe (type : Text) (handler : H)
  /-- Takes a handler out of the channel of a type. -/
  | unsubscribe (type : Text) (handler : H)
  /-- Clears a type, or all of them. -/
  | clear (type : Option Text)

/-- A bus after a change. -/
def change (b : Bus H) : Change H → Bus H
  | .subscribe type handler => b.subscribe type handler
  | .unsubscribe type handler => b.unsubscribe type handler
  | .clear type => b.clear type

/-- A bus after one change after another. -/
def changed (b : Bus H) (changes : List (Change H)) : Bus H := changes.foldl change b

theorem changed_append (b : Bus H) (changes changes' : List (Change H)) :
    b.changed (changes ++ changes') = (b.changed changes).changed changes' := List.foldl_append

theorem Ordered.change (h : b.Ordered) (c : Change H) : (b.change c).Ordered := by
  cases c with
  | subscribe type handler => exact h.subscribe type handler
  | unsubscribe type handler => exact h.unsubscribe type handler
  | clear type => exact h.clear type

theorem Ordered.changed (h : b.Ordered) (changes : List (Change H)) :
    (b.changed changes).Ordered := by
  induction changes generalizing b with
  | nil => exact h
  | cons first changes ih => exact ih (h.change first)

theorem serial_change (b : Bus H) (c : Change H) : b.serial ≤ (b.change c).serial := by
  cases c with
  | subscribe type handler =>
    show b.serial ≤ (b.subscribe type handler).serial
    have opened := serial_openChannel b type
    unfold Bus.subscribe
    generalize b.openChannel type = p at opened
    obtain ⟨c, b'⟩ := p
    dsimp only at opened ⊢
    split
    · exact Nat.le_of_eq opened.symm
    · exact opened ▸ Nat.le_succ _
  | unsubscribe type handler =>
    show b.serial ≤ (b.unsubscribe type handler).serial
    unfold Bus.unsubscribe
    split <;> exact Nat.le_refl _
  | clear type => exact Nat.le_of_eq (serial_clear b type).symm

theorem serial_changed (b : Bus H) (changes : List (Change H)) :
    b.serial ≤ (b.changed changes).serial := by
  induction changes generalizing b with
  | nil => exact Nat.le_refl _
  | cons first changes ih => exact Nat.le_trans (serial_change b first) (ih _)

/-! ## What happens to a channel -/

/-- Subscribing a handler appends its subscription to a channel in which the handler does not stand,
or leaves the channel as it is. -/
theorem channel_subscribe [LawfulBEq H] (b : Bus H) (type : Text) (handler : H) (c : Nat) :
    (b.subscribe type handler).channel c = b.channel c ∨
      (∀ sub ∈ b.channel c, sub.handler ≠ handler) ∧
        (b.subscribe type handler).channel c = b.channel c ++ [⟨b.serial, handler⟩] := by
  have opened := channel_openChannel b type
  have serial := serial_openChannel b type
  unfold Bus.subscribe
  generalize b.openChannel type = p at opened serial
  obtain ⟨c', b'⟩ := p
  dsimp only at opened serial ⊢
  split
  · exact .inl (opened c)
  next absent =>
    rcases channel_write b' c' c (b'.channel c' ++ [⟨b'.serial, handler⟩]) b'.table
      (b'.serial + 1) with
      same | ⟨rfl, written⟩
    · exact .inl (same.trans (opened c))
    · refine .inr ⟨fun sub hsub same => absent ?_, ?_⟩
      · rw [opened]
        exact List.any_eq_true.mpr ⟨sub, hsub, beq_iff_eq.mpr same⟩
      · rw [written, opened, serial]

/-- A change leaves a channel some of its subscriptions, or appends one that is made now, of a
handler that does not stand there. -/
theorem channel_change [LawfulBEq H] (b : Bus H) (change : Change H) (c : Nat) :
    ((b.change change).channel c).Sublist (b.channel c) ∨
      ∃ handler, (∀ sub ∈ b.channel c, sub.handler ≠ handler) ∧
        (b.change change).channel c = b.channel c ++ [⟨b.serial, handler⟩] := by
  cases change with
  | subscribe type handler =>
    rcases channel_subscribe b type handler c with same | ⟨absent, appended⟩
    · exact .inl (same ▸ List.Sublist.refl _)
    · exact .inr ⟨handler, absent, appended⟩
  | unsubscribe type handler =>
    left
    show ((b.unsubscribe type handler).channel c).Sublist (b.channel c)
    cases found : b.table.get? type with
    | none =>
      rw [unsubscribe_of_none found]
    | some c' =>
      rw [unsubscribe_of_some found]
      -- the channel of another type is left as it was
      rcases channel_write b c' c ((b.channel c').filter fun s => !(s.handler == handler)) _
        b.serial with
        same | ⟨rfl, written⟩
      · exact same ▸ List.Sublist.refl _
      · rw [written]
        exact List.filter_sublist
  | clear type => exact .inl (channel_clear b type c ▸ List.Sublist.refl _)

/-- No handler stands twice in a channel, also not in one that is detached. -/
def Single (b : Bus H) : Prop := ∀ c, ((b.channel c).map (·.handler)).Nodup

omit [BEq H] in
theorem single_empty : (empty : Bus H).Single := fun _ => List.nodup_nil

theorem Single.change [LawfulBEq H] (h : b.Single) (change : Change H) :
    (b.change change).Single := by
  intro c
  rcases channel_change b change c with sublist | ⟨handler, absent, appended⟩
  · exact (h c).sublist (sublist.map _)
  · rw [appended, List.map_append]
    refine List.nodup_append.mpr ⟨h c, List.pairwise_singleton _ _, ?_⟩
    rintro _ hmem _ hnew rfl
    obtain ⟨sub, hsub, same⟩ := List.mem_map.mp hmem
    exact absent sub hsub (same.trans (List.mem_singleton.mp hnew))

theorem Single.changed [LawfulBEq H] (h : b.Single) (changes : List (Change H)) :
    (b.changed changes).Single := by
  induction changes generalizing b with
  | nil => exact h
  | cons first changes ih => exact ih (h.change first)

/-- What stands in a channel after changes stood there before, or was subscribed since. -/
theorem mem_channel_changed [LawfulBEq H] (b : Bus H) (changes : List (Change H)) {c : Nat}
    {sub : Subscription H} (hsub : sub ∈ (b.changed changes).channel c) :
    sub ∈ b.channel c ∨ b.serial ≤ sub.serial := by
  induction changes generalizing b with
  | nil => exact .inl hsub
  | cons first changes ih =>
    rcases ih (b.change first) hsub with before | since
    · rcases channel_change b first c with sublist | ⟨handler, -, appended⟩
      · exact .inl (sublist.subset before)
      · rw [appended] at before
        rcases List.mem_append.mp before with before | now
        · exact .inl before
        · exact .inr (List.mem_singleton.mp now ▸ Nat.le_refl _)
    · exact .inr (Nat.le_trans (serial_change b first) since)

/-! ## What stays listed -/

section listed

variable [LawfulBEq H] {type : Text} {k : Nat}

theorem Coherent.change (h : b.Coherent) (c : Change H) : (b.change c).Coherent := by
  cases c with
  | subscribe type handler => exact h.subscribe type handler
  | unsubscribe type handler => exact h.unsubscribe type handler
  | clear type => exact h.clear type

omit [LawfulBEq H] in
theorem size_change (b : Bus H) (c : Change H) : b.channels.size ≤ (b.change c).channels.size := by
  -- channels are replaced where they are, or a new one is put behind them
  cases c with
  | subscribe type handler =>
    show b.channels.size ≤ (b.subscribe type handler).channels.size
    unfold Bus.subscribe openChannel
    cases b.table.get? type with
    | some c =>
      dsimp only
      split
      · exact Nat.le_refl _
      · exact Nat.le_of_eq Array.size_setIfInBounds.symm
    | none =>
      dsimp only
      split
      · rw [Array.size_push]
        exact Nat.le_succ _
      · rw [Array.size_setIfInBounds, Array.size_push]
        exact Nat.le_succ _
  | unsubscribe type handler =>
    show b.channels.size ≤ (b.unsubscribe type handler).channels.size
    unfold Bus.unsubscribe
    split
    · exact Nat.le_refl _
    · exact Nat.le_of_eq Array.size_setIfInBounds.symm
  | clear type => cases type <;> exact Nat.le_refl _

/-- A type that is listed was listed with the same channel, or is given a new one. -/
theorem listed_of_change (h : b.Coherent) {c : Change H}
    (listed : (b.change c).table.get? type = some k) :
    b.table.get? type = some k ∨ k = b.channels.size := by
  cases c with
  | subscribe type' handler =>
    replace listed : (b.subscribe type' handler).table.get? type = some k := listed
    cases found : b.table.get? type' with
    | some c =>
      rw [subscribe_of_some found] at listed
      split at listed <;> exact .inl listed
    -- only a type that was not listed gets a new channel, and this is the last one
    | none =>
      rw [subscribe_of_none found] at listed
      by_cases same : type' = type
      · rw [same, Table.get?_put_same] at listed
        exact .inr (Option.some.inj listed).symm
      · rw [Table.get?_put_of_ne _ same] at listed
        exact .inl listed
  | unsubscribe type' handler =>
    replace listed : (b.unsubscribe type' handler).table.get? type = some k := listed
    cases found : b.table.get? type' with
    | some c => exact .inl (listed_of_unsubscribe h found listed).1
    | none =>
      rw [unsubscribe_of_none found] at listed
      exact .inl listed
  | clear cleared => exact .inl (get?_of_clear h listed)

/-- What stands in a channel stood there before, or it was subscribed to the type that is listed
with the channel. -/
theorem mem_channel_change (h : b.Coherent) {c : Change H} {sub : Subscription H}
    (stands : sub ∈ (b.change c).channel k) : sub ∈ b.channel k ∨
      ∃ type, c = .subscribe type sub.handler ∧ (b.change c).table.get? type = some k := by
  cases c with
  | subscribe type handler =>
    replace stands : sub ∈ (b.subscribe type handler).channel k := stands
    show sub ∈ b.channel k ∨ ∃ t, _ ∧ (b.subscribe type handler).table.get? t = some k
    cases found : b.table.get? type with
    | some c =>
      rw [subscribe_of_some found] at stands ⊢
      split at stands
      · exact .inl stands
      -- only a subscription to a handler that was not there adds anything
      next absent =>
        rw [channel_setIfInBounds (h.opened found)] at stands
        split at stands
        next same =>
          rcases List.mem_append.mp stands with before | now
          · exact .inl (same ▸ before)
          · rw [List.mem_singleton.mp now, if_neg absent]
            exact .inr ⟨type, rfl, same ▸ found⟩
        next => exact .inl stands
    | none =>
      rw [subscribe_of_none found] at stands ⊢
      rw [channel_push] at stands
      split at stands
      next same =>
        rw [List.mem_singleton.mp stands]
        exact .inr ⟨type, rfl, by rw [Table.get?_put_same, same]⟩
      next => exact .inl stands
  | unsubscribe type handler =>
    replace stands : sub ∈ (b.unsubscribe type handler).channel k := stands
    cases found : b.table.get? type with
    | none =>
      rw [unsubscribe_of_none found] at stands
      exact .inl stands
    | some c =>
      rw [channel_unsubscribe h found] at stands
      split at stands
      next same => exact .inl (same ▸ List.mem_of_mem_filter stands)
      next => exact .inl stands
  | clear cleared => exact .inl (channel_clear b cleared k ▸ stands)

/-- Who is subscribed to a type was subscribed before, or is now. -/
theorem mem_handlers_change (h : b.Coherent) {c : Change H} {handler : H}
    (subscribed : handler ∈ (b.change c).handlers type) :
    handler ∈ b.handlers type ∨ c = .subscribe type handler := by
  -- only the type that the change is about is different afterwards
  cases c with
  | subscribe type' handler' =>
    replace subscribed : handler ∈ (b.subscribe type' handler').handlers type := subscribed
    rw [handlers_subscribe h] at subscribed
    split at subscribed
    next same =>
      subst same
      split at subscribed
      · exact .inl subscribed
      · rcases List.mem_append.mp subscribed with before | now
        · exact .inl before
        · rw [List.mem_singleton.mp now]
          exact .inr rfl
    next => exact .inl subscribed
  | unsubscribe type' handler' =>
    replace subscribed : handler ∈ (b.unsubscribe type' handler').handlers type := subscribed
    rw [handlers_unsubscribe h] at subscribed
    split at subscribed
    next same => exact .inl (same ▸ List.mem_of_mem_erase subscribed)
    next => exact .inl subscribed
  | clear cleared =>
    replace subscribed : handler ∈ (b.clear cleared).handlers type := subscribed
    rw [handlers_clear h] at subscribed
    split at subscribed
    · cases subscribed
    · exact .inl subscribed

/-- A type that is listed stays listed with its channel, unless it is cleared or nobody is left in
it. -/
theorem Coherent.listed_change (h : b.Coherent) (listed : b.table.get? type = some k) {c : Change H}
    (kept : ∀ cleared, c = .clear cleared → clears cleared type = false) :
    (b.change c).table.get? type = some k ∨ (b.change c).channel k = [] := by
  cases c with
  | subscribe type' handler =>
    left
    show (b.subscribe type' handler).table.get? type = some k
    cases found : b.table.get? type' with
    | some c =>
      rw [subscribe_of_some found]
      split <;> exact listed
    | none =>
      have other : type' ≠ type := by
        rintro rfl
        exact absurd (found.symm.trans listed) nofun
      rw [subscribe_of_none found, Table.get?_put_of_ne _ other]
      exact listed
  | unsubscribe type' handler =>
    show (b.unsubscribe type' handler).table.get? type = some k ∨
      (b.unsubscribe type' handler).channel k = []
    cases found : b.table.get? type' with
    | none =>
      rw [unsubscribe_of_none found]
      exact .inl listed
    | some c =>
      by_cases same : type = type'
      · subst same
        obtain rfl : k = c := Option.some.inj (listed.symm.trans found)
        -- the type that lost a handler is still listed, or it lost its last one
        cases left : (b.unsubscribe type handler).table.get? type with
        | some k' => exact .inl ((listed_of_unsubscribe h found left).1.symm.trans listed)
        | none =>
          rw [channel_unsubscribe h found, if_pos rfl]
          exact .inr (empty_of_unsubscribe found left)
      · rw [get?_unsubscribe_of_ne found handler same]
        exact .inl listed
  | clear cleared =>
    left
    show (b.clear cleared).table.get? type = some k
    rw [get?_clear h, kept cleared rfl]
    exact listed

/-- What stands in the channel of a type stays there, unless it is taken out or the type is
cleared. -/
theorem Coherent.stands_change (h : b.Coherent) (listed : b.table.get? type = some k)
    {sub : Subscription H}
    (stands : sub ∈ b.channel k) {c : Change H} (withdrawn : c ≠ .unsubscribe type sub.handler)
    (kept : ∀ cleared, c = .clear cleared → clears cleared type = false) :
    (b.change c).table.get? type = some k ∧ sub ∈ (b.change c).channel k := by
  -- it stays in the channel, which is then not empty, so that the type is still listed with it
  have stays : sub ∈ (b.change c).channel k := by
    cases c with
    | subscribe type' handler =>
      rcases channel_subscribe b type' handler k with same | ⟨-, appended⟩
      · exact same.symm ▸ stands
      · exact appended.symm ▸ List.mem_append_left _ stands
    | unsubscribe type' handler =>
      show sub ∈ (b.unsubscribe type' handler).channel k
      cases found : b.table.get? type' with
      | none =>
        rw [unsubscribe_of_none found]
        exact stands
      | some c =>
        rw [channel_unsubscribe h found]
        split
        next same =>
          subst same
          obtain rfl := h.apart listed found
          have other : sub.handler ≠ handler := fun same => withdrawn (same ▸ rfl)
          exact List.mem_filter.mpr ⟨stands, by simpa using other⟩
        next => exact stands
    | clear cleared => exact (channel_clear b cleared k).symm ▸ stands
  rcases h.listed_change listed kept with listed' | nobody
  · exact ⟨listed', stays⟩
  · rw [nobody] at stays
    cases stays

end listed

end EvalPlan.Bus

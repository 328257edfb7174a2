import EvalPlan.Proofs.Conduct

/-!
# How long subscriptions stand

A bus knows a subscription by its type and its handler. `standing` says for how long a handler is
told the events of a type: as long as one of its subscriptions to the type stands, that is until any
of them is taken back or the type is cleared, whatever other handlers and other types have gone
through. So a handler that was subscribed twice is told nothing anymore when the first subscription
is taken back (`outstanding_untold`).
-/

namespace EvalPlan.Bus.Session

open Traffic (Run Step)

variable {s₀ s s' : Session} {ds : List Delivery} {moves : List (Move Text)}

/-- Who stands when an event is told and is not removed meanwhile is called, and who neither stands
nor is subscribed meanwhile is not. -/
theorem Unused.tells (unused : s₀.Unused) (before : s₀.Proceeds [] moves s ds) {host : Host}
    {n depth : Nat} {event : Event}
    (told : s.tell host (evaluator host n) (react (emit host (evaluator host n) depth)) event =
      (.ok ⟨⟩, s')) :
    ∃ moves', s.Proceeds [] moves' s' [] ∧
      (∀ type handler, type = event.type ∨ type = Event.any → Stands moves type handler →
        s.Serves [] moves' s' type handler) ∧
      ∀ type handler, ¬ Stands moves type handler → .subscribe type handler ∉ moves' →
        .call type handler ∉ moves' := by
  have run := unused.run before
  have coherent : s.bus.Coherent := (Traffic.sound_idle.run run).coherent
  obtain ⟨-, standing⟩ := Traffic.mem_handlers_iff run
  obtain ⟨moves', during, serves⟩ := tell_proceeds (emit_proceeds host n depth) host n event told
  refine ⟨moves', during, fun type handler told stands => ?_, fun type handler gone apart => ?_⟩
  · exact serves rfl coherent type told handler ((standing type handler).mpr stands)
  · exact during.uncalled coherent (fun subscribed => gone ((standing type handler).mp subscribed))
      apart

/-- How long subscriptions stand. -/
structure Standing (host : Host) (n depth : Nat) : Prop where
  /-- In whatever way subscriptions, withdrawals and clears follow each other, also where handlers
  make them while they are told events, a handler is subscribed to a type exactly as long as one of
  its subscriptions to it stands. -/
  subscribed : ∀ {H : Type} [BEq H] [LawfulBEq H] {moves : List (Move H)} {x : Traffic H},
    Run Traffic.idle moves x → ∀ type handler, handler ∈ x.bus.handlers type ↔
      Stands moves type handler
  /-- Taking a subscription back, for the first time or again, leaves what stands of other handlers
  or other types. -/
  apart : ∀ {H : Type} [BEq H] [LawfulBEq H] {moves : List (Move H)} {x : Traffic H} {number : Nat}
      {made : Text × H},
    Run Traffic.idle moves x → x.made[number]? = some made → ∀ type handler,
      (type, handler) ≠ made →
      (Stands (moves ++ [.unsubscribe number]) type handler ↔ Stands moves type handler)
  /-- Whatever history of uses a bus has, it is such a run. -/
  uses : ∀ (s : Session) us, ∃ moves, s.Proceeds [] moves
    (s.useAll host (evaluator host n) (react (emit host (evaluator host n) depth)) us).2 []
  /-- In particular each change of subscriptions is the one move that it is. -/
  changes : ∀ s : Session, (∀ type handler,
      s.Proceeds [] [.subscribe type handler] (s.subscribe type handler).2 []) ∧
    (∀ number, number < s.made.length →
      s.Proceeds [] [.unsubscribe number] (s.unsubscribe number) []) ∧
    ∀ type, s.Proceeds [] [.clear type] (s.clear type) []
  /-- An event that is then told is delivered to those who stand, those apart who are removed
  meanwhile, and to nobody else, those apart who are subscribed meanwhile. -/
  told : ∀ {s₀ s s' : Session} {moves : List (Move Text)} {ds : List Delivery} {event : Event},
    s₀.Unused → s₀.Proceeds [] moves s ds →
    s.tell host (evaluator host n) (react (emit host (evaluator host n) depth)) event =
      (.ok ⟨⟩, s') →
    ∃ moves', s.Proceeds [] moves' s' [] ∧
      (∀ type handler, type = event.type ∨ type = Event.any → Stands moves type handler →
        (∀ m ∈ moves', ¬ m.Removes s'.made type handler) →
          (s.traffic []).Tells moves' type handler) ∧
      ∀ type handler, ¬ Stands moves type handler → .subscribe type handler ∉ moves' →
        .call type handler ∉ moves'

/-- A handler is told the events of a type exactly as long as one of its subscriptions to the type
stands. -/
theorem standing (host : Host) (n depth : Nat) : Standing host n depth where
  subscribed run := (Traffic.mem_handlers_iff run).2
  apart run found type handler other := by
    obtain ⟨made, -⟩ := Traffic.mem_handlers_iff run
    have spared : ¬ (Move.unsubscribe _).Removes (subscriptions _) type handler := fun removes =>
      other (Option.some.inj (removes.symm.trans (made ▸ found)))
    rw [Traffic.stands_concat]
    exact ⟨fun h => h.elim nofun And.left, fun h => .inr ⟨h, spared⟩⟩
  uses := useAll_proceeds host n depth
  changes s := ⟨.subscribe s, fun _ => .unsubscribe, .clear s⟩
  told unused before told := unused.tells before told

/-- The subscription of a number was made, and since then neither was the subscription of this very
number taken back nor was its type cleared. -/
def Outstanding (moves : List (Move Text)) (number : Nat) (type handler : Text) : Prop :=
  ∃ before after, moves = before ++ .subscribe type handler :: after ∧
    number = (subscriptions before).length ∧
    .unsubscribe number ∉ after ∧ ∀ cleared, .clear cleared ∈ after → clears cleared type = false

/-- A handler is subscribed twice, and its first subscription is taken back. -/
def repeated : List (Use Text) :=
  [.subscribe "run" "first", .subscribe "run" "first", .unsubscribe 0]

/-- The second subscription is outstanding, but the handler is not told the event. -/
theorem outstanding_untold :
    (∃ s, sampleSession.Proceeds []
        [.subscribe "run" "first", .subscribe "run" "first", .unsubscribe 0] s [] ∧
      Outstanding [.subscribe "run" "first", .subscribe "run" "first", .unsubscribe 0] 1 "run"
        "first" ∧
      ↑"first" ∉ s.bus.handlers "run") ∧
    called (sampleSession.useAll sampleHost (evaluator sampleHost 3)
      (react (emit sampleHost (evaluator sampleHost 3) 5)) (repeated ++ [.tell Hub.runEvent])).2 =
        [] := by
  have twice := (Proceeds.subscribe sampleSession "run" "first").trans (.subscribe _ "run" "first")
  refine ⟨⟨_, twice.trans (.unsubscribe (by decide)), ?_, ?_⟩, ?_⟩
  · exact ⟨[.subscribe "run" "first"], [.unsubscribe 0], rfl, rfl, by simp, by simp⟩
  · decide +kernel
  · decide +kernel

end EvalPlan.Bus.Session

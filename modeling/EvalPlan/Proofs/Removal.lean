import EvalPlan.Proofs.Conduct

/-!
# When removals take effect

A handler that is taken out of a type is not subscribed to it anymore, and events that are emitted
from then on do not reach it. `removal` says what this leaves open: deliveries that are in progress
at that time. One that goes through the channel in which subscriptions are taken back does not reach
the handler either. But clearing a type leaves its channel as it is, and deliveries that are in
progress go on through that channel. So a removed handler is still called exactly if one of them has
it before it, which is never the case if types are cleared only when no event is delivered to them;
`clearing_recalls` is a case in which it is called.
-/

namespace EvalPlan.Bus.Session

open Traffic (Run Step Considerate)

section

variable {H : Type} [BEq H] [LawfulBEq H] {before after : List (Move H)} {m : Move H}
  {x y z : Traffic H}
  {type : Text} {handler : H}

/-- The handler is taken out of the type. -/
theorem unsubscribed_of_removes (run : Run Traffic.idle (before ++ [m]) y)
    (removes : m.Removes (subscriptions before) type handler) : handler ∉ y.bus.handlers type := by
  obtain ⟨x, first, last⟩ := run.exists_between
  obtain ⟨-, standing⟩ := Traffic.mem_handlers_iff run
  rw [standing, Traffic.stands_concat]
  rintro (rfl | ⟨-, kept⟩)
  · cases removes
  · exact kept removes

/-- It is called again only by deliveries that have it before them. -/
theorem exists_recall_iff (run : Run Traffic.idle (before ++ [m]) y)
    (removes : m.Removes (subscriptions before) type handler) :
    (∃ after z, Run y after z ∧ .subscribe type handler ∉ after ∧ .call type handler ∈ after) ↔
      y.Pending type handler := by
  have sound := Traffic.sound_idle.run run
  constructor
  · rintro ⟨after, z, rest, apart, called⟩
    by_contra passed
    exact (Traffic.Removed.run ⟨unsubscribed_of_removes run removes, passed⟩ sound rest apart).2
      called
  · exact fun pending => pending.exists_call sound.coherent.toOrdered

end

/-- When removals take effect. -/
structure Removal (host : Host) (n depth : Nat) : Prop where
  /-- Whatever is done with the bus of a session is a run of moves, which call those who are
  called. -/
  uses : ∀ (s : Session) us, ∃ moves, s.Proceeds [] moves
    (s.useAll host (evaluator host n) (react (emit host (evaluator host n) depth)) us).2 []
  /-- A handler that is taken out of a type, by a withdrawal or a clear that anybody makes at any
  moment, is not subscribed to it until it is subscribed again. -/
  gone : ∀ {H : Type} [BEq H] [LawfulBEq H] {before after : List (Move H)} {m : Move H} {z : Traffic H}
      {type handler},
    Run Traffic.idle (before ++ [m] ++ after) z → m.Removes (subscriptions before) type handler →
    .subscribe type handler ∉ after → handler ∉ z.bus.handlers type
  /-- It is called until then exactly if a delivery that was in progress has it before it. -/
  recalled : ∀ {H : Type} [BEq H] [LawfulBEq H] {before : List (Move H)} {m : Move H} {y : Traffic H}
      {type handler},
    Run Traffic.idle (before ++ [m]) y → m.Removes (subscriptions before) type handler →
    ((∃ after z, Run y after z ∧ .subscribe type handler ∉ after ∧ .call type handler ∈ after) ↔
      y.Pending type handler)
  /-- It is not called until then if the type was cleared only when no event was delivered to it. -/
  atOnce : ∀ {H : Type} [BEq H] [LawfulBEq H] {before after : List (Move H)} {m : Move H} {z : Traffic H}
      {type handler},
    Run Traffic.idle (before ++ [m] ++ after) z → m.Removes (subscriptions before) type handler →
    .subscribe type handler ∉ after → Considerate type (before ++ [m]) → .call type handler ∉ after
  /-- In no case is it called for an event that is emitted after it was removed. -/
  later : ∀ {s₀ s s' : Session} {before during : List (Move Text)} {m : Move Text} {ds : List Delivery}
    {event : Event} {r} {type handler}, s₀.Unused → s₀.Proceeds [] (before ++ [m] ++ during) s ds →
    m.Removes (subscriptions before) type handler → .subscribe type handler ∉ during →
    s.tell host (evaluator host n) (react (emit host (evaluator host n) depth)) event = (r, s') →
    ∃ moves, s.Proceeds [] moves s' [] ∧
      (.subscribe type handler ∉ moves → .call type handler ∉ moves)

/-- A handler that is removed from a type is called again only by deliveries that go on through a
channel that was detached. -/
theorem removal (host : Host) (n depth : Nat) : Removal host n depth where
  uses := useAll_proceeds host n depth
  gone run removes apart := by
    obtain ⟨y, first, rest⟩ := run.exists_between
    exact rest.unsubscribed (Traffic.sound_idle.run first) apart
      (unsubscribed_of_removes first removes)
  recalled := exists_recall_iff
  atOnce run removes apart considerate := by
    obtain ⟨y, first, rest⟩ := run.exists_between
    have unsubscribed := unsubscribed_of_removes first removes
    have removed : y.Removed _ _ := ⟨unsubscribed, (considerate.attached first).passed unsubscribed⟩
    exact (removed.run (Traffic.sound_idle.run first) rest apart).2
  later unused before removes apart told := by
    have run := unused.run before
    obtain ⟨y, first, rest⟩ := run.exists_between
    have unsubscribed := rest.unsubscribed (Traffic.sound_idle.run first) apart
      (unsubscribed_of_removes first removes)
    obtain ⟨moves, during, -⟩ := tell_proceeds (emit_proceeds host n depth) host n _ told
    exact ⟨moves, during, during.uncalled (Traffic.sound_idle.run run).coherent unsubscribed⟩

/-- A session with two handlers of an event, the first one of which clears the type of the event
when it is called. -/
def clearing : Session where
  world := World.initial Domain.heap
  bus := empty.changed [.subscribe "run" "first", .subscribe "run" "second"]
  made := [("run", "first"), ("run", "second")]
  acts := [("first", [⟨.clear (some "run"), 1⟩]), ("second", [])]

/-- After the first handler has cleared the type nobody is subscribed to it, and the second handler
is called. -/
theorem clearing_recalls :
    (∃ x y z, Run (Traffic.idle : Traffic Text)
        [.subscribe "run" "first", .subscribe "run" "second", .start "run", .call "run" "first"] x ∧
      Step x (.clear (some "run")) y ∧ ↑"second" ∈ x.bus.handlers "run" ∧
        ↑"second" ∉ y.bus.handlers "run" ∧
      Run y [.call "run" "second"] z) ∧
    called (clearing.emit sampleHost (evaluator sampleHost 3) 1 Hub.runEvent).2 =
      [↑"first", ↑"second"] := by
  have begun : Run (Traffic.idle : Traffic Text)
      [.subscribe "run" "first", .subscribe "run" "second", .start "run"]
      ⟨clearing.bus, clearing.made, [⟨"run", 0, 0⟩]⟩ :=
    .snoc (.snoc (.snoc .nil .subscribe) .subscribe) (.start rfl)
  have first : Step (⟨clearing.bus, clearing.made, [⟨"run", 0, 0⟩]⟩ : Traffic Text)
    (.call "run" "first")
      ⟨clearing.bus, clearing.made, [⟨"run", 0, 1⟩]⟩ :=
        @Step.call Text _ _ _ [] ⟨"run", 0, 0⟩ ⟨0, "first"⟩ rfl
  have second : Step (⟨clearing.bus.clear (some "run"), clearing.made, [⟨"run", 0, 1⟩]⟩ : Traffic Text)
      (.call "run" "second")
      ⟨clearing.bus.clear (some "run"), clearing.made, [⟨"run", 0, 2⟩]⟩ :=
    @Step.call Text _ _ _ [] ⟨"run", 0, 1⟩ ⟨1, "second"⟩ rfl
  refine ⟨⟨_, _, _, begun.snoc first, .clear, ?_, ?_, second.run⟩, ?_⟩ <;> decide +kernel

end EvalPlan.Bus.Session

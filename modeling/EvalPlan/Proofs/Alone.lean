import EvalPlan.Proofs.Publishing

/-!
# Doing without subscribers

Where telling an event leaves nothing but notices and marks, it makes no difference to anything else
whether anybody is subscribed. `World.Bereft` relates a world to the same one without subscribers
and without what telling them left; `Unswayed` says of an action that it comes out in both alike,
whatever events it publishes on the way. Everything an engine does is unswayed, since each of its
steps is (`unswayed_uniform`).
-/

namespace EvalPlan

open EvalPlan.Action

namespace World

/-- The world in which nobody is subscribed. -/
def alone (w : World) : World := { w with bus := .empty }

/-- The second world is the first one without its subscribers, and without some of what was
noted. -/
structure Bereft (w w₀ : World) : Prop where
  bus : w₀.bus = .empty
  same : w₀.visible = w.visible
  notices : w₀.notices.Sublist w.notices
  history : w₀.history.Sublist w.history

theorem bereft_alone (w : World) : w.Bereft w.alone :=
  ⟨rfl, rfl, List.Sublist.refl _, List.Sublist.refl _⟩

/-- The same can be read of both. -/
theorem Bereft.readable {w w₀ : World} (h : w.Bereft w₀) : w₀.readable = w.readable := by
  have files : w₀.files = w.files := congrArg (·.files) h.same
  rw [World.readable, World.readable, h.same, files]

/-- The two worlds differ in nothing else. -/
theorem Bereft.exists_eq {w w₀ : World} (h : w.Bereft w₀) :
    ∃ ns hs, w₀ = { w with bus := .empty, notices := ns, history := hs } ∧
      ns.Sublist w.notices ∧ hs.Sublist w.history := by
  obtain ⟨bus, same, notices, history⟩ := h
  refine ⟨w₀.notices, w₀.history, ?_, notices, history⟩
  cases w
  cases w₀
  simp only [visible, World.mk.injEq] at same bus ⊢
  simp [same, bus]

end World

/-- An action comes out in the same way whether anybody is subscribed or not, if each event on the
way is harmless. -/
def Unswayed (host : Host) {α : Type} (act : Action α) : Prop :=
  ∀ w w₀ : World, w.Bereft w₀ → w.bus.Ordered → (∀ p, Publishes host p act w → p.Harmless host) →
    (ExceptT.run act w).1 = (ExceptT.run act w₀).1 ∧
      (ExceptT.run act w).2.Bereft (ExceptT.run act w₀).2

namespace Unswayed

variable {host : Host} {α β : Type}

/-- A step that publishes nothing. -/
theorem of_step {act : Action α}
    (h : ∀ (w : World) ns hs, ns.Sublist w.notices → hs.Sublist w.history →
      (ExceptT.run act w).1 =
          (ExceptT.run act { w with bus := .empty, notices := ns, history := hs }).1 ∧
        (ExceptT.run act w).2.Bereft
          (ExceptT.run act { w with bus := .empty, notices := ns, history := hs }).2) :
    Unswayed host act := by
  intro w w₀ bereft _ _
  obtain ⟨ns, hs, rfl, notices, history⟩ := bereft.exists_eq
  exact h w ns hs notices history

/-- Steps leave the subscriptions as they are. -/
theorem ordered_of_run {act : Action α} (ordinary : Ordinary act) {w w' : World}
    {r : Except Value α} (run : ExceptT.run act w = (r, w')) (ordered : w.bus.Ordered) :
    w'.bus.Ordered := by
  have bus : w'.bus = w.bus := (ordinary _ keepsBus_indifferent).of_run run
  rw [bus]
  exact ordered

theorem bind {x : Action α} {f : α → Action β} (ordinary : Ordinary x) (hx : Unswayed host x)
    (hf : ∀ a, Unswayed host (f a)) : Unswayed host (x >>= f) := by
  intro w w₀ bereft ordered harmless
  obtain ⟨result, after⟩ := hx w w₀ bereft ordered fun p publishes => harmless p (.first publishes)
  rw [run_bind, run_bind]
  cases hw : ExceptT.run x w with
  | mk r w₁ =>
    cases hw₀ : ExceptT.run x w₀ with
    | mk r₀ w₁₀ =>
      rw [hw, hw₀] at result after
      cases result
      cases r with
      -- the second part begins where the first one left both worlds
      | ok a =>
        exact hf a w₁ w₁₀ after (ordered_of_run ordinary hw ordered) fun p publishes =>
          harmless p (.next ordinary hw publishes)
      | error v => exact ⟨rfl, after⟩

theorem tryCatch {x : Action α} {f : Value → Action α} (ordinary : Ordinary x)
    (hx : Unswayed host x) (hf : ∀ v, Unswayed host (f v)) :
    Unswayed host (tryCatch x f) := by
  intro w w₀ bereft ordered harmless
  obtain ⟨result, after⟩ := hx w w₀ bereft ordered fun p publishes =>
    harmless p (.attempt publishes)
  rw [run_tryCatch, run_tryCatch]
  cases hw : ExceptT.run x w with
  | mk r w₁ =>
    cases hw₀ : ExceptT.run x w₀ with
    | mk r₀ w₁₀ =>
      rw [hw, hw₀] at result after
      cases result
      cases r with
      | ok a => exact ⟨rfl, after⟩
      -- both throw the same, and it is handled in what they left
      | error v =>
        exact hf v w₁ w₁₀ after (ordered_of_run ordinary hw ordered) fun p publishes =>
          harmless p (.handler ordinary hw publishes)

/-- What is read of the world is the same in both. -/
theorem read {k : World → Action α} (readable : ∀ w, k w = k w.readable)
    (hk : ∀ w, Unswayed host (k w)) : Unswayed host (get >>= k) := by
  intro w w₀ bereft ordered harmless
  have same : k w₀ = k w := by rw [readable w₀, bereft.readable, ← readable w]
  have ordinary : Ordinary (get : Action World) := fun _ law => law.get
  rw [run_bind_ok (run_get w), run_bind_ok (run_get w₀), same]
  exact hk w w w₀ bereft ordered fun p publishes =>
    harmless p (.next ordinary (run_get w) publishes)

/-- What the action comes to in both worlds. -/
theorem exists_run {act : Action α} (h : Unswayed host act) {w : World} {ns : List Notice}
    {hs : List Mark} (notices : ns.Sublist w.notices) (history : hs.Sublist w.history)
    (ordered : w.bus.Ordered) (harmless : ∀ p, Publishes host p act w → p.Harmless host) :
    ∃ r x ns' hs', ExceptT.run act w = (r, x) ∧
      ExceptT.run act { w with bus := .empty, notices := ns, history := hs } =
        (r, { x with bus := .empty, notices := ns', history := hs' }) ∧
      ns'.Sublist x.notices ∧ hs'.Sublist x.history := by
  obtain ⟨result, after⟩ := h w { w with bus := .empty, notices := ns, history := hs }
    ⟨rfl, rfl, notices, history⟩ ordered harmless
  obtain ⟨ns', hs', left, notices', history'⟩ := after.exists_eq
  exact ⟨_, _, ns', hs', rfl, Prod.ext result.symm left, notices', history'⟩

theorem whileJoining (r : Ref) {act : Action α} (h : Unswayed host act) :
    Unswayed host (whileJoining r act) := by
  intro w w₀ bereft ordered harmless
  obtain ⟨ns, hs, rfl, notices, history⟩ := bereft.exists_eq
  -- both note the same list
  obtain ⟨a, x, ns', hs', run, run', notices', history'⟩ :=
    h.exists_run (w := { w with joining := r :: w.joining }) notices history ordered
      fun p publishes => harmless p (.joining publishes)
  rw [run_whileJoining, run_whileJoining, run, run']
  exact ⟨rfl, rfl, rfl, notices', history'⟩

theorem withBinding (binding : Option RunId) {act : Action α} (h : Unswayed host act) :
    Unswayed host (withBinding binding act) := by
  intro w w₀ bereft ordered harmless
  obtain ⟨ns, hs, rfl, notices, history⟩ := bereft.exists_eq
  -- both are marked as entered and as left
  obtain ⟨a, x, ns', hs', run, run', notices', history'⟩ :=
    h.exists_run (w := w.enter binding) notices (history.append (List.Sublist.refl _)) ordered
      fun p publishes => harmless p (.binding publishes)
  have run'' : ExceptT.run act (World.enter { w with bus := .empty, notices := ns, history := hs }
    binding) = _ := run'
  rw [run_withBinding, run_withBinding, run, run'']
  exact ⟨rfl, rfl, rfl, notices', history'.append (List.Sublist.refl _)⟩

theorem endingScope (id : RunId) (script : Text) {act : Action α} (h : Unswayed host act) :
    Unswayed host (endingScope id script act) := by
  intro w w₀ bereft ordered harmless
  obtain ⟨ns, hs, rfl, notices, history⟩ := bereft.exists_eq
  obtain ⟨a, x, ns', hs', run, run', notices', history'⟩ :=
    h.exists_run notices history ordered fun p publishes => harmless p (.ending publishes)
  rw [run_endingScope, run_endingScope, run, run']
  exact ⟨rfl, rfl, rfl, notices', history'.append (List.Sublist.refl _)⟩

/-- A variable is bound only where there is a frame. -/
theorem bindVariable (scene : Script.Scene) (name : Text) (v : Value) :
    Unswayed host (bindVariable scene name v) := by
  refine .of_step fun w ns hs notices history => ?_
  unfold Action.bindVariable
  cases scene.frames with
  | nil => exact ⟨rfl, rfl, rfl, notices, history⟩
  | cons f _ => exact ⟨rfl, rfl, rfl, notices, history⟩

/-- A type is judged by its name and by the heap. -/
theorem defineType (name : Text) (type : Value) : Unswayed host (defineType name type) := by
  refine .of_step fun w ns hs notices history => ?_
  unfold Action.defineType
  rw [run_bind_ok (run_get _), run_bind_ok (run_get _)]
  simp only
  split
  · exact ⟨rfl, rfl, rfl, notices, history⟩
  · split
    · exact ⟨rfl, rfl, rfl, notices, history⟩
    · exact ⟨rfl, rfl, rfl, notices, history⟩

theorem publish {ev : Evaluator} (hev : ev.Obeys fun w w' => w'.bus = w.bus) (type : Text)
    (data : Option Portrait) (run : Option RunId) :
    Unswayed host (publish host ev type data run) := by
  intro w w₀ bereft ordered harmless
  -- each of those who are told leaves notices and marks, and where nobody is told nothing is left
  choose! notices marks leaves using harmless ⟨ev, type, data, run, w⟩ .here
  have told := run_publish_leaves hev ordered type data run leaves
  have untold : ExceptT.run (Action.publish host ev type data run) w₀ = (.ok ⟨⟩, w₀) := by
    rw [run_publish_eq hev host (bereft.bus ▸ Bus.ordered_empty), audience, bereft.bus]
    rfl
  rw [told, untold]
  exact ⟨rfl, bereft.bus, bereft.same, bereft.notices.trans (List.sublist_append_left _ _),
    bereft.history.trans (List.sublist_append_left _ _)⟩

end Unswayed

/-- To be made of steps of an engine and to be unswayed by subscribers. -/
def Action.Trait.unswayed (host : Host) : Trait :=
  { holds := fun act => Ordinary act ∧ Unswayed host act }

theorem unswayed_uniform (host : Host) : Uniform host (.unswayed host) := by
  have ordinary := ordinary_uniform host
  exact
    { pure := fun a => ⟨ordinary.pure a, .of_step fun _ _ _ hn hh => ⟨rfl, rfl, rfl, hn, hh⟩⟩
      throw := fun v => ⟨ordinary.throw v, .of_step fun _ _ _ hn hh => ⟨rfl, rfl, rfl, hn, hh⟩⟩
      bind := fun hx hf => ⟨ordinary.bind hx.1 fun a => (hf a).1, .bind hx.1 hx.2 fun a => (hf a).2⟩
      tryCatch := fun hx hf =>
        ⟨ordinary.tryCatch hx.1 fun v => (hf v).1, .tryCatch hx.1 hx.2 fun v => (hf v).2⟩
      read := fun readable hk =>
        ⟨ordinary.read readable fun w => (hk w).1, .read readable fun w => (hk w).2⟩
      alloc := fun ho => ⟨ordinary.alloc ho, .of_step fun _ _ _ hn hh => ⟨rfl, rfl, rfl, hn, hh⟩⟩
      change := fun v _ hf => ⟨ordinary.change v hf,
        .of_step fun _ _ _ hn hh => ⟨rfl, rfl, rfl, hn, hh.append (.refl _)⟩⟩
      note := fun hn hline hcall => ⟨ordinary.note hn hline hcall,
        .of_step fun _ _ _ hn hh => ⟨rfl, rfl, rfl, hn.append (.refl _), hh⟩⟩
      print := fun _ level message data => ⟨ordinary.print trivial level message data,
        .of_step fun _ _ _ hn hh => ⟨rfl, rfl, rfl, hn.append (.refl _), hh⟩⟩
      loggers := Action.Trait.permitsAll (fun _ => trivial) host.loggers
      openFrame := fun scene frame => ⟨ordinary.openFrame scene frame,
        .of_step fun _ _ _ hn hh => ⟨rfl, rfl, rfl, hn, hh⟩⟩
      bindVariable := fun scene name v =>
        ⟨ordinary.bindVariable scene name v, .bindVariable scene name v⟩
      postpone := fun scene body => ⟨ordinary.postpone scene body,
        .of_step fun _ _ _ hn hh => ⟨rfl, rfl, rfl, hn, hh⟩⟩
      takeQueue := ⟨ordinary.takeQueue, .of_step fun _ _ _ hn hh => ⟨rfl, rfl, rfl, hn, hh⟩⟩
      whileJoining := fun r _ h => ⟨ordinary.whileJoining r h.1, .whileJoining r h.2⟩
      mark := fun hm => ⟨ordinary.mark hm,
        .of_step fun _ _ _ hn hh => ⟨rfl, rfl, rfl, hn, hh.append (.refl _)⟩⟩
      withBinding := fun binding _ h => ⟨ordinary.withBinding binding h.1, .withBinding binding h.2⟩
      beginScope := fun script => ⟨ordinary.beginScope script,
        .of_step fun _ _ _ hn hh => ⟨rfl, rfl, rfl, hn, hh.append (.refl _)⟩⟩
      endingScope := fun id script _ h =>
        ⟨ordinary.endingScope id script h.1, .endingScope id script h.2⟩
      countDiscarded := fun id => ⟨ordinary.countDiscarded id,
        .of_step fun _ _ _ hn hh => ⟨rfl, rfl, rfl, hn, hh.append (.refl _)⟩⟩
      declareIn := fun id task => ⟨ordinary.declareIn id task,
        .of_step fun _ _ _ hn hh => ⟨rfl, rfl, rfl, hn, hh.append (.refl _)⟩⟩
      offer := fun task => ⟨ordinary.offer task,
        .of_step fun _ _ _ hn hh => ⟨rfl, rfl, rfl, hn, hh.append (.refl _)⟩⟩
      enroll := fun type builder => ⟨ordinary.enroll type builder,
        .of_step fun _ _ _ hn hh => ⟨rfl, rfl, rfl, hn, hh.append (.refl _)⟩⟩
      attach := fun type builder => ⟨ordinary.attach type builder,
        .of_step fun _ _ _ hn hh => ⟨rfl, rfl, rfl, hn, hh.append (.refl _)⟩⟩
      provideImports := fun imports => ⟨ordinary.provideImports imports,
        .of_step fun _ _ _ hn hh => ⟨rfl, rfl, rfl, hn, hh⟩⟩
      -- only here it matters whether anybody is subscribed
      publish := fun hev type data run => ⟨ordinary.publish (hev.imp fun h => h.1) type data run,
        .publish (hev.imp (S := .keeping fun w w' => w'.bus = w.bus) fun h =>
          h.1 _ keepsBus_indifferent).obeys type data run⟩ }

/-- Scripts are unswayed by subscribers, however deeply they are nested. -/
theorem evaluator_unswayed (host : Host) (n : Nat) :
    (evaluator host n).Meets (.unswayed host) :=
  (unswayed_uniform host).rules.evaluator n

/-! ## Requests -/

namespace Request

/-- How requests come out, one after another. -/
def outcomes (host : Host) (ev : Evaluator) : World → List Request → List (Except Value Unit)
  | _, [] => []
  | w, r :: rest =>
    (ExceptT.run (r.perform host ev) w).1 :: outcomes host ev (r.serve host ev w) rest

variable {host : Host} {ev : Evaluator} (hev : ev.Meets (.unswayed host))

include hev

/-- Requests come out in the same way whether anybody is subscribed or not, and what they leave for
later does. -/
theorem session_unswayed (rs : List Request) {w w₀ : World} (bereft : w.Bereft w₀)
    (ordered : w.bus.Ordered)
    (harmless : ∀ p, Request.Publishes host ev p rs w → p.Harmless host) :
    outcomes host ev w rs = outcomes host ev w₀ rs ∧
      (session host ev w rs).Bereft (session host ev w₀ rs) := by
  have rules := (unswayed_uniform host).rules
  induction rs generalizing w w₀ with
  | nil => exact ⟨rfl, bereft⟩
  | cons r rest ih =>
    obtain ⟨ordinary, performed⟩ := perform_holds rules hev
      (fun name type => ⟨ordinary_defineType name type, .defineType name type⟩) r
    obtain ⟨ordinary', settled⟩ := settle_holds rules hev
    -- what the request left for later is carried out before the next one
    obtain ⟨result, after⟩ := performed w w₀ bereft ordered fun p publishes =>
      harmless p (.performing publishes)
    have ordered' := Unswayed.ordered_of_run ordinary (w := w) rfl ordered
    obtain ⟨-, after'⟩ := settled _ _ after ordered' fun p publishes =>
      harmless p (.settling publishes)
    obtain ⟨results, last⟩ := ih after' (Unswayed.ordered_of_run ordinary' rfl ordered')
      fun p publishes => harmless p (.later publishes)
    exact ⟨congrArg₂ List.cons result results, last⟩

end Request

end EvalPlan

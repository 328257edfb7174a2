import EvalPlan.Proofs.Chain

/-!
# Programs that run other programs

What carrying a script out comes to before its first statement, where the engine's parts are as they
were made, and how a program is run within another one. With this `exists_chain` builds chains of
any length out of programs.
-/

namespace EvalPlan

open EvalPlan.Action Script

/-- Everything is tame, and scripts reach the engine's way to run programs as it was made. -/
structure World.Ready (w : World) : Prop extends World.Tame w where
  runs : ∃ s, w.heap.slot? Fixture.engine.ref Operation.run.name = some s ∧
    s.value? = some (.ref (Fixture.operation .run).ref)

theorem World.Ready.of_extends {w w' : World} (ready : w.Ready) (hext : w.heap.Extends w'.heap)
    (bus : w'.bus = w.bus) : w'.Ready where
  toTame := ready.toTame.of_extends hext bus
  runs := by
    obtain ⟨s, found, holds⟩ := ready.runs
    exact ⟨s, Heap.slot?_extends hext found, holds⟩

/-- So it is at first. -/
theorem World.ready_listening {others : List Object} (h : ∀ o ∈ others, o.HoldsName) :
    (World.listening others).Ready where
  intact := (World.heard_listening h).intact
  ordered := (World.heard_listening h).ordered
  describable c s subscribed v fails := by
    have mild := (World.heard_listening h).mild c s subscribed
    rw [Subscriber.isMild, fails] at mild
    cases mild
  runs := by
    have inherited : Fixture.engineTemplate.object.own? Operation.run.name =
      some (.hidden (.ref (Fixture.operation .run).ref)) := rfl
    exact ⟨_, Heap.Intact.slot?_inherited (Heap.fixture_initial others .engine) rfl rfl
      (Heap.fixture_initial others .engineTemplate) inherited (by decide),
        Heap.Intact.value?_guarded⟩

/-! ## The objects of a run -/

namespace Action

variable {host : Host} {ev : Evaluator} {w : World}

theorem run_allocAll (os : List Object) (w : World) :
    ExceptT.run (os.forM fun o => do let _ ← alloc o) w =
      (.ok ⟨⟩, { w with heap := w.heap ++ os.toArray }) := by
  induction os generalizing w with
  | nil => simp
  | cons o os ih =>
    have first : ExceptT.run (do let _ ← alloc o) w =
      (.ok ⟨⟩, { w with heap := w.heap.push o }) := rfl
    refine (run_bind_ok first).trans ((ih _).trans ?_)
    simp

theorem run_newRealm (w : World) : ExceptT.run newRealm w =
    (.ok ⟨w.heap.size⟩, { w with heap := w.heap ++ (Realm.objects ⟨w.heap.size⟩).toArray }) := by
  unfold newRealm
  rw [run_bind_ok (run_heap w), run_bind_ok (run_allocAll _ w), run_pure]

/-- The global object of a run holds the engine. -/
theorem run_globalObject (intact : w.heap.Intact) (hrole : host.role = .engine)
    (hlistener : host.listener = Listener.emitting) (ev : Evaluator) (realm : Realm) (id : RunId) :
    ∃ r h, ExceptT.run (globalObject host ev realm id) w = (.ok (.ref r), { w with heap := h }) ∧
      w.heap.Extends h ∧ h.value? (.ref r) "engine" = some (.ref Fixture.engine.ref) := by
  -- an engine that emits events has a callback of its own for tasks
  have callback : ExceptT.run (taskCallback host ev) w = (.ok .undefined, w) := by
    unfold taskCallback
    rw [hlistener]
    rfl
  unfold globalObject newVerb
  rw [hrole]
  dsimp only [Role.facade]
  rw [run_bind_ok callback, run_bind_ok (run_property_ref intact.logger_found),
    run_bind_ok (run_alloc _ _),
    run_bind_ok (run_alloc _ _), run_bind_ok (run_alloc _ _), run_bind_ok (run_heap _), run_alloc]
  -- three verbs are added, and then the object that holds them
  refine ⟨_, _, rfl, fun r o found => ?_, ?_⟩
  · exact Heap.extends_push _ _ r o (Heap.extends_push _ _ r o (Heap.extends_push _ _ r o
      (Heap.extends_push _ _ r o found)))
  · rw [Heap.value?, Heap.find?, Heap.slot?_own (s := .ordinary (.ref Fixture.engine.ref))
      (by rw [Array.getElem?_push, if_pos rfl]) rfl]
    rfl

/-- What a script comes to before its first statement: its scene is there, in which it reaches the
engine unless it binds another variable of that name, and what its statements come to the script
does. -/
theorem runBody_begins (intact : w.heap.Intact) (hrole : host.role = .engine)
    (hlistener : host.listener = Listener.emitting) (ev : Evaluator) (script : CompiledScript)
    (id : RunId)
    (unbound : Table.get? ((bound script.body).map fun name => (name, none))
      (Text.ofString "engine") = (none : Option (Option Value))) :
    ∃ scene w₁, w.heap.Extends w₁.heap ∧ w₁.bus = w.bus ∧
      ExceptT.run (readVariable scene "engine") w₁ = (.ok (.ref Fixture.engine.ref), w₁) ∧
      (∀ v w₂, ExceptT.run (ev.block scene script.body) w₁ = (.error v, w₂) →
        ExceptT.run (runBody host ev script id) w = (.error v, w₂)) ∧
      ((∀ R, Law host R → ev.Obeys R) → ∀ l, Launches host l (ev.block scene script.body) w₁ →
        Launches host l (runBody host ev script id) w) := by
  have realm := run_newRealm w
  generalize hh : w.heap ++ (Realm.objects ⟨w.heap.size⟩).toArray = h at realm
  have ext : w.heap.Extends h := hh ▸ w.heap.extends_append _
  obtain ⟨r, h', global, ext', engine⟩ := run_globalObject (w := { w with heap := h })
    (intact.extends_ ext) hrole hlistener ev ⟨w.heap.size⟩ id
  let frame : Table Text (Option Value) := (bound script.body).map fun name => (name, none)
  let scene : Scene := ⟨[w.frames.size], some r, ⟨w.heap.size⟩, false⟩
  let w₁ : World := { w with heap := h', frames := w.frames.push frame }
  have opened : ExceptT.run (openBlock ⟨[], (Value.ref r).ref?, ⟨w.heap.size⟩, false⟩ script.body)
      { w with heap := h' } = (.ok scene, w₁) := rfl
  have known : known? w₁ scene "engine" = some (some (.ref Fixture.engine.ref)) := by
    -- the frame of the script binds no such name, so the global object is asked
    have top : w₁.frames[w.frames.size]? = some frame := by
      show (w.frames.push frame)[w.frames.size]? = _
      rw [Array.getElem?_push, if_pos rfl]
    have missing : (scene.frames.findSome? fun f =>
        (w₁.frames[f]?).bind fun frame => frame.get? (Text.ofString "engine")) = none := by
      simp [scene, top, frame, unbound]
    rw [known?, missing]
    simp only [scene, Option.bind_some]
    rw [show w₁.heap = h' from rfl, engine]
    rfl
  refine ⟨scene, w₁, fun r o found => ext' r o (ext r o found), rfl, ?_, fun v w₂ thrown => ?_,
    fun hev l launches => ?_⟩
  · unfold readVariable
    rw [run_bind_ok (run_get w₁), known]
    rfl
  · unfold runBody
    rw [run_bind_ok realm, run_bind_ok global, run_bind_ok opened]
    exact run_bind_error thrown
  · exact .next (fun R law => newRealm_holds law.stable) realm <|
      .next (fun R law => globalObject_holds law.stable (hev R law).meets _ _) global <|
      .next (fun R law => openBlock_holds law.stable _ _) opened (.first launches)

/-- Where all is tame a run is opened, and this adds nothing but what is noted and told. -/
theorem run_openRun (tame : w.Tame) (hrole : host.role = .engine)
    (hlistener : host.listener = Listener.emitting) (hev : ev.Obeys fun w w' => w'.bus = w.bus)
    (script : Text) (id : RunId) : ∃ notices ms, ExceptT.run (openRun host ev script id) w =
      (.ok ⟨⟩, { w with notices := w.notices ++ notices, history := w.history ++ ms }) := by
  let event : Event := ⟨"run:started", Clock.iso w.clock, some id,
    some (fieldsPortrait w.heap [("script", Value.text script)])⟩
  obtain ⟨notices, published⟩ := run_publish_tame host hev tame "run:started" event.data (some id)
  have told : ExceptT.run (announceStarted host ev script id) w =
      (.ok ⟨⟩, w.leaving event (audience w event) notices) := by
    unfold announceStarted
    rw [hlistener]
    exact (run_emit_eq ev tame.intact hrole _ _ _).trans published
  have logged := run_log ev (w := w.leaving event (audience w event) notices) tame.intact
    host.loggers.runner .debug "Running script" [("script", Value.text script), ("runId", .run id)]
  rw [openRun, run_markingThrow, run_bind_ok told, logged]
  simp only [World.leaving, World.noting, List.append_assoc]
  exact ⟨_, _, rfl⟩

end Action

/-! ## Programs within programs -/

namespace Launches

variable {host : Host} {w : World}

/-- A program that the engine is asked to run is carried out as a script. -/
theorem program (host : Host) (intact : w.heap.Intact) (n : Nat) (name : Text) {body : List Stmt}
    {result : Option Expr} (once : (Program.block body result).bindsOnce = true) :
    ∃ notices, Launches host ⟨n, ⟨name, body, result⟩, w.noting notices⟩
      ((evaluator host (n + 1)).run name (.block body result)) w := by
  have logged := run_log (evaluator host n) intact host.loggers.engine .debug
    "Running inline script"
    [("source", Value.text name)]
  generalize host.loggers.engine.leaves .debug "Running inline script" _ = first at logged
  have intact' : (w.noting first).heap.Intact := intact
  have compiled : ∃ notices, ExceptT.run (compile host (evaluator host n) name (.block body result))
      (w.noting first) = (.ok ⟨name, body, result⟩, w.noting notices) := by
    refine ⟨first ++ host.loggers.runner.leaves .debug "Script compiled"
      (some (fieldsPortrait w.heap [("script", Value.text name)])), ?_⟩
    unfold compile
    simp only
    rw [if_pos once, run_bind_ok (run_log (evaluator host n) intact' _ _ _ _)]
    simp [World.noting]
  obtain ⟨notices, compiled⟩ := compiled
  refine ⟨notices, .first ?_⟩
  exact .next (fun R law => log_keeps law.toSteady (law.evaluator n) _ _ _ _) logged <|
    .next (fun R law => compile_keeps law.toSteady (law.evaluator n) _ _) compiled .here

/-- Where scripts reach the engine as it was made, an expression that runs a program gets as far as
the program. -/
theorem nested {l : Launch} {n : Nat} {scene : Scene} {name : Text} {program : Program}
    (hrole : host.role = .engine) (ready : w.Ready)
    (engine : ExceptT.run (readVariable scene "engine") w = (.ok (.ref Fixture.engine.ref), w))
    (launches : Launches host l ((evaluator host n).run name program) w) :
    Launches host l ((evaluator host (n + 1)).expr scene (.run name program)) w := by
  have callee : ExceptT.run (property (evaluator host n) scene.realm (.ref Fixture.engine.ref)
      Operation.run.name) w = (.ok (.ref (Fixture.operation .run).ref), w) :=
    run_property_ref ready.runs
  have reached : (host.role == .engine && reachesEngine w.heap (.ref Fixture.engine.ref)) =
      true := by
    have itself : (Value.ref Fixture.engine.ref == .ref Fixture.engine.ref) = true := by decide
    rw [hrole, reachesEngine, reaches, itself]
    rfl
  refine .next (fun R law => readVariable_holds law.stable _ _) engine <|
    .next (fun R law => property_holds law.stable (law.evaluator n).meets _ _ _) callee <|
    .next (fun R law => law.heap) (run_heap w) ?_
  simp only [ready.intact.callable?_operation .run, if_pos reached]
  exact launches

end Launches

/-! ## Chains of programs -/

/-- Statements that throw a text within a number of programs. -/
def throwingWithin (t : Text) : Nat → List Stmt
  | 0 => [.raise (.const (.text t))]
  | n + 1 => [.perform (.run "inner" (.block (throwingWithin t n) none))]

theorem throwingWithin_bindsOnce (t : Text) (n : Nat) :
    (Program.block (throwingWithin t n) none).bindsOnce = true := by
  cases n <;> rfl

namespace Launch

variable {host : Host} (hrole : host.role = .engine) (hlistener : host.listener = Listener.emitting)
  {l : Launch}

include hrole hlistener

/-- Where all is as it was made, a run is opened and everything stays so. -/
theorem opens (ready : l.world.Ready) :
    (ExceptT.run (openRun host (l.evaluator host) l.script.name l.run)
      (l.world.beginRun l.script.name)).1 = .ok ⟨⟩ ∧
    (l.entered host).heap = l.world.heap ∧ (l.entered host).bus = l.world.bus := by
  have began : (l.world.beginRun l.script.name).Tame :=
    ready.toTame.of_extends (fun _ _ found => found) rfl
  obtain ⟨notices, ms, opened⟩ := run_openRun began hrole hlistener
    (obeys (keepsBus_indifferent.onHost host) l) l.script.name l.run
  have opened' : (l.entered host) = World.enter (ExceptT.run (openRun host (l.evaluator host)
    l.script.name l.run) (l.world.beginRun l.script.name)).2 (some l.run) := rfl
  rw [opened', opened]
  exact ⟨rfl, rfl, rfl⟩

end Launch

/-- Programs that run each other are a chain, as many of them as one likes. -/
theorem exists_chain (host : Host) (hrole : host.role = .engine)
    (hlistener : host.listener = Listener.emitting) (t name : Text) (n : Nat) {w : World}
    (ready : w.Ready) :
    ∃ inner x, inner.map (·.script.name) = List.replicate n (Text.ofString "inner") ∧ x.Tame ∧
      Chain host (.text t) t x ⟨3 * n + 2, ⟨name, throwingWithin t n, none⟩, w⟩ inner := by
  induction n generalizing name w with
  | zero =>
    let l : Launch := ⟨2, ⟨name, throwingWithin t 0, none⟩, w⟩
    obtain ⟨opens, heap, bus⟩ := Launch.opens hrole hlistener (l := l) ready
    have ready' : (l.entered host).Ready := ready.of_extends (heap ▸ fun _ _ found => found) bus
    obtain ⟨scene, w₁, ext, bus', -, throws, -⟩ :=
      runBody_begins ready'.intact hrole hlistener (l.evaluator host) l.script l.run rfl
    have thrown : outcome host (l.evaluator host) l.script l.world = (.error (.text t), w₁) :=
      throws _ _ rfl
    have left : scriptLeft host (l.evaluator host) l.script l.world =
        w₁.leave (opened host (l.evaluator host) l.script l.world).binding := by
      rw [scriptLeft, thrown]
    refine ⟨[], _, rfl, ?_, .innermost ⟨opens, by rw [thrown]⟩
      (described_of_describes _ _ fun _ _ _ => rfl)⟩
    refine ready'.toTame.of_extends ?_ ?_
    · rw [left]
      exact ext
    · rw [left]
      exact bus'
  | succ n ih =>
    let l : Launch := ⟨3 * (n + 1) + 2, ⟨name, throwingWithin t (n + 1), none⟩, w⟩
    obtain ⟨opens, heap, bus⟩ := Launch.opens hrole hlistener (l := l) ready
    have ready' : (l.entered host).Ready := ready.of_extends (heap ▸ fun _ _ found => found) bus
    obtain ⟨scene, w₁, ext, bus', engine, -, launching⟩ :=
      runBody_begins ready'.intact hrole hlistener (l.evaluator host) l.script l.run rfl
    have ready₁ : w₁.Ready := ready'.of_extends ext bus'
    -- the script of the program begins after what running it logs
    obtain ⟨notices, launches⟩ := Launches.program host ready₁.intact (3 * n + 2) "inner"
      (throwingWithin_bindsOnce t n)
    have ready₂ : (w₁.noting notices).Ready := ready₁.of_extends (fun _ _ found => found) rfl
    obtain ⟨inner, x, names, tame, chain⟩ := ih "inner" ready₂
    refine ⟨_ :: inner, x, by rw [List.map_cons, names]; rfl, tame, .outer opens ?_ chain⟩
    exact launching (fun R law => law.evaluator _) _
      (.first (.first (Launches.nested hrole ready₁ engine launches)))

end EvalPlan

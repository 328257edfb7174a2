import EvalPlan.Proofs.Delivery
import EvalPlan.Proofs.Failure
import EvalPlan.Proofs.Launch
import EvalPlan.Proofs.Recorded
import EvalPlan.Proofs.Telling

/-!
# Scripts that fail within each other

When a script throws a value that it does not handle, the script that runs it fails too, and so does
the one around that, up to where somebody handles it. `Chain` describes scripts that run each other
like this, and `Chain.unwinds` says what the failure leaves behind: by induction on the chain, each
script turns what it is thrown into an error of its own with that as its cause, which is announced
before the next script is reached.
-/

namespace EvalPlan

open EvalPlan.Action

/-! ## A run that fails -/

/-- The event that tells that the script of a run failed. -/
def Event.ofFailure (clock : Nat) (id : RunId) (script message : Text) : Event :=
  { type := "run:failed"
    timestamp := Clock.iso clock
    run := some id
    data := Event.fields [("script", .text script), ("error", .text message)] }

namespace World

/-- What is told of the failure of a run. -/
def failureTold (w : World) (id : RunId) (script message : Text) : List Mark :=
  (audience w (Event.ofFailure w.clock id script message)).flatMap
    (Subscriber.hears (Event.ofFailure w.clock id script message))

/-- The world after the failure of a run was logged and told, and its scope was ended. -/
def failing (w : World) (id : RunId) (script : Text) (p : Problem) (notices : List Notice) :
    World :=
  { w with
    heap := w.heap.push (problemObject p)
    scopes := (w.scopes.finish id).2
    notices := w.notices ++ notices
    history := w.history ++ (.failed id script p.message ::
      (w.failureTold id script p.message ++ [.ended id script none])) }

/-- The error of the run is there. -/
theorem getElem?_failing (w : World) (id : RunId) (script : Text) (p : Problem)
    (notices : List Notice) :
    (w.failing id script p notices).heap[w.heap.size]? = some (problemObject p) := by
  show (w.heap.push (problemObject p))[w.heap.size]? = some (problemObject p)
  rw [Array.getElem?_push, if_pos rfl]

end World

namespace Action

section failing

variable {host : Host} (hrole : host.role = .engine) (hlistener : host.listener = Listener.emitting)
  {ev : Evaluator} (hev : ev.Obeys fun w w' => w'.bus = w.bus)

include hrole hlistener hev

/-- Where all is tame, the failure of a run is told to everyone, and then the error is made. -/
theorem run_announceFailed_tame {w : World} (tame : w.Tame) (script : Text) (id : RunId)
    (p : Problem) :
    ∃ notices, ExceptT.run (announceFailed host ev script id p) w =
      (.ok (.ref w.heap.size), { w.leaving (Event.ofFailure w.clock id script p.message)
        (audience w (Event.ofFailure w.clock id script p.message)) notices with
          heap := w.heap.push (problemObject p) }) := by
  obtain ⟨notices, told⟩ : ∃ notices, ExceptT.run (emit host ev "run:failed"
      [("script", Value.text script), ("error", Value.text p.message)] (some id)) w =
        (.ok ⟨⟩, w.leaving (Event.ofFailure w.clock id script p.message)
          (audience w (Event.ofFailure w.clock id script p.message)) notices) := by
    rw [run_emit_eq ev tame.intact hrole]
    exact run_publish_tame host hev tame _ _ _
  refine ⟨notices, ?_⟩
  unfold announceFailed
  rw [hlistener]
  exact run_bind_ok told

/-- A script that throws what can be described fails with an error of its own. -/
theorem executeScript_failing {script : CompiledScript} {w x : World} {v : Value} {message : Text}
    (throws : ScriptThrows host ev script w v)
    (described : Described ev w.scopes.tasks.size v (scriptLeft host ev script w) message x)
    (tame : x.Tame) :
    ∃ notices, ExceptT.run (executeScript host ev script) w =
      (.error (.ref x.heap.size),
        x.failing w.scopes.tasks.size script.name (failure script.name v message) notices) := by
  obtain ⟨y, text, h₁, h₂⟩ := described
  have logged := run_log ev tame.intact host.loggers.runner .debug "Script failed"
    [("script", Value.text script.name), ("runId", .run w.scopes.tasks.size),
      ("discardedTasks", Value.ofNat (y.scopes.size w.scopes.tasks.size)),
        ("error", Value.text text)]
  -- neither the log entry nor the mark makes the world less tame
  generalize host.loggers.runner.leaves .debug "Script failed" _ = entry at logged
  have tame' : World.Tame ((x.noting entry).marked
      (.failed w.scopes.tasks.size script.name (failure script.name v message).message)) :=
    tame.of_extends (fun _ _ found => found) rfl
  obtain ⟨notices, told⟩ := run_announceFailed_tame hrole hlistener hev tame' script.name
    w.scopes.tasks.size (failure script.name v message)
  have logged' : ExceptT.run (logFailed host ev script.name w.scopes.tasks.size
    (y.scopes.size w.scopes.tasks.size) text) x = (.ok ⟨⟩, x.noting entry) := logged
  have failed : ExceptT.run (failRun host ev script.name w.scopes.tasks.size v : Action Value) _ =
      _ :=
    (run_failRun h₁ h₂).trans ((run_bind_ok logged').trans
      ((run_bind_ok (run_mark _ _)).trans (run_bind_ok told)))
  refine ⟨entry ++ notices, ?_⟩
  rw [executeScript_thrown throws failed]
  simp [World.failing, World.failureTold, World.endRun, World.leaving, World.marked, World.noting,
    audience, List.append_assoc]

end failing

end Action

/-! ## Chains -/

namespace Launch

/-- The world in which the script begins, if its run could be opened. -/
def entered (host : Host) (l : Launch) : World :=
  (opened host (l.evaluator host) l.script l.world).enter (some l.run)

/-- The message of the error that the outermost of some scripts fails with. -/
def failureMessage (message : Text) : List Launch → Text
  | [] => message
  | l :: inner =>
    "error running configuration script " ++ l.script.name ++ ": " ++ failureMessage message inner

/-- The messages of the errors that scripts fail with, the outermost first. -/
def failureMessages (message : Text) : List Launch → List Text
  | [] => []
  | l :: inner => failureMessage message (l :: inner) :: failureMessages message inner

/-- The events that tell that scripts failed, the innermost first. -/
def failureEvents (clock : Nat) (message : Text) : List Launch → List Event
  | [] => []
  | l :: inner => failureEvents clock message inner ++
      [Event.ofFailure clock l.run l.script.name (failureMessage message (l :: inner))]

end Launch

/-- A script runs another one where nothing handles what that throws, which runs another one, and so
on. The innermost throws a value that is described by the message; the world is the one in which the
value has been described. -/
inductive Chain (host : Host) (v : Value) (message : Text) (x : World) : Launch → List Launch → Prop
  /-- The innermost script. -/
  | innermost {l : Launch} :
      ScriptThrows host (l.evaluator host) l.script l.world v →
      Described (l.evaluator host) l.run v
        (scriptLeft host (l.evaluator host) l.script l.world) message x →
      Chain host v message x l []
  /-- A script that runs another one. -/
  | outer {l next : Launch} {inner : List Launch} :
      (ExceptT.run (openRun host (l.evaluator host) l.script.name l.run)
        (l.world.beginRun l.script.name)).1 = .ok ⟨⟩ →
      Launches host next (runBody host (l.evaluator host) l.script l.run) (l.entered host) →
      Chain host v message x next inner →
      Chain host v message x l (next :: inner)

/-- Following the causes of a value passes through configuration errors with these messages, one
after another, and reaches another value. -/
inductive Heap.Traces (h : Heap) (v : Value) : List Text → Value → Prop
  /-- The value is reached. -/
  | reached : Traces h v [] v
  /-- An error has a cause. -/
  | caused {r : Ref} {message : Text} {messages : List Text} {u : Value} :
      h.errorKind? (.ref r) = some .configuration → h.text? (.ref r) "message" = some message →
      h.value? (.ref r) "cause" = some u → Traces h v messages u →
      Traces h v (message :: messages) (.ref r)

namespace Heap

variable {h h' : Heap} {v u : Value} {messages : List Text}

/-- Errors and their causes stay where objects are added. -/
theorem Traces.extends_ (traces : h.Traces v messages u) (hext : h.Extends h') :
    h'.Traces v messages u := by
  induction traces with
  | reached => exact .reached
  | caused kind text cause _ ih =>
    obtain ⟨t, found, text⟩ := Option.bind_eq_some_iff.mp text
    refine .caused ?_ ?_ (value?_extends hext cause) ih
    · unfold errorKind? at kind ⊢
      cases object : h.object? (.ref _) with
      | none =>
        rw [shape?, object] at kind
        cases kind
      | some o =>
        rw [shape?, object] at kind
        rw [shape?, object?_extends hext object]
        exact kind
    · rw [text?, value?_extends hext found]
      exact text

/-- The error that a script failed with leads to what the script threw. -/
theorem Traces.failure {r : Ref} {script words : Text} (traces : h.Traces v messages u)
    (hr : h[r]? = some (problemObject (Action.failure script u words))) :
    h.Traces v ((Action.failure script u words).message :: messages) (.ref r) := by
  have own : (problemObject (Action.failure script u words)).own? "cause" = some (.hidden u) := rfl
  refine .caused ?_ (text?_problem hr) ?_ traces
  · simp only [errorKind?, shape?, object?, hr]
    rfl
  · rw [value?, find?, slot?_own hr own]
    rfl

end Heap

namespace Mark

/-- A subscriber was told an event. -/
def isTold : Mark → Bool
  | told _ _ => true
  | _ => false

end Mark

/-- Since a value was thrown, scripts have failed one after another, the innermost first; what the
outermost of them threw is at hand. What happened is counted from the first of two worlds, and since
the value was described from the second one. -/
structure Unwound (v : Value) (message : Text) (start x : World) (launches : List Launch)
    (u : Value) (w : World) : Prop where
  extends_ : x.heap.Extends w.heap
  bus : w.bus = x.bus
  clock : w.clock = x.clock
  causes : w.heap.Traces v (Launch.failureMessages message launches) u
  announced : ∃ ms, w.history = start.history ++ ms ∧ ∀ l inner, l :: inner <:+ launches →
    ms.filterMap (Mark.failureOf l.run) = [Launch.failureMessage message (l :: inner)]
  told : ∃ ms, w.history = x.history ++ ms ∧ ms.filter Mark.isTold =
    (Launch.failureEvents x.clock message launches).flatMap fun event =>
      (audience x event).flatMap (Subscriber.hears event)
  ended : ∀ l ∈ launches, w.scopes.isOpen l.run = false

/-! ## Failures of runs that began -/

/-- Failures are announced only of runs that began. -/
theorem Ledger.Replay.failureOf_eq_nil {l l' : Ledger} {ms : List Mark} (h : l.Replay ms l')
    (sound : l.Sound) {r : RunId} (hr : l'.scopes.tasks.size ≤ r) :
    ms.filterMap (Mark.failureOf r) = [] := by
  induction h with
  | nil => rfl
  | @cons l l' m ms fits rest ih =>
    rw [List.filterMap_cons_none, ih (sound.after fits) hr]
    cases m with
    | failed run script message =>
      have lt := sound.lt (List.mem_of_mem_head? fits)
      have le := Nat.le_trans (size_le_after l _) rest.size_le
      exact if_neg (Nat.ne_of_lt (Nat.lt_of_lt_of_le lt (Nat.le_trans le hr)))
    | _ => rfl

theorem Recorded.failures_begun {w w' : World} (h : Recorded none w w') :
    w.scopes.tasks.size ≤ w'.scopes.tasks.size ∧ ∃ ms, w'.history = w.history ++ ms ∧
      ∀ r, w'.scopes.tasks.size ≤ r → ms.filterMap (Mark.failureOf r) = [] := by
  obtain ⟨-, ms, history, replay⟩ := h
  have replay := replay [] [] nofun
  exact ⟨replay.size_le, ms, history, fun r hr =>
    replay.failureOf_eq_nil ⟨List.nodup_nil, nofun⟩ hr⟩

/-- What subscribers are told of an event. -/
theorem eq_told_of_mem_hears {event : Event} {subscribers : List Subscriber} {m : Mark}
    (mem : m ∈ subscribers.flatMap (Subscriber.hears event)) : ∃ id, m = .told id event := by
  obtain ⟨⟨id, reaction⟩, -, mem⟩ := List.mem_flatMap.mp mem
  cases reaction with
  | observe => exact ⟨id, List.mem_singleton.mp mem⟩
  | _ => cases mem

namespace World

variable (w : World) (id : RunId) (script message : Text)

/-- The marks of a failure announce it once. -/
theorem filterMap_failureOf_failing (r : RunId) :
    (.failed id script message :: (w.failureTold id script message ++ [.ended id script none])
      : List Mark).filterMap (Mark.failureOf r) = if id = r then [message] else [] := by
  have told : (w.failureTold id script message).filterMap (Mark.failureOf r) = [] := by
    refine List.filterMap_eq_nil_iff.mpr fun m mem => ?_
    obtain ⟨_, rfl⟩ := eq_told_of_mem_hears mem
    rfl
  rw [List.filterMap_cons, List.filterMap_append, told]
  by_cases self : id = r <;> simp [Mark.failureOf, self]

/-- Among the marks of a failure subscribers are told of it, and of nothing else. -/
theorem filter_isTold_failing :
    (.failed id script message :: (w.failureTold id script message ++ [.ended id script none])
      : List Mark).filter Mark.isTold = w.failureTold id script message := by
  have told : (w.failureTold id script message).filter Mark.isTold =
      w.failureTold id script message := by
    refine List.filter_eq_self.mpr fun m mem => ?_
    obtain ⟨_, rfl⟩ := eq_told_of_mem_hears mem
    rfl
  rw [List.filter_cons_of_neg (by exact Bool.false_ne_true), List.filter_append, told]
  simp [Mark.isTold]

end World

namespace Launch

variable {host : Host} {l next : Launch}

theorem obeys {R : World → World → Prop} (law : Law host R) (l : Launch) :
    (l.evaluator host).Obeys R := law.evaluator l.depth

/-- Until a script runs another one, no failure is announced of the other one or of later runs. -/
theorem reaching
    (opens : (ExceptT.run (openRun host (l.evaluator host) l.script.name l.run)
      (l.world.beginRun l.script.name)).1 = .ok ⟨⟩)
    (launches : Launches host next (runBody host (l.evaluator host) l.script l.run)
      (l.entered host)) :
    l.run < next.run ∧ ∃ ms, next.world.history = l.world.history ++ ms ∧
      ∀ r, next.run ≤ r → ms.filterMap (Mark.failureOf r) = [] := by
  have began : (l.world.beginRun l.script.name).scopes.tasks.size = l.run + 1 := Scopes.size_start _
  have opening : Recorded none (l.world.beginRun l.script.name)
      (opened host (l.evaluator host) l.script l.world) :=
    recorded_runLaw.openRun_ok (obeys (recorded_law host) l) none (pair_eq opens)
  obtain ⟨hsize₁, ms₁, history₁, none₁⟩ := opening.failures_begun
  obtain ⟨hsize₂, ms₂, history₂, none₂⟩ :=
    Recorded.failures_begun (launches.keeps (recorded_law host))
  have lt : l.run < next.run := by
    have le := Nat.le_trans hsize₁ hsize₂
    rw [began] at le
    exact le
  -- the other run and later ones begin only afterwards, so no failure of theirs can be announced
  refine ⟨lt, .began l.run l.script.name :: (ms₁ ++ .entered (some l.run) :: ms₂), ?_,
    fun r hr => ?_⟩
  · rw [history₂]
    show ((opened host (l.evaluator host) l.script l.world).history ++ [_]) ++ ms₂ = _
    rw [history₁]
    simp [World.beginRun, run]
  · rw [List.filterMap_cons_none rfl, List.filterMap_append, none₁ r (Nat.le_trans hsize₂ hr),
      List.filterMap_cons_none rfl, none₂ r hr]
    rfl

end Launch

namespace Chain

variable {host : Host} {v : Value} {message : Text} {x : World} {l : Launch} {inner : List Launch}

/-- Scripts that are run later have later runs. -/
theorem run_lt (chain : Chain host v message x l inner) : ∀ l' ∈ inner, l.run < l'.run := by
  induction chain with
  | innermost => nofun
  | outer opens launches _ ih =>
    have lt := (Launch.reaching opens launches).1
    intro l' mem
    rcases List.mem_cons.mp mem with rfl | mem
    · exact lt
    · exact Nat.lt_trans lt (ih l' mem)

end Chain

/-! ## Unwinding a chain -/

namespace Unwound

variable {v u : Value} {message : Text} {start x w : World} {launches : List Launch}

/-- Where nothing of the scripts was announced before, what happened may be counted from there. -/
theorem earlier {start' : World} (unwound : Unwound v message start x launches u w)
    {ms : List Mark} (history : start.history = start'.history ++ ms)
    (silent : ∀ l ∈ launches, ms.filterMap (Mark.failureOf l.run) = []) :
    Unwound v message start' x launches u w := by
  obtain ⟨ns, history', announced⟩ := unwound.announced
  refine { unwound with announced := ⟨ms ++ ns, ?_, fun l inner suffix => ?_⟩ }
  · rw [history', history, List.append_assoc]
  · rw [List.filterMap_append, silent l (suffix.subset List.mem_cons_self),
      announced l inner suffix]
    rfl

/-- Where nothing is announced or told, and no object is lost, the failure goes on. -/
theorem later {w' : World} (unwound : Unwound v message start x launches u w)
    (heap : w'.heap = w.heap) (bus : w'.bus = w.bus) (clock : w'.clock = w.clock)
    (scopes : w'.scopes = w.scopes) {ms : List Mark} (history : w'.history = w.history ++ ms)
    (silent : ∀ r, ms.filterMap (Mark.failureOf r) = []) (untold : ms.filter Mark.isTold = []) :
    Unwound v message start x launches u w' := by
  obtain ⟨ns, history₁, announced⟩ := unwound.announced
  obtain ⟨ts, history₂, told⟩ := unwound.told
  refine ⟨?_, bus.trans unwound.bus, clock.trans unwound.clock, ?_, ⟨ns ++ ms, ?_, ?_⟩,
    ⟨ts ++ ms, ?_, ?_⟩, ?_⟩
  · rw [heap]
    exact unwound.extends_
  · rw [heap]
    exact unwound.causes
  · rw [history, history₁, List.append_assoc]
  · intro l inner suffix
    rw [List.filterMap_append, announced l inner suffix, silent, List.append_nil]
  · rw [history, history₂, List.append_assoc]
  · rw [List.filter_append, told, untold, List.append_nil]
  · rw [scopes]
    exact unwound.ended

/-- Until a script fails nothing is announced of its failure. -/
theorem own_silent {host : Host} {l : Launch}
    (throws : ScriptThrows host (l.evaluator host) l.script l.world u)
    (described : Described (l.evaluator host) l.run u
      (scriptLeft host (l.evaluator host) l.script l.world) message w)
    {ms : List Mark} (history : w.history = l.world.history ++ ms) :
    ms.filterMap (Mark.failureOf l.run) = [] := by
  have hev := Launch.obeys (announcesOwn_runLaw.onHost host) l
  obtain ⟨begun, ms₁, history₁, none₁⟩ := scriptLeft_silent hev throws
  obtain ⟨-, ms₂, history₂, none₂⟩ := described.announcesOwn hev
  rw [history₁, List.append_assoc] at history₂
  have none₁' : ms₁.filterMap (Mark.failureOf l.run) = [] := none₁
  rw [← List.append_cancel_left (history₂.symm.trans history), List.filterMap_append, none₁']
  exact none₂ l.run begun nofun

/-- The failure of one more script, of which nothing was announced before. -/
theorem failing {l : Launch} {inner : List Launch} (unwound : Unwound v message l.world x inner u w)
    (silent : ∀ ms, w.history = l.world.history ++ ms → ms.filterMap (Mark.failureOf l.run) = [])
    (later : ∀ l' ∈ inner, l.run < l'.run) (notices : List Notice) :
    Unwound v message l.world x (l :: inner) (.ref w.heap.size) (w.failing l.run l.script.name
      (failure l.script.name u (Launch.failureMessage message inner)) notices) := by
  obtain ⟨ms, history, announced⟩ := unwound.announced
  obtain ⟨ts, history', told⟩ := unwound.told
  let p := failure l.script.name u (Launch.failureMessage message inner)
  have found := w.getElem?_failing l.run l.script.name p notices
  have marks : (w.failing l.run l.script.name p notices).history = w.history ++
      (.failed l.run l.script.name p.message ::
        (w.failureTold l.run l.script.name p.message ++ [.ended l.run l.script.name none])) := rfl
  -- the marks that are left now matter by what they say of failures and of events only
  generalize hnew : (.failed l.run l.script.name p.message :: (w.failureTold l.run l.script.name
    p.message ++ [.ended l.run l.script.name none]) : List Mark) = new at marks
  refine
    { extends_ := fun r o hr => Heap.extends_push _ _ r o (unwound.extends_ r o hr)
      bus := unwound.bus
      clock := unwound.clock
      causes := (unwound.causes.extends_ (Heap.extends_push _ _)).failure found
      announced := ⟨ms ++ new, by rw [marks, history, List.append_assoc], fun l' more suffix => ?_⟩
      told := ⟨ts ++ new, by rw [marks, history', List.append_assoc], ?_⟩
      ended := fun l' mem => ?_ }
  · rw [List.filterMap_append, ← hnew, World.filterMap_failureOf_failing]
    rcases List.suffix_cons_iff.mp suffix with heq | suffix
    · -- the failure is announced by the mark that is left now
      obtain ⟨rfl, rfl⟩ := List.cons.inj heq
      rw [silent ms history, if_pos rfl]
      rfl
    · rw [announced l' more suffix,
        if_neg (Nat.ne_of_lt (later l' (suffix.subset List.mem_cons_self))), List.append_nil]
  · -- subscribers and clock are those of the world in which the value was described
    rw [List.filter_append, told, ← hnew, World.filter_isTold_failing, Launch.failureEvents,
      List.flatMap_append, List.flatMap_singleton, World.failureTold, audience, audience,
      unwound.bus, unwound.clock]
    rfl
  · -- ending a scope opens no other one
    show ((w.scopes.finish l.run).2).isOpen l'.run = false
    rw [Scopes.isOpen, Scopes.open?_finish]
    split
    · rfl
    next ne =>
      rcases List.mem_cons.mp mem with rfl | mem
      · exact absurd rfl ne
      · exact unwound.ended l' mem

/-- A script that is thrown something by the script that it runs fails with an error of its own. -/
theorem fail {host : Host} (hrole : host.role = .engine)
    (hlistener : host.listener = Listener.emitting) {l : Launch} {inner : List Launch}
    (unwound : Unwound v message l.world x inner u w) (tame : x.Tame)
    (throws : ScriptThrows host (l.evaluator host) l.script l.world u)
    (described : Described (l.evaluator host) l.run u
      (scriptLeft host (l.evaluator host) l.script l.world) (Launch.failureMessage message inner) w)
    (later : ∀ l' ∈ inner, l.run < l'.run) :
    ∃ e w', l.outcome host = (.error (.ref e), w') ∧
      Unwound v message l.world x (l :: inner) (.ref e) w' ∧
      w'.heap[e]? = some (problemObject
        (failure l.script.name u (Launch.failureMessage message inner))) := by
  have tame' : w.Tame := tame.of_extends unwound.extends_ unwound.bus
  obtain ⟨notices, failed⟩ := executeScript_failing hrole hlistener
    (Launch.obeys (keepsBus_indifferent.onHost host) l) throws described tame'
  exact ⟨w.heap.size, _, failed,
    unwound.failing (fun _ => own_silent throws described) later notices,
    w.getElem?_failing l.run l.script.name _ notices⟩

end Unwound

namespace Launch

variable {host : Host} {l next : Launch} {inner : List Launch} {v : Value} {message : Text}
  {x w : World} {e : Ref}

/-- A script throws what the script throws that it runs, and leaves what that left. -/
theorem throws_of_launches
    (opens : (ExceptT.run (openRun host (l.evaluator host) l.script.name l.run)
      (l.world.beginRun l.script.name)).1 = .ok ⟨⟩)
    (launches : Launches host next (runBody host (l.evaluator host) l.script l.run)
    (l.entered host))
    (failed : next.outcome host = (.error (.ref e), w)) :
    ScriptThrows host (l.evaluator host) l.script l.world (.ref e) ∧
      ∃ joining, scriptLeft host (l.evaluator host) l.script l.world = World.leave
        { w with joining } (opened host (l.evaluator host) l.script l.world).binding := by
  obtain ⟨joining, thrown⟩ := launches.fails failed
  have carried : Action.outcome host (l.evaluator host) l.script l.world =
    (.error (.ref e), { w with joining }) := thrown
  have left : scriptLeft host (l.evaluator host) l.script l.world = World.leave
      { w with joining } (opened host (l.evaluator host) l.script l.world).binding := by
    rw [scriptLeft, carried]
  exact ⟨⟨opens, congrArg Prod.fst carried⟩, joining, left⟩

/-- Up to the point at which a script fails in its turn nothing but the failure of the script that
it runs happened. -/
theorem unwound_outwards
    (opens : (ExceptT.run (openRun host (l.evaluator host) l.script.name l.run)
      (l.world.beginRun l.script.name)).1 = .ok ⟨⟩)
    (launches : Launches host next (runBody host (l.evaluator host) l.script l.run)
    (l.entered host))
    (later : ∀ l' ∈ inner, next.run < l'.run)
    (unwound : Unwound v message next.world x (next :: inner) (.ref e) w) {joining : List Ref}
    (left : scriptLeft host (l.evaluator host) l.script l.world = World.leave
      { w with joining } (opened host (l.evaluator host) l.script l.world).binding) :
    Unwound v message l.world x (next :: inner) (.ref e)
      (counting l.run (scriptLeft host (l.evaluator host) l.script l.world)) := by
  obtain ⟨-, ms, history, silent⟩ := reaching opens launches
  have earlier : Unwound v message l.world x (next :: inner) (.ref e) w :=
    unwound.earlier history fun l' mem => silent l'.run <| by
      rcases List.mem_cons.mp mem with rfl | mem
      · exact Nat.le_refl _
      · exact Nat.le_of_lt (later l' mem)
  -- the run was left, and its tasks were counted
  have marks : (w.history ++ [.left]) ++ [.counted l.run (w.scopes.size l.run)] =
    w.history ++ [.left, .counted l.run (w.scopes.size l.run)] := List.append_assoc _ [_] [_]
  rw [left]
  exact earlier.later rfl rfl rfl rfl marks (fun _ => rfl) rfl

end Launch

namespace Chain

variable {host : Host} (hrole : host.role = .engine) (hlistener : host.listener = Listener.emitting)
  {v : Value} {message : Text} {x : World}

include hrole hlistener

/-- A chain of scripts fails from the innermost one outwards, by induction on the chain. -/
theorem unwinds {first : Launch} {inner : List Launch} (chain : Chain host v message x first inner)
    (tame : x.Tame) :
    ∃ e w' u, first.outcome host = (.error (.ref e), w') ∧
      Unwound v message first.world x (first :: inner) (.ref e) w' ∧
      w'.heap[e]? = some (problemObject
        (failure first.script.name u (Launch.failureMessage message inner))) := by
  induction chain with
  | @innermost l throws described =>
    have hev := Launch.obeys (announcesOwn_runLaw.onHost host) l
    obtain ⟨-, ms₁, history₁, -⟩ := scriptLeft_silent hev throws
    obtain ⟨-, ms₂, history₂, -⟩ := described.announcesOwn hev
    -- nothing has failed yet
    have unwound : Unwound v message l.world x [] v x :=
      { extends_ := fun _ _ found => found
        bus := rfl
        clock := rfl
        causes := .reached
        announced := ⟨ms₁ ++ ms₂, by rw [history₂, history₁, List.append_assoc],
          fun l' more suffix =>
          absurd (List.suffix_nil.mp suffix) nofun⟩
        told := ⟨[], (List.append_nil _).symm, rfl⟩
        ended := nofun }
    obtain ⟨e, w', failed, unwound, found⟩ :=
      unwound.fail hrole hlistener tame throws described nofun
    exact ⟨e, w', v, failed, unwound, found⟩
  | @outer l next inner opens launches chain ih =>
    obtain ⟨e, w₁, u, failed, unwound, found⟩ := ih
    obtain ⟨throws, joining, left⟩ := Launch.throws_of_launches opens launches failed
    -- the error of the inner script describes itself
    have described : Described (l.evaluator host) l.run (.ref e)
        (scriptLeft host (l.evaluator host) l.script l.world)
        (Launch.failureMessage message (next :: inner))
        (counting l.run (scriptLeft host (l.evaluator host) l.script l.world)) := by
      refine described_of_describes _ _ ?_
      rw [left]
      exact Heap.describes_problem found
    obtain ⟨e', w', failed', unwound', found'⟩ :=
      (Launch.unwound_outwards opens launches chain.run_lt unwound left).fail hrole hlistener tame
        throws described (Chain.outer opens launches chain).run_lt
    exact ⟨e', w', .ref e, failed', unwound', found'⟩

end Chain

end EvalPlan

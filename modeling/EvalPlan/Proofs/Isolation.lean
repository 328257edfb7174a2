import EvalPlan.Proofs.Calls
import EvalPlan.Proofs.Frozen
import EvalPlan.Proofs.Recorded

/-!
# Runs are isolated from each other

A run hands over the tasks that were declared for it while it was carried out, and no others. Tasks
are declared for a run by its own `task` verb, wherever that is called from, and by `registerTask`
where the run is the innermost one that is bound. What is declared for a run after it ended is
dropped, and a run that fails hands nothing over.
-/

namespace EvalPlan

/-- What the marks of a history, left by code around which a run or none was bound, say about
runs. -/
structure Isolated (outer : Option RunId) (h : List Mark) : Prop where
  /-- The tasks that a run hands over are those declared for it since it began, in order. -/
  tasks : ∀ a b c r script script' ts,
    h = a ++ .began r script :: (b ++ .ended r script' (some ts) :: c) →
      ts = b.filterMap (Mark.taskFor r)
  /-- All of them were taken when they were declared. -/
  taken : ∀ a b c r script script' o, h = a ++ .began r script :: (b ++ .ended r script' o :: c) →
    ∀ m ∈ b, (m.taskFor r).isSome = true → m.isTaken = true
  /-- What is declared for a run after it ended is not taken. -/
  dropped : ∀ a b r script o, h = a ++ .ended r script o :: b →
    ∀ m ∈ b, (m.taskFor r).isSome = true → m.isTaken = false
  /-- A run that ends began before. -/
  began : ∀ a b r script o, h = a ++ .ended r script o :: b →
    ∃ a₁ a₂ script', a = a₁ ++ .began r script' :: a₂
  /-- A run ends once. -/
  once : ∀ a b c r script script' o o', h ≠ a ++ .ended r script
    o :: (b ++ .ended r script' o' :: c)
  /-- No two runs have the same name. -/
  fresh : ∀ a b c r script script', h ≠ a ++ .began r script :: (b ++ .began r script' :: c)
  /-- Where no run is named, a task is declared for the innermost run that is bound. -/
  bound : ∀ a b run task name taken, h = a ++ .offered run task name taken :: b →
    (a.foldl Mark.rebind [outer]).head? = some run

namespace Ledger

/-- After a run ended its scope is closed for good. -/
theorem Replay.isOpen_of_ended {l l₁ l₂ : Ledger} {a b : List Mark} {r : RunId} {script : Text}
    {o : Option (List Value)} (ha : l.Replay a l₁) (hl : l.Sound)
    (hended : l₁.Fits (.ended r script o))
    (hb : (l₁.after (.ended r script o)).Replay b l₂) : l₂.scopes.isOpen r = false := by
  have hlt := (ha.sound hl).lt (List.mem_of_mem_head? hended.1)
  have hclosed : (l₁.after (.ended r script o)).scopes.open? r = none := by
    show (l₁.scopes.finish r).2.open? r = none
    rw [Scopes.open?_finish, if_pos rfl]
  rw [Scopes.isOpen, hb.closed (Nat.lt_of_lt_of_le hlt (size_le_after _ _)) hclosed]
  rfl

/-- A history that accounts for itself isolates its runs. -/
theorem Replay.isolated {l l' : Ledger} {outer : Option RunId} {h : List Mark}
    (hreplay : l.Replay h l')
    (hrunning : l.running = []) (hbindings : l.bindings = [outer]) : Isolated outer h := by
  have hsound : l.Sound := ⟨by rw [hrunning]; exact List.nodup_nil, by rw [hrunning]; nofun⟩
  -- at each mark the ledger that the marks before it lead to says what is asked
  refine ⟨?_, ?_, ?_, ?_, ?_, ?_, ?_⟩
  · rintro a b c r script script' ts rfl
    exact hreplay.tasks_eq hsound
  · rintro a b c r script script' o rfl m hm hr
    obtain ⟨b₁, b₂, rfl⟩ := List.append_of_mem hm
    obtain ⟨l₁, l₂, l₃, -, -, h₂, hfits, -, -, hsound₁, hrunning⟩ := hreplay.at_mark_within hsound
    rw [hfits.isTaken hr]
    exact (h₂.sound hsound₁).isOpen r hrunning
  · rintro a b r script o rfl m hm hr
    obtain ⟨b₁, b₂, rfl⟩ := List.append_of_mem hm
    obtain ⟨l₁, h₁, hended, hrest⟩ := hreplay.at_mark
    obtain ⟨l₂, h₂, hfits, -⟩ := hrest.at_mark
    rw [hfits.isTaken hr]
    exact h₁.isOpen_of_ended hsound hended h₂
  · rintro a b r script o rfl
    obtain ⟨l₁, h₁, hended, -⟩ := hreplay.at_mark
    exact h₁.exists_began (List.mem_of_mem_head? hended.1)
      (by rw [hrunning]; exact List.not_mem_nil)
  · rintro a b c r script script' o o' rfl
    obtain ⟨l₁, h₁, hended, hrest⟩ := hreplay.at_mark
    obtain ⟨l₂, h₂, hagain, -⟩ := hrest.at_mark
    -- a run that ends is carried out until then, so that its scope is open
    have hsound₂ := h₂.sound ((h₁.sound hsound).after hended)
    have hopen := hsound₂.isOpen r (List.mem_of_mem_head? hagain.1)
    rw [h₁.isOpen_of_ended hsound hended h₂] at hopen
    cases hopen
  · rintro a b c r script script' rfl
    obtain ⟨l₁, -, hfirst, hrest⟩ := hreplay.at_mark
    obtain ⟨l₂, h₂, hsecond, -⟩ := hrest.at_mark
    -- a run is named by the number of runs before it, which only grows
    have hle := h₂.size_le
    have hsize : (l₁.after (.began r script)).scopes.tasks.size = l₁.scopes.tasks.size + 1 :=
      Scopes.size_start _
    have hr : l₁.scopes.tasks.size = l₂.scopes.tasks.size := hfirst.symm.trans hsecond
    omega
  · rintro a b run task name taken rfl
    obtain ⟨l₁, h₁, hfits, -⟩ := hreplay.at_mark
    rw [← hbindings, ← h₁.bindings_eq]
    exact hfits.1

end Ledger

/-! ## What the engine's actions leave in the history -/

namespace Action

variable {host : Host} {ev : Evaluator} (hev : ev.Obeys (Recorded none)) {w w' : World}

include hev

/-- The `task` verb of a run, called with a task, declares it for that run, whatever run is
bound. -/
theorem taskVerb_declares (host : Host) (id : RunId) (onTask : Value) {task : Value}
    (htask : w.heap.isTask task = true) :
    ∃ ms, (ExceptT.run (taskVerb host ev id onTask task) w).2.history =
      w.history ++ .declared id task (w.heap.heldName? task) (w.scopes.isOpen id) :: ms := by
  have law := Recorded.steady none
  -- what is announced afterwards only adds marks
  have hrest (taken : Bool) : Keeps (Recorded none) (do
      if taken then announceTask host ev id onTask task
      return task) := by
    cases taken with
    | true =>
      exact law.bind (announceTask_keeps law hev observe_recorded host _ _ _) fun _ => law.pure _
    | false => exact law.pure _
  let declared : World :=
    { w with
      scopes := (w.scopes.register id task).2
      history := w.history ++ [.declared id task (w.heap.heldName? task) (w.scopes.isOpen id)] }
  -- the mark says of the scope what registering answers
  have hdeclare : ExceptT.run (declareIn id task) w = (.ok (w.scopes.isOpen id), declared) := by
    show _ = (_, { w with
      scopes := _
      history := w.history ++ [Mark.declared id task (w.heap.heldName? task) (w.scopes.isOpen id)]
        })
    rw [← Scopes.register_fst w.scopes id task]
    rfl
  obtain ⟨ms, hms⟩ := (hrest (w.scopes.isOpen id) declared).grows
  refine ⟨ms, ?_⟩
  unfold taskVerb
  rw [run_bind_ok (run_heap w), if_pos htask, run_bind_ok hdeclare, hms]
  simp [declared]

omit hev in
/-- Called with anything else it declares nothing. -/
theorem taskVerb_refuses (host : Host) (ev : Evaluator) (id : RunId) (onTask : Value) {v : Value}
    (hv : ¬ w.heap.isTask v = true) :
    (ExceptT.run (taskVerb host ev id onTask v) w).2.history = w.history ∧
      (ExceptT.run (taskVerb host ev id onTask v) w).1.toBool = false := by
  unfold taskVerb
  rw [run_bind_ok (run_heap w), if_neg hv]
  exact ⟨rfl, rfl⟩

/-- A value that is registered without naming a run is declared for the run that is bound, unless
the name of the value cannot be logged. -/
theorem registerTask_offers (host : Host) {task : Value} (htask : ¬ task.isNullish = true) :
    (∃ a b name taken, (ExceptT.run (registerTask host ev task) w).2.history =
      w.history ++ (a ++ .offered w.binding task name taken :: b)) ∨
    ∃ v, (ExceptT.run (logRegistering host ev task) w).1 = .error v ∧
      ExceptT.run (registerTask host ev task) w =
        (.error v, (ExceptT.run (logRegistering host ev task) w).2) := by
  have law := Recorded.steady none
  unfold registerTask
  rw [if_neg htask]
  cases hrun : ExceptT.run (logRegistering host ev task) w with
  | mk r w₁ =>
    have hlogged := (logRegistering_keeps law hev host task).of_run hrun
    cases r with
    -- the name of the value could not be logged
    | error v => exact .inr ⟨v, rfl, run_bind_error hrun⟩
    | ok _ =>
      let offered : World :=
        { w₁ with
          scopes := (w₁.scopes.registerCurrent w₁.binding task).2
          history := w₁.history ++ [.offered w₁.binding task (w₁.heap.heldName? task)
            (w₁.scopes.registerCurrent w₁.binding task).1] }
      have hoffer :
        ExceptT.run (offer task) w₁ = (.ok (w₁.scopes.current? w₁.binding), offered) := rfl
      obtain ⟨a, ha⟩ := hlogged.grows
      obtain ⟨b, hb⟩ := (announceOffered_keeps law hev observe_recorded host task
        (w₁.scopes.current? w₁.binding) offered).grows
      refine .inl ⟨a, b, w₁.heap.heldName? task, (w₁.scopes.registerCurrent w₁.binding task).1, ?_⟩
      rw [run_bind_ok hrun, run_bind_ok hoffer, hb, ← hlogged.1]
      simp [offered, ha]

omit hev in
/-- Nothing is declared where a value is missing. -/
theorem registerTask_refuses (host : Host) (ev : Evaluator) {task : Value}
    (htask : task.isNullish = true) :
    (ExceptT.run (registerTask host ev task) w).2.history = w.history ∧
      (ExceptT.run (registerTask host ev task) w).1.toBool = false := by
  unfold registerTask
  rw [if_pos htask]
  exact ⟨rfl, rfl⟩

/-- The tasks of an environment are those of the run that its script was carried out in. -/
theorem executeScript_ends {script : CompiledScript} {e : Environment}
    (h : ExceptT.run (executeScript host ev script) w = (.ok e, w')) :
    ∃ a b c, w'.history = w.history ++ .began w.scopes.tasks.size script.name ::
      (a ++ .entered (some w.scopes.tasks.size) :: (b ++ .left ::
        .ended w.scopes.tasks.size script.name (some e.tasks) :: c)) := by
  have law := Recorded.steady none
  obtain ⟨w₂, w₃, hopen, hbody, htasks, hcompleted⟩ := execute_ok h
  obtain ⟨a, ha⟩ := (recorded_runLaw.openRun_ok hev none hopen).grows
  obtain ⟨b, hb⟩ := ((runBody_keeps law hev script _).of_run hbody).grows
  obtain ⟨c, hc⟩ :=
    ((announceCompleted_keeps law hev observe_recorded host _ _ _).of_run hcompleted).grows
  -- the binding is left before the scope is ended
  have hended : ((w₃.leave w₂.binding).endRun w.scopes.tasks.size script.name true).history =
      w₃.history ++ [.left, .ended w.scopes.tasks.size script.name (some e.tasks)] := by
    rw [htasks]
    simp [World.endRun, World.leave]
  refine ⟨a, b, c, ?_⟩
  rw [hc, hended, hb, World.enter, ha, World.beginRun]
  simp

/-- A script that throws hands nothing over. What is thrown otherwise is thrown where its end is
announced. -/
theorem executeScript_fails {script : CompiledScript} {v : Value}
    (h : ExceptT.run (executeScript host ev script) w = (.error v, w')) :
    (∃ ms last, w'.history = w.history ++ .began w.scopes.tasks.size script.name :: (ms ++ [last]) ∧
      (last = .abandoned w.scopes.tasks.size ∨ last = .ended w.scopes.tasks.size script.name none))
        ∨
    ∃ w₁ e, ExceptT.run (announceCompleted host ev script.name w.scopes.tasks.size e) w₁ =
      (.error v, w') := by
  have law := Recorded.steady none
  have hbody : Keeps (Recorded none) (runBody host ev script w.scopes.tasks.size) :=
    runBody_keeps law hev script _
  rw [executeScript, run_execute] at h
  -- the run was not opened, or it threw, or its end could not be announced
  split at h
  next hopen =>
    cases h
    obtain ⟨w₁, hopened, rfl⟩ := recorded_runLaw.openRun_error hev none hopen
    obtain ⟨ms, hms⟩ := hopened.grows
    refine .inl ⟨ms, _, ?_, .inl rfl⟩
    show w₁.history ++ _ = _
    rw [hms, World.beginRun]
    simp
  next w₂ hopen =>
    obtain ⟨ms, hms⟩ := (recorded_runLaw.openRun_ok hev none hopen).grows
    split at h
    next hcarry =>
      cases h
      obtain ⟨ns, hns⟩ :=
        ((recorded_runLaw.carryOut hev host script.name w.scopes.tasks.size hbody).of_run
        hcarry).grows
      refine .inl ⟨ms ++ ns, _, ?_, .inr rfl⟩
      show _ ++ _ = _
      rw [hns, hms, World.beginRun]
      simp
    next =>
      split at h
      next hcompleted =>
        cases h
        exact .inr ⟨_, _, hcompleted⟩
      next => cases h

end Action

/-! ## The theorem -/

/-- What a script sees of an environment is there under a reference. -/
structure Environment.SeenAt (e : Environment) (h : Heap) (environment tasks : Ref) : Prop where
  object : h[environment]? = some (e.object (.ref tasks))
  list : h[tasks]? = some e.listObject
  /-- The tasks are the property of the object called so. -/
  value : h.value? (.ref environment) "tasks" = some (.ref tasks)
  /-- They are the items of the list. -/
  items : h.list? (.ref tasks) = some e.tasks

namespace Environment

theorem seenAt {e : Environment} {h : Heap} {environment tasks : Ref}
    (hobject : h[environment]? = some (e.object (.ref tasks)))
    (hlist : h[tasks]? = some e.listObject) :
    e.SeenAt h environment tasks := by
  refine ⟨hobject, hlist, ?_, Heap.list?_ofItems hlist rfl⟩
  have hown : (e.object (.ref tasks)).own? "tasks" = some (.ordinary (.ref tasks)) := rfl
  simp only [Heap.value?, Heap.find?]
  rw [Heap.slot?_own hobject hown]
  rfl

/-- An environment stays as it was seen. -/
theorem SeenAt.mono {e : Environment} {h h' : Heap} {environment tasks : Ref}
    (hseen : e.SeenAt h environment tasks) (hkeeps : KeepsFrozen h h') :
      e.SeenAt h' environment tasks :=
  seenAt (hkeeps _ _ hseen.object rfl) (hkeeps _ _ hseen.list rfl)

end Environment

/-- What isolates runs from each other, in the engine of a host whose scripts an evaluator carries
out. -/
structure RunsApart (host : Host) (ev : Evaluator) : Prop where
  /-- Whatever is asked of the engine, its history grows by marks that isolate runs. -/
  session : ∀ w rs, ∃ ms, (Request.session host ev w rs).history = w.history ++ ms ∧
    Isolated w.binding ms
  /-- A script that ends well was carried out in a run of its own, and the tasks of its environment
  are those that were declared for this run before it ended. -/
  environment : ∀ w script e w', ExceptT.run (Action.executeScript host ev script) w = (.ok e, w') →
    ∃ a b c, w'.history = w.history ++ .began w.scopes.tasks.size script.name ::
        (a ++ .entered (some w.scopes.tasks.size) :: (b ++ .left ::
          .ended w.scopes.tasks.size script.name (some e.tasks) :: c)) ∧
      e.tasks = (a ++ .entered (some w.scopes.tasks.size) :: (b ++ [.left])).filterMap
        (Mark.taskFor w.scopes.tasks.size)
  /-- A script that fails hands no tasks over, unless it failed when its end was announced. -/
  failure : ∀ w script v w', ExceptT.run (Action.executeScript host ev script) w = (.error v, w') →
    (∃ ms last, w'.history = w.history ++ .began w.scopes.tasks.size script.name :: (ms ++ [last]) ∧
      (last = .abandoned w.scopes.tasks.size ∨ last = .ended w.scopes.tasks.size script.name none))
        ∨
    ∃ w₁ e,
      ExceptT.run (Action.announceCompleted host ev script.name w.scopes.tasks.size e) w₁ =
        (.error v, w')
  /-- A script that another one runs gives it an environment with the tasks of a run that ended
  well. -/
  nested : ∀ w name program v w', ExceptT.run (ev.run name program) w = (.ok v, w') →
    ∃ (e : Environment) (environment tasks : Ref), v = .ref environment ∧
      e.SeenAt w'.heap environment tasks ∧
      ∃ a b r script, w'.history = w.history ++ (a ++ .ended r script (some e.tasks) :: b)
  /-- What a script sees of an environment stays as it is. -/
  stays : ∀ w rs (e : Environment) (environment tasks : Ref), e.SeenAt w.heap environment tasks →
    e.SeenAt (Request.session host ev w rs).heap environment tasks
  /-- So it does within a script. -/
  frozen : ev.Obeys fun w w' => KeepsFrozen w.heap w'.heap
  /-- The global object of a run holds the `task` verb of this run. -/
  given : ∀ w realm id g w', ExceptT.run (Action.globalObject host ev realm id) w = (.ok g, w') →
    ∃ task onTask, w'.heap.value? g "task" = some task ∧
      w'.heap.callable? task = some (.verb .task id onTask)
  /-- To call this verb, wherever that happens, is to offer the first argument to the run that the
  verb was made for. -/
  called : ∀ (w : World) (callee this : Value) (arguments : List Value) (id : RunId) (onTask : Value),
    w.heap.callable? callee = some (.verb .task id onTask) →
    ExceptT.run ((Evaluator.layer host ev).call callee this arguments) w =
      ExceptT.run (Action.taskVerb host ev id onTask (Action.argument arguments 0)) w
  /-- The `task` verb of a run declares a task for that run, and nothing where it is given no
  task. -/
  verb : ∀ (w : World) (id : RunId) (onTask v : Value),
    if w.heap.isTask v then
      ∃ ms, (ExceptT.run (Action.taskVerb host ev id onTask v) w).2.history =
        w.history ++ .declared id v (w.heap.heldName? v) (w.scopes.isOpen id) :: ms
    else
      (ExceptT.run (Action.taskVerb host ev id onTask v) w).2.history = w.history ∧
        (ExceptT.run (Action.taskVerb host ev id onTask v) w).1.toBool = false
  /-- To call `registerTask` on the engine is to register the first argument. -/
  asked : host.role = .engine → ∀ (w : World) (callee this : Value) (arguments : List Value),
    w.heap.callable? callee = some (.operation .registerTask) →
    Action.reachesEngine w.heap this = true →
    ExceptT.run ((Evaluator.layer host ev).call callee this arguments) w = ExceptT.run (do
      Action.registerTask host ev (Action.argument arguments 0)
      return .undefined) w
  /-- Called on anything else it throws an error and declares nothing. -/
  abroad : host.role = .engine → ∀ (w : World) (callee this : Value) (arguments : List Value),
    w.heap.callable? callee = some (.operation .registerTask) →
    Action.reachesEngine w.heap this = false →
    ∃ error, ExceptT.run ((Evaluator.layer host ev).call callee this arguments) w =
      (.error (.ref w.heap.size), { w with heap := w.heap.push error })
  /-- A value that is registered is declared for the run that is bound, unless its name cannot be
  logged, and nothing where a value is missing. -/
  registered : ∀ (w : World) (v : Value),
    if v.isNullish then
      (ExceptT.run (Action.registerTask host ev v) w).2.history = w.history ∧
        (ExceptT.run (Action.registerTask host ev v) w).1.toBool = false
    else
      (∃ a b name taken, (ExceptT.run (Action.registerTask host ev v) w).2.history =
        w.history ++ (a ++ .offered w.binding v name taken :: b)) ∨
      ∃ thrown, (ExceptT.run (Action.logRegistering host ev v) w).1 = .error thrown ∧
        ExceptT.run (Action.registerTask host ev v) w =
          (.error thrown, (ExceptT.run (Action.logRegistering host ev v) w).2)
  /-- A continuation is queued with the run that is bound. -/
  queued : ∀ w scene body, (ExceptT.run (Evaluator.postpone scene body) w).2.queue =
    w.queue ++ [⟨scene, body, w.binding⟩]
  /-- It executes with this run bound. -/
  continued : ∀ w job, ∃ ms, (ExceptT.run (Action.runJob ev job) w).2.history =
    w.history ++ .entered job.binding :: (ms ++ [.left])

namespace RunsApart

open EvalPlan.Action

variable {host : Host}

/-- What an engine leaves in its history isolates runs. -/
theorem isolated_of_recorded {w w' : World} (h : Recorded none w w') :
    ∃ ms, w'.history = w.history ++ ms ∧ Isolated w.binding ms := by
  obtain ⟨hbinding, ms, hms, hreplay⟩ := h
  exact ⟨ms, hms, (hreplay [] [] nofun).isolated rfl rfl⟩

theorem executeScript_environment {ev : Evaluator} (hev : ev.Obeys (Recorded none)) {w w' : World}
    {script : CompiledScript} {e : Environment}
    (h : ExceptT.run (executeScript host ev script) w = (.ok e, w')) :
    ∃ a b c, w'.history = w.history ++ .began w.scopes.tasks.size script.name ::
        (a ++ .entered (some w.scopes.tasks.size) :: (b ++ .left ::
          .ended w.scopes.tasks.size script.name (some e.tasks) :: c)) ∧
      e.tasks = (a ++ .entered (some w.scopes.tasks.size) :: (b ++ [.left])).filterMap
        (Mark.taskFor w.scopes.tasks.size) := by
  obtain ⟨a, b, c, hmarks⟩ := executeScript_ends hev h
  obtain ⟨ms, hms, hisolated⟩ :=
    isolated_of_recorded ((executeScript_keeps (recorded_law host) hev script).of_run h)
  -- the environment holds what the history hands over
  refine ⟨a, b, c, hmarks, hisolated.tasks [] _ c w.scopes.tasks.size script.name script.name _ ?_⟩
  rw [hms] at hmarks
  rw [List.append_cancel_left hmarks]
  simp

theorem run_seen {ev : Evaluator} (hev : ev.Obeys (Recorded none)) {w w' : World} {name : Text}
    {program : Script.Program} {v : Value}
    (h : ExceptT.run ((Evaluator.layer host ev).run name program) w = (.ok v, w')) :
    ∃ e environment tasks, v = .ref environment ∧ Environment.SeenAt e w'.heap environment tasks ∧
      ∃ a b r script, w'.history = w.history ++ (a ++ .ended r script (some e.tasks) :: b) := by
  have law := Recorded.steady none
  obtain ⟨e, w₁, hprogram, hvalue⟩ := bind_eq_ok h
  obtain ⟨w₂, hrun, hhistory, hlist, hobject⟩ := run_environmentValue w₁ e
  rw [hrun] at hvalue
  cases hvalue
  refine ⟨e, w₁.heap.size + 1, w₁.heap.size, rfl, Environment.seenAt hobject hlist, ?_⟩
  -- what comes before the run itself only logs
  obtain ⟨_, w₃, hlog, hprogram⟩ := bind_eq_ok hprogram
  obtain ⟨script, w₄, hcompile, hscript⟩ := bind_eq_ok hprogram
  obtain ⟨a, b, c, hmarks⟩ := executeScript_ends hev hscript
  obtain ⟨ms, hms⟩ := ((log_keeps law hev _ _ _ _).of_run hlog).grows
  obtain ⟨ns, hns⟩ := ((compile_keeps law hev _ _).of_run hcompile).grows
  refine ⟨ms ++ ns ++ .began w₄.scopes.tasks.size script.name ::
    (a ++ .entered (some w₄.scopes.tasks.size) :: (b ++ [.left])), c, w₄.scopes.tasks.size,
      script.name, ?_⟩
  rw [hhistory, hmarks, hns, hms]
  simp

theorem runJob_enters {ev : Evaluator} (hev : ev.Obeys (Recorded none)) (w : World) (job : Job) :
    ∃ ms, (ExceptT.run (runJob ev job) w).2.history = w.history ++ .entered
      job.binding :: (ms ++ [.left]) := by
  have law := Recorded.steady none
  have hblock : Keeps (Recorded none)
      (tryCatch (Evaluator.innerBlock ev job.scene job.body) fun _ => (pure () : Action Unit)) :=
    law.tryCatch (Evaluator.innerBlock_keeps law hev _ _) fun _ => law.pure _
  obtain ⟨ms, hms⟩ := (hblock (w.enter job.binding)).grows
  refine ⟨ms, ?_⟩
  rw [runJob, run_withBinding, World.leave, hms]
  simp [World.enter]

end RunsApart

/-- Runs are isolated from each other: a run that ends well hands over the tasks that were declared
for it, in order, and those of no other run, and what it handed over stays as it is. -/
theorem evaluator_runsApart (host : Host) (n : Nat) : RunsApart host (evaluator host n) where
  session w rs :=
    RunsApart.isolated_of_recorded
      (Action.Law.session (Action.recorded_law host) ((Action.recorded_law host).evaluator n) w rs)
  environment _ _ _ _ h := RunsApart.executeScript_environment
    ((Action.recorded_law host).evaluator n) h
  failure _ _ _ _ h := Action.executeScript_fails ((Action.recorded_law host).evaluator n) h
  -- without fuel nothing is called, and no run is begun
  nested w name program v w' h := by
    cases n with
    | zero => cases h
    | succ n => exact RunsApart.run_seen ((Action.recorded_law host).evaluator n) h
  -- a frozen object is left as it is by every change of the heap
  stays w rs e environment tasks h :=
    h.mono (Action.Law.session (keepsFrozen_law.indifferent.onHost host)
      ((keepsFrozen_law.indifferent.onHost host).evaluator n) w rs)
  frozen := (keepsFrozen_law.indifferent.onHost host).evaluator n
  given _ _ _ _ _ h := Action.globalObject_task h
  called _ _ _ _ _ _ hcallee := Action.run_call_verb _ hcallee
  verb w id onTask v := by
    split
    next hv =>
      exact Action.taskVerb_declares ((Action.recorded_law host).evaluator n) host id onTask hv
    next hv => exact Action.taskVerb_refuses host _ id onTask hv
  asked hrole w callee this arguments hcallee hthis := by
    rw [Action.run_call_atHome _ hcallee hthis, Action.operate, hrole]
  abroad hrole w callee this arguments hcallee hthis :=
    Action.run_call_abroad _ hrole hcallee hthis
  registered w v := by
    split
    next hv => exact Action.registerTask_refuses host _ hv
    next hv => exact Action.registerTask_offers ((Action.recorded_law host).evaluator n) host hv
  queued _ _ _ := rfl
  continued := RunsApart.runJob_enters ((Action.recorded_law host).evaluator n)

end EvalPlan

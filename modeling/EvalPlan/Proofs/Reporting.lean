import EvalPlan.Proofs.Telling

/-!
# Everything an engine does is reported

`Reports` relates two worlds where the marks that one has beyond the other are faithful to what a
subscriber was told. `reports_law` states it for every action by which scripts are carried out:
tasks and runs are announced by the engine itself, each right where it leaves its mark, and
everything else leaves marks that need not be told.
-/

namespace EvalPlan

/-- Nothing is taken out of a history. -/
def Grows (w w' : World) : Prop := ∃ ms, w'.history = w.history ++ ms

/-- A history that is the same has lost nothing. -/
theorem Grows.of_eq {w w' : World} (h : w'.history = w.history) :
    Grows w w' := ⟨[], by rw [h, List.append_nil]⟩

/-- Nothing that is asked of the world but its history matters to what it has lost. -/
theorem grows_indifferent : Action.Indifferent Grows where
  refl _ := .of_eq rfl
  trans := by
    rintro a b c ⟨ms, hms⟩ ⟨ns, hns⟩
    exact ⟨ms ++ ns, by rw [hns, hms, List.append_assoc]⟩
  onAlloc _ _ _ := .of_eq rfl
  onChange _ v _ _ := ⟨Action.alterations v, rfl⟩
  onFrames _ _ := .of_eq rfl
  onQueue _ _ := .of_eq rfl
  onJoining _ _ := .of_eq rfl
  onNote _ _ _ := .of_eq rfl
  onTypes _ _ := .of_eq rfl
  onPassing _ _ _ _ ms _ := ⟨ms, rfl⟩
  onImports _ _ _ := .of_eq rfl
  onEnroll _ _ _ := ⟨_, rfl⟩
  onAttach _ _ _ := ⟨_, rfl⟩

/-- Where a subscriber hears of everything and nothing is disturbed, it still does afterwards, and
was told what happened; within a run, the tasks of this run may have been counted before. -/
def Reports (k : Nat) (run : Option RunId) (w w' : World) : Prop :=
  ∃ ms, w'.history = w.history ++ ms ∧ (w.Heard k → Undisturbed ms → w'.Heard k ∧ Faithful k run ms)

namespace Reports

variable {k : Nat} {run : Option RunId} {w w' : World}

/-- What is reported is added. -/
theorem grows (h : Reports k run w w') : Grows w w' := by
  obtain ⟨ms, hms, -⟩ := h
  exact ⟨ms, hms⟩

/-- What is reported outside of runs is reported within each. -/
theorem within (h : Reports k none w w') : Reports k run w w' := by
  obtain ⟨ms, hms, h⟩ := h
  exact ⟨ms, hms, fun hheard hquiet => ⟨(h hheard hquiet).1, (h hheard hquiet).2.within⟩⟩

/-- A step that leaves marks which need not be told. -/
theorem of_silent (ms : List Mark) (hhistory : w'.history = w.history ++ ms)
    (hheard : w.Heard k → Undisturbed ms → w'.Heard k)
    (hsilent : ∀ m ∈ ms, m.isDisturbance = false → m.IsSilent k) : Reports k run w w' :=
  ⟨ms, hhistory, fun h hquiet =>
    ⟨hheard h hquiet, .of_silent fun m hm => hsilent m hm (hquiet m hm)⟩⟩

/-- A step that leaves one such mark and changes neither an object nor a subscription. -/
theorem of_mark {m : Mark} (hhistory : w'.history = w.history ++ [m]) (hheap : w'.heap = w.heap)
    (hbus : w'.bus = w.bus) (hsilent : m.IsSilent k) : Reports k run w w' :=
  of_silent [m] hhistory (fun h _ => h.of_eq hheap hbus) fun _ hm _ =>
    List.mem_singleton.mp hm ▸ hsilent

/-- Where nothing happened, nothing had to be reported. -/
theorem of_eq (hhistory : w'.history = w.history) (hheap : w'.heap = w.heap)
    (hbus : w'.bus = w.bus) :
    Reports k run w w' :=
  of_silent [] (by rw [hhistory, List.append_nil]) (fun h _ => h.of_eq hheap hbus) nofun

/-- A step that leaves a disturbance. -/
theorem of_disturbed (ms : List Mark) {m : Mark} (hhistory : w'.history = w.history ++ ms)
    (hm : m ∈ ms)
    (hdisturbance : m.isDisturbance = true) : Reports k run w w' := by
  refine ⟨ms, hhistory, fun _ hquiet => ?_⟩
  rw [hquiet m hm] at hdisturbance
  cases hdisturbance

/-- What happens after the tasks of a run were counted. -/
theorem of_counted (id : RunId) (d : Nat)
    (h : Reports k (some id) { w with history := w.history ++ [.counted id d] } w') :
      Reports k none w w' := by
  obtain ⟨ms, hms, h⟩ := h
  refine ⟨.counted id d :: ms, by rw [hms]; simp, fun hheard hquiet => ?_⟩
  obtain ⟨hheard', hfaithful⟩ := h (hheard.of_eq rfl rfl) fun m hm =>
    hquiet m (List.mem_cons_of_mem _ hm)
  exact ⟨hheard', hfaithful.of_counted⟩

/-- A run that ends since its script threw something that has no description. -/
theorem of_undescribed (id : RunId) (script : Text) (w : World) : Reports k run w
    (World.endRun { w with history := w.history ++ [.undescribed id] } id script false) :=
  of_disturbed [.undescribed id, .ended id script none] (m := .undescribed id)
    (List.append_assoc _ [_] [_]) List.mem_cons_self rfl

/-- Where the subscriber does not hear of everything, it is enough that nothing is taken back. -/
theorem of_heard (hgrows : Grows w w') (h : w.Heard k → Reports k run w w') :
    Reports k run w w' := by
  by_cases hheard : w.Heard k
  · exact h hheard
  · obtain ⟨ms, hms⟩ := hgrows
    exact ⟨ms, hms, fun h _ => absurd h hheard⟩

/-- A step that leaves faithful marks and changes neither an object nor a subscription. -/
theorem of_faithful (ms : List Mark) (hhistory : w'.history = w.history ++ ms)
    (hheap : w'.heap = w.heap) (hbus : w'.bus = w.bus)
    (hfaithful : Faithful k run ms) : Reports k run w w' :=
  ⟨ms, hhistory, fun h _ => ⟨h.of_eq hheap hbus, hfaithful⟩⟩

/-- A step that leaves the mark of a moment, which is told right away. -/
theorem of_telling {x : World} {m : Mark} {t : RunMoment} {event : Event} (hheard : w.Heard k)
    (hmoment : m.moment? = some t) (ht : t.ToldBy event)
    (hwell : ∀ r script, m ≠ .ended r script none)
    (hhistory : x.history = w.history ++ [m]) (hheap : x.heap = w.heap) (hbus : x.bus = w.bus) :
    Reports k run w (x.telling event (Action.audience x event)) := by
  have haudience : Action.audience x event = Action.audience w event := by
    unfold Action.audience
    rw [hbus]
  refine of_faithful (m :: (Action.audience w event).flatMap (Subscriber.hears event)) ?_ hheap hbus
    (.of_telling hheard.listens hmoment ht hwell)
  show x.history ++ _ = _
  rw [hhistory, haudience, List.append_assoc]
  rfl

/-- To change what the engine reaches its parts by is a disturbance. -/
theorem isDisturbance_of_mem_alterations {v : Value} {m : Mark} (hm : m ∈ Action.alterations v) :
    m.isDisturbance = true := by
  rcases Action.alterations_eq v with h | ⟨r, h⟩
  · rw [h] at hm
    cases hm
  · rw [h] at hm
    rw [List.mem_singleton.mp hm]
    rfl

/-- Reports of one action after another are reports of both. -/
theorem stepwise (k : Nat) (run : Option RunId) : Action.Stepwise (Reports k run) where
  refl _ := of_eq rfl rfl rfl
  trans := by
    rintro a b c ⟨ms, hms, h₁⟩ ⟨ns, hns, h₂⟩
    refine ⟨ms ++ ns, by rw [hns, hms, List.append_assoc], fun hheard hquiet => ?_⟩
    obtain ⟨hquiet₁, hquiet₂⟩ := Undisturbed.append.mp hquiet
    obtain ⟨hheard₁, hfaithful₁⟩ := h₁ hheard hquiet₁
    obtain ⟨hheard₂, hfaithful₂⟩ := h₂ hheard₁ hquiet₂
    exact ⟨hheard₂, hfaithful₁.append hfaithful₂⟩

/-- Steps that leave the bus and the objects of the engine alone need no report. -/
theorem steady (k : Nat) (run : Option RunId) : Action.Steady (Reports k run) where
  toStepwise := stepwise k run
  onAlloc w o ho := of_silent [] (List.append_nil _).symm
    (fun h _ => { h with intact := h.intact.push o, named := h.named.push ho }) nofun
  onChange w v f hf := by
    refine of_silent (Action.alterations v) rfl (fun h hquiet => ?_) fun m hm hnone => ?_
    · -- nothing was disturbed, so that no fixture changed
      have hnone : Action.alterations v = [] := List.eq_nil_iff_forall_not_mem.mpr fun m hm => by
        cases (isDisturbance_of_mem_alterations hm).symm.trans (hquiet m hm)
      exact { h with intact := h.intact.update hnone f, named := h.named.update v hf.name }
    · rw [isDisturbance_of_mem_alterations hm] at hnone
      cases hnone
  onFrames _ _ := of_eq rfl rfl rfl
  onQueue _ _ := of_eq rfl rfl rfl
  onJoining _ _ := of_eq rfl rfl rfl
  onNote _ _ _ := of_eq rfl rfl rfl

end Reports

namespace Action

/-! ## What is announced -/

section announce

variable {host : Host} (hrole : host.role = .engine) (hlistener : host.listener = Listener.emitting)
  (ev : Evaluator) {w : World} (hquiet : w.Quiet)

include hrole hlistener hquiet

/-- The start of a run is told, and nobody disturbs. -/
theorem run_announceStarted (script : Text) (id : RunId) :
    ∃ event, (RunMoment.started id script).ToldBy event ∧
    ExceptT.run (announceStarted host ev script id) w =
      (.ok ⟨⟩, w.telling event (audience w event)) := by
  obtain ⟨event, htype, hrun, hdata, hemit⟩ :=
    run_emit ev hquiet hrole "run:started" [("script", Value.text script)] (some id)
  refine ⟨event, ⟨htype, hrun, hdata⟩, ?_⟩
  unfold announceStarted
  rw [hlistener]
  exact hemit

/-- A task is announced with the name that it holds. -/
theorem run_announceTask (id : RunId) (onTask : Value) {task : Value}
    (htask : task.isNullish = false) :
    ∃ event, (RunMoment.registered id task (w.heap.heldName? task)).ToldBy event ∧
      ExceptT.run (announceTask host ev id onTask task) w =
        (.ok ⟨⟩, w.telling event (audience w event)) := by
  obtain ⟨name, hname, hnamed⟩ := run_nameOf ev hquiet.named htask
  obtain ⟨event, htype, hrun, hdata, hemit⟩ := run_emit ev hquiet hrole
    "task:registered" [("task", name)] (some id)
  refine ⟨event, ⟨htype, hrun, w.heap, name, hname, hname, hdata⟩, ?_⟩
  unfold announceTask
  rw [hlistener]
  exact (run_bind_ok hnamed).trans hemit

/-- The end of a run is announced with the number of its tasks. -/
theorem run_announceCompleted (script : Text) (id : RunId) (e : Environment) :
    ∃ event, (RunMoment.completed id script e.tasks).ToldBy event ∧
      ExceptT.run (announceCompleted host ev script id e) w =
        (.ok ⟨⟩, w.telling event (audience w event)) := by
  obtain ⟨event, htype, hrun, hdata, hemit⟩ := run_emit ev hquiet hrole "run:completed"
    [("script", Value.text script), ("taskCount", Value.ofNat e.tasks.length)] (some id)
  refine ⟨event, ⟨htype, hrun, hdata⟩, ?_⟩
  unfold announceCompleted
  rw [hlistener]
  exact hemit

/-- The failure of a run is announced with the message of the error, which is made afterwards. -/
theorem run_announceFailed (script : Text) (id : RunId) (problem : Problem) :
    ∃ event, (RunMoment.failed id script).ToldBy event ∧
      ExceptT.run (announceFailed host ev script id problem) w =
        (.ok (.ref w.heap.size), { w.telling event (audience w event) with
          heap := w.heap.push (problemObject problem) }) := by
  obtain ⟨event, htype, hrun, hdata, hemit⟩ := run_emit ev hquiet hrole "run:failed"
    [("script", Value.text script), ("error", Value.text problem.message)] (some id)
  refine ⟨event, ⟨htype, hrun, problem.message, hdata⟩, ?_⟩
  unfold announceFailed
  rw [hlistener]
  exact run_bind_ok hemit

end announce

/-! ## Tasks -/

section tasks

variable {k : Nat} {host : Host} (hrole : host.role = .engine)
  (hlistener : host.listener = Listener.emitting)
  {ev : Evaluator} (hev : ev.Obeys (Reports k none))

include hrole hev

omit hev in
/-- A task that is offered is announced at once if a run took it. -/
theorem offering_heard (ev : Evaluator) {w : World} (hheard : w.Heard k)
    {task : Value} (htask : task.isNullish = false) :
    Reports k none w (ExceptT.run (offer task >>= announceOffered host ev task) w).2 := by
  let offered : World :=
    { w with
      scopes := (w.scopes.registerCurrent w.binding task).2
      history := w.history ++ [.offered w.binding task (w.heap.heldName? task)
        (w.scopes.registerCurrent w.binding task).1] }
  have hquiet : offered.Quiet := hheard.toQuiet.of_eq rfl rfl
  have hoffer : ExceptT.run (offer task) w = (.ok (w.scopes.current? w.binding), offered) := rfl
  obtain ⟨name, hname, hnamed⟩ := run_nameOf ev hquiet.named htask
  rw [run_bind_ok hoffer]
  cases hcurrent : w.scopes.current? w.binding with
  | none =>
    -- no run took the task, and nobody is told
    have htaken : (w.scopes.registerCurrent w.binding task).1 =
      false := by rw [Scopes.registerCurrent, hcurrent]
    have hlog := run_log ev hquiet.intact host.loggers.engine .debug "No active run, task ignored"
      [("task", name)]
    have hrun :
      ExceptT.run (announceOffered host ev task none) offered = _ := (run_bind_ok hnamed).trans hlog
    rw [hrun]
    refine .of_mark rfl rfl rfl ⟨?_, rfl, rfl⟩
    rw [htaken]
    cases w.binding <;> rfl
  | some id =>
    -- the run that is bound took it, and this is told
    obtain ⟨hbinding, hopen⟩ := w.scopes.current?_eq_some.mp hcurrent
    have htaken : (w.scopes.registerCurrent w.binding task).1 = true := by
      rw [hbinding, Scopes.registerCurrent_some, Scopes.register_fst, hopen]
    obtain ⟨event, htype, hrun, hdata, hemit⟩ :=
      run_emit ev hquiet hrole "task:registered" [("task", name)] (some id)
    have hrun' : ExceptT.run (announceOffered host ev task (some id)) offered = _ :=
      (run_bind_ok hnamed).trans hemit
    rw [hrun']
    have hmoment : Mark.moment? (.offered w.binding task (w.heap.heldName? task)
        (w.scopes.registerCurrent w.binding task).1) = some
          (.registered id task (w.heap.heldName? task)) := by
      rw [hbinding] at htaken ⊢
      rw [htaken]
      rfl
    exact .of_telling hheard hmoment ⟨htype, hrun, w.heap, name, hname, hname, hdata⟩
      nofun rfl rfl rfl

/-- A task that is offered is told of, whoever takes it. -/
theorem offering_reports {task : Value} (htask : task.isNullish = false) :
    Keeps (Reports k none) (offer task >>= announceOffered host ev task) := by
  have hgrows := grows_indifferent.onHost host
  have hgrown : Keeps Grows (offer task >>= announceOffered host ev task) :=
    hgrows.bind (fun _ => ⟨_, rfl⟩) fun taken =>
      announceOffered_keeps hgrows.toSteady (hev.mono Reports.grows) grows_indifferent.observe
        host task taken
  exact fun w => .of_heard (hgrown w) fun hheard => offering_heard hrole ev hheard htask

/-- So is a task that is registered. -/
theorem registerTask_reports (task : Value) :
    Keeps (Reports k none) (registerTask host ev task) := by
  have law := Reports.steady k none
  unfold registerTask
  split
  · exact law.refuse _
  next htask =>
    exact law.bind (logRegistering_keeps law hev host task) fun _ =>
      offering_reports hrole hev (Bool.not_eq_true _ ▸ htask)

include hlistener

omit hev in
/-- A task that is declared is announced at once if its run took it. -/
theorem declaring_heard (ev : Evaluator) {w : World} (hheard : w.Heard k)
    (id : RunId) (onTask : Value) {task : Value} (htask : task.isNullish = false) :
    Reports k none w (ExceptT.run (do
      if ← declareIn id task then announceTask host ev id onTask task
      return task) w).2 := by
  let declared : World :=
    { w with
      scopes := (w.scopes.register id task).2
      history := w.history ++
        [.declared id task (w.heap.heldName? task) (w.scopes.register id task).1] }
  have hquiet : declared.Quiet := hheard.toQuiet.of_eq rfl rfl
  have hdeclare :
    ExceptT.run (declareIn id task) w = (.ok (w.scopes.register id task).1, declared) := rfl
  rw [run_bind_ok hdeclare]
  cases htaken : (w.scopes.register id task).1 with
  -- the scope of the run is closed: the task is dropped without a word
  | false =>
    refine .of_mark (m := .declared id task (w.heap.heldName? task) (w.scopes.register id task).1)
      rfl rfl rfl ?_
    rw [htaken]
    exact ⟨rfl, rfl, rfl⟩
  | true =>
    obtain ⟨event, ht, htold⟩ := run_announceTask hrole hlistener ev hquiet id onTask htask
    rw [if_pos rfl, run_bind_ok htold, run_pure]
    have hmoment :
      Mark.moment? (.declared id task (w.heap.heldName? task) (w.scopes.register id task).1) =
        some (.registered id task (w.heap.heldName? task)) := by
      rw [htaken]
      rfl
    exact .of_telling hheard hmoment ht nofun rfl rfl rfl

/-- So is a task that a run declares. -/
theorem declaring_reports (id : RunId) (onTask : Value) {task : Value}
    (htask : task.isNullish = false) :
    Keeps (Reports k none) (do
    if ← declareIn id task then announceTask host ev id onTask task
    return task) := by
  have hgrows := grows_indifferent.onHost host
  have hgrown : Keeps Grows (do
      if ← declareIn id task then announceTask host ev id onTask task
      return task) := by
    refine hgrows.bind (fun _ => ⟨_, rfl⟩) fun taken => ?_
    cases taken with
    | true =>
      exact hgrows.bind (announceTask_keeps hgrows.toSteady (hev.mono Reports.grows)
        grows_indifferent.observe host id onTask task) fun _ => hgrows.pure _
    | false => exact hgrows.pure _
  exact fun w => .of_heard (hgrown w) fun hheard =>
    declaring_heard hrole hlistener ev hheard id onTask htask

/-- So is a task that a script hands over by its verb. -/
theorem taskVerb_reports (id : RunId) (onTask task : Value) :
    Keeps (Reports k none) (taskVerb host ev id onTask task) := by
  have law := Reports.steady k none
  unfold taskVerb
  intro w
  rw [run_bind_ok (run_heap w)]
  split
  next htask =>
    -- a task is an object
    have hnullish : task.isNullish = false := by
      cases task with
      | ref r => rfl
      | _ => cases htask
    exact declaring_reports hrole hlistener hev id onTask hnullish w
  next => exact law.refuse _ w

end tasks

/-! ## Runs -/

section runs

variable {k : Nat} {host : Host} (hrole : host.role = .engine)
  (hlistener : host.listener = Listener.emitting)
  {ev : Evaluator} (hev : ev.Obeys (Reports k none))

include hrole hlistener

/-- Where a subscriber hears of everything, a run is opened and this is told. -/
theorem openRun_reports (ev : Evaluator) {w : World} (hheard : w.Heard k) (script : Text) : ∃ w',
    ExceptT.run (openRun host ev script w.scopes.tasks.size) (w.beginRun script) = (.ok ⟨⟩, w') ∧
      Reports k none w w' := by
  have hquiet : (w.beginRun script).Quiet := hheard.toQuiet.of_eq rfl rfl
  obtain ⟨event, ht, htold⟩ := run_announceStarted hrole hlistener ev hquiet
    script w.scopes.tasks.size
  have hintact :
    ((w.beginRun script).telling event (audience (w.beginRun script) event)).heap.Intact :=
    hquiet.intact
  have hlog := run_log ev hintact host.loggers.runner .debug "Running script"
    [("script", Value.text script), ("runId", .run w.scopes.tasks.size)]
  rw [openRun, run_markingThrow, run_bind_ok htold, hlog]
  have hmoment : Mark.moment? (.began w.scopes.tasks.size script) =
    some (.started w.scopes.tasks.size script) := rfl
  have htelling : Reports k none w
      ((w.beginRun script).telling event (audience (w.beginRun script) event)) :=
    .of_telling hheard hmoment ht (fun _ _ same => by cases same) rfl rfl rfl
  -- the log entry that follows leaves no mark
  exact ⟨_, rfl, (Reports.steady k none).trans htelling (.of_eq rfl rfl rfl)⟩

include hev

/-- The end of a run whose script ended well is told. -/
theorem completing_reports (script : Text) (id : RunId) (result : Value) (w : World) :
    Reports k none w (ExceptT.run (announceCompleted host ev script id ⟨(w.scopes.finish id).1, result⟩)
      (w.endRun id script true)).2 := by
  have hgrows := grows_indifferent.onHost host
  have hended : Grows w (w.endRun id script true) := ⟨_, rfl⟩
  have hannounced :
      Keeps Grows (announceCompleted host ev script id ⟨(w.scopes.finish id).1, result⟩) :=
    announceCompleted_keeps hgrows.toSteady (hev.mono Reports.grows) grows_indifferent.observe
      host script id _
  refine .of_heard (hgrows.trans hended (hannounced _)) fun hheard => ?_
  have hquiet : (w.endRun id script true).Quiet := hheard.toQuiet.of_eq rfl rfl
  obtain ⟨event, ht, htold⟩ := run_announceCompleted hrole hlistener ev
    hquiet script id ⟨(w.scopes.finish id).1, result⟩
  rw [htold]
  have hmoment : Mark.moment? (.ended id script (some (w.scopes.finish id).1)) =
      some (.completed id script (w.scopes.finish id).1) := rfl
  exact .of_telling hheard hmoment ht nofun rfl rfl rfl

/-- A failure that is logged and announced is told when the run ends. -/
theorem failing_reports (script : Text) (id : RunId) (discarded : Nat)
    (error : Text) (problem : Problem) (w : World) :
    Reports k (some id) w (World.endRun (ExceptT.run (do
      logFailed host ev script id discarded error
      mark (.failed id script problem.message)
      throw (← announceFailed host ev script id problem) : Action Value) w).2 id script false) := by
  have hgrows := grows_indifferent.onHost host
  have hev' := hev.mono Reports.grows
  have hreported : Keeps Grows (do
      logFailed host ev script id discarded error
      mark (.failed id script problem.message)
      throw (← announceFailed host ev script id problem) : Action Value) :=
    hgrows.bind (log_keeps hgrows.toSteady hev' _ _ _ _) fun _ =>
      hgrows.bind (grows_indifferent.mark rfl) fun _ =>
        hgrows.bind (announceFailed_keeps hgrows.toSteady hev' grows_indifferent.observe
          host script id _) hgrows.throw
  -- code that hears of nothing reports nothing, so somebody hears of everything here
  refine .of_heard (hgrows.trans (hreported w) ⟨_, rfl⟩) fun hheard => ?_
  have hlog := run_log ev hheard.intact host.loggers.runner .debug "Script failed"
    [("script", Value.text script), ("runId", .run id), ("discardedTasks", Value.ofNat discarded),
      ("error", Value.text error)]
  generalize hlogged : w.noting _ = logged at hlog
  have hheard' : logged.Heard k := by
    rw [← hlogged]
    exact hheard.of_eq rfl rfl
  have hquiet : World.Quiet { logged with history := logged.history ++
      [.failed id script problem.message] } :=
    hheard'.toQuiet.of_eq rfl rfl
  -- the mark and the telling are of the same moment
  obtain ⟨event, ht, htold⟩ := run_announceFailed hrole hlistener ev hquiet
    script id problem
  have hlogged' :
    ExceptT.run (logFailed host ev script id discarded error) w = (.ok ⟨⟩, logged) := hlog
  rw [run_bind_ok hlogged', run_bind_ok (run_mark logged _), run_bind_ok htold]
  refine ⟨.failed id script problem.message ::
    ((audience w event).flatMap (Subscriber.hears event) ++ [.ended id script none]), ?_, fun _ _ =>
      ⟨?_, ?_⟩⟩
  · show ((logged.history ++ [_]) ++ (audience logged event).flatMap _) ++ [_] = _
    rw [← hlogged]
    simp [World.noting, audience]
  · -- the error that is thrown was added to the heap
    exact { hheard' with
      intact := hheard'.intact.push (problemObject problem)
      named := hheard'.named.push (Object.holdsName_problemObject problem) }
  · exact .of_failing hheard.listens ht

/-- A run whose script threw counts its tasks, and ends when its failure was told. -/
theorem failRun_reports (script : Text) (id : RunId) (thrown : Value) (w : World) : Reports k none w
    ((ExceptT.run (failRun host ev script id thrown : Action Value) w).2.endRun
      id script false) := by
  have law := Reports.steady k none
  have hinside := Reports.steady k (some id)
  unfold failRun
  rw [run_bind]
  -- the value may throw when it is described for the error
  cases hcause : ExceptT.run (cause ev thrown) w with
  | mk r x =>
    have hcaused := (cause_keeps law hev thrown).of_run hcause
    rw [run_markingThrow, hcause]
    cases r with
    | error u => exact law.trans hcaused (.of_undescribed id script x)
    | ok c =>
      refine law.trans hcaused (.of_counted id (x.scopes.size id) ?_)
      simp only
      unfold logFailure
      rw [bind_assoc, run_bind_ok (run_countDiscarded x id), bind_assoc, run_bind]
      generalize hcounted :
        ({ x with history := x.history ++ [.counted id (x.scopes.size id)] } : World) = y
      -- and again when it is described for the log
      cases hdescribe : ExceptT.run (describe ev thrown) y with
      | mk r z =>
        have hdescribed := (describe_keeps hinside (hev.mono Reports.within) thrown).of_run
          hdescribe
        rw [run_markingThrow, hdescribe]
        cases r with
        | error u => exact hinside.trans hdescribed (.of_undescribed id script z)
        | ok error =>
          exact hinside.trans hdescribed
            (failing_reports hrole hlistener hev script id (x.scopes.size id)
              error (.scriptFailed script c) z)

/-- Whatever runs a script does, they are reported as they begin and end. -/
theorem execute_reports (script : Text) {body : RunId → Action Value}
    (hbody : ∀ id, Keeps (Reports k none) (body id)) :
    Keeps (Reports k none) (execute host ev script body) := by
  have law := Reports.steady k none
  have hgrown : Keeps Grows (execute host ev script body) :=
    (grows_indifferent.onHost host).execute (hev.mono Reports.grows) script fun id w =>
      (hbody id w).grows
  refine fun w => .of_heard (hgrown w) fun hheard => ?_
  -- where the subscriber hears of everything, the script is reached
  obtain ⟨w₂, hopen, hopened⟩ := openRun_reports hrole hlistener ev hheard script
  rw [run_execute, hopen]
  simp only
  rw [run_carryOut]
  have hentered :
    Reports k none w₂ (w₂.enter (some w.scopes.tasks.size)) := .of_mark rfl rfl rfl ⟨rfl, rfl, rfl⟩
  cases hrun : ExceptT.run (body w.scopes.tasks.size) (w₂.enter (some w.scopes.tasks.size)) with
  | mk r w₃ =>
    have hcarried := (hbody w.scopes.tasks.size).of_run hrun
    have hleft : Reports k none w₃ (w₃.leave w₂.binding) := .of_mark rfl rfl rfl ⟨rfl, rfl, rfl⟩
    have hreached := law.trans hopened (law.trans (law.trans hentered hcarried) hleft)
    cases r with
    | error thrown =>
      have hfailed := failRun_reports hrole hlistener hev script w.scopes.tasks.size
        thrown (w₃.leave w₂.binding)
      obtain ⟨v, hv⟩ := throws_failRun host ev script w.scopes.tasks.size
        thrown (w₃.leave w₂.binding)
      simp only
      rw [pair_eq hv]
      exact law.trans hreached hfailed
    | ok result =>
      have hcompleted := completing_reports hrole hlistener hev script
        w.scopes.tasks.size result (w₃.leave w₂.binding)
      simp only
      split
      next h =>
        rw [h] at hcompleted
        exact law.trans hreached hcompleted
      next h =>
        rw [h] at hcompleted
        exact law.trans hreached hcompleted

end runs

/-! ## The law -/

/-- Whatever an engine whose listener emits does is reported. -/
theorem reports_law (k : Nat) {host : Host} (hrole : host.role = .engine)
    (hlistener : host.listener = Listener.emitting) : Law host (Reports k none) where
  toSteady := Reports.steady k none
  onTypes _ _ := .of_eq rfl rfl rfl
  withBinding binding _ h w := by
    have law := Reports.steady k none
    have hentered : Reports k none w (w.enter binding) := .of_mark rfl rfl rfl ⟨rfl, rfl, rfl⟩
    have hleft (w' : World) :
      Reports k none w' (w'.leave w.binding) := .of_mark rfl rfl rfl ⟨rfl, rfl, rfl⟩
    rw [run_withBinding]
    exact law.trans (law.trans hentered (h (w.enter binding))) (hleft _)
  provideImports imports w := by
    refine .of_silent [] (List.append_nil _).symm (fun h _ => ?_) nofun
    -- the imports are no property that the engine is reached by
    have hfacade : host.role.facade = Fixture.engine.ref := by
      rw [hrole]
      rfl
    have hnamed := h.named.update (.ref host.role.facade) (gentle_put "imports" imports).name
    have hintact :
        (w.heap.update (.ref host.role.facade) (Object.put "imports" imports)).Intact := by
      rw [hfacade]
      exact h.intact.put imports (by decide) (by decide) (by decide)
    exact { h with intact := hintact, named := hnamed }
  enroll type builder w := .of_mark rfl rfl rfl ⟨rfl, rfl, rfl⟩
  attach type builder w := by
    refine .of_silent [.marked type builder] rfl (fun h _ => ?_) fun m hm _ => ?_
    · exact { h with intact := h.intact.mark type builder, named := h.named.mark type builder }
    · rw [List.mem_singleton.mp hm]
      exact ⟨rfl, rfl, rfl⟩
  observe event s hrun w := by
    refine .of_mark (m := .told s.id event) rfl rfl rfl ⟨rfl, if_neg fun h => ?_, rfl⟩
    rw [hrun] at h
    exact absurd h.2 Bool.false_ne_true
  registerSilently hbench := by
    rw [hrole] at hbench
    cases hbench
  registerTask hev task := registerTask_reports hrole hev task
  taskVerb hev id onTask task := taskVerb_reports hrole hlistener hev id onTask task
  execute hev script _ hbody := execute_reports hrole hlistener hev script hbody

end Action

end EvalPlan

import EvalPlan.Proofs.Reporting

/-!
# The life of runs as subscribers see it

A subscriber to every event sees each run begin once and end once, its tasks in between, and runs
within runs. The number of tasks that it saw a run take is the number of tasks that the run hands
over. Where a run fails, it is the number of discarded tasks that is logged and of those that
describing the failure for the log declared on top of them.
-/

namespace EvalPlan

/-- The event says that a run took a task. -/
def Event.registers (r : RunId) (e : Event) : Bool :=
  decide (e.type = "task:registered") && decide (e.run = some r)

/-- The events that a subscriber saw of runs are the moments that the marks of a history stand
for. -/
structure Lifecycle (ms : List Mark) (events : List Event) : Prop where
  /-- Every moment is told by one event, in order. -/
  told : List.Forall₂ RunMoment.ToldBy (toldMoments ms) events
  /-- The moments of each run lie between its beginning and its end, and runs are nested. -/
  orderly : Orderly (ms.filterMap Mark.moment?)
  /-- A run that ended well was seen to take as many tasks as it handed over. -/
  completed : ∀ r script tasks, .completed r script tasks ∈ ms.filterMap Mark.moment? →
    events.countP (Event.registers r) = tasks.length
  /-- A run that failed was seen to take the tasks that it counted as discarded, and those that it
  took afterwards. The numbers are the same exactly if it took none. -/
  failed : ∀ r script, .failed r script ∈ ms.filterMap Mark.moment? →
    ∃ a b d, ms.filterMap Mark.moment? = a ++ .counted r d :: b ∧
      events.countP (Event.registers r) = d + (b.filterMap (RunMoment.taskOf r)).length ∧
      (events.countP (Event.registers r) = d ↔ b.filterMap (RunMoment.taskOf r) = [])

/-! ## Counting the tasks of a run -/

namespace RunMoment

/-- A moment of another run, and the end or beginning of one, takes no task. -/
theorem taskOf_eq_none {r : RunId} {t : RunMoment} (h : t.run = r → t.isWithin = false) :
    t.taskOf r = none := by
  cases t with
  | registered run task name => exact if_neg fun hrun => Bool.noConfusion (h hrun)
  | _ => rfl

theorem filterMap_taskOf_eq_nil {r : RunId} {ts : List RunMoment} (h : ∀ t ∈ ts, t.run ≠ r) :
    ts.filterMap (taskOf r) = [] :=
  List.filterMap_eq_nil_iff.mpr fun t ht => taskOf_eq_none fun hrun => absurd hrun (h t ht)

theorem isWithin_of_ends {r : RunId} {t : RunMoment} (h : t.ends r) : t.isWithin = false := by
  cases t with
  | completed run script tasks => rfl
  | failed run script => rfl
  | _ => cases h

end RunMoment

/-- Of each task that a run took one event was seen. -/
theorem countP_registers {ts : List RunMoment} {es : List Event}
    (h : List.Forall₂ RunMoment.ToldBy ts es)
    (r : RunId) : es.countP (Event.registers r) = (ts.filterMap (RunMoment.taskOf r)).length := by
  -- moments and events are read side by side
  induction h with
  | nil => rfl
  | @cons t e ts es ht _ ih =>
    rw [List.countP_cons, ih]
    cases t with
    | registered run task name =>
      obtain ⟨htype, hrun, -⟩ := ht
      by_cases hr : run = r
      · subst hr
        simp [Event.registers, htype, hrun, RunMoment.taskOf]
      · simp [Event.registers, htype, hrun, RunMoment.taskOf, hr]
    | counted run discarded => cases ht
    | _ =>
      obtain ⟨htype, -⟩ := ht
      -- events of other types are not counted
      have hother : Event.registers r e = false := by
        rw [Event.registers, htype]
        exact Bool.and_eq_false_imp.mpr fun h => absurd (of_decide_eq_true h) (by decide)
      rw [hother]
      rfl

/-- What is only logged takes no task. -/
theorem filterMap_taskOf_toldMoments (ms : List Mark) (r : RunId) :
    (toldMoments ms).filterMap (RunMoment.taskOf r) = (ms.filterMap Mark.moment?).filterMap
      (RunMoment.taskOf r) := by
  rw [toldMoments, List.filterMap_filter]
  refine List.filterMap_congr fun t _ => ?_
  cases t <;> rfl

namespace Orderly

variable {ts : List RunMoment} {r : RunId}

/-- The end of a run and what the run took before it. -/
theorem taken (h : Orderly ts) {last : RunMoment} (hlast : last ∈ ts) (hends : last.ends r) :
    ∃ a b c script, ts = a ++ .started r script :: (b ++ last :: c) ∧ (∀ x ∈ a, x.run ≠ r) ∧
      (∀ x ∈ c, x.run ≠ r) ∧
      ts.filterMap (RunMoment.taskOf r) = b.filterMap (RunMoment.taskOf r) := by
  have hrun : last.run = r := by
    cases last with
    | completed run script tasks => exact hends
    | failed run script => exact hends
    | _ => cases hends
  have hout := RunMoment.isWithin_of_ends hends
  -- the moment is one of the run, so that it stands in the bracket of the run
  obtain ⟨a, b, c, script, last', hts, hends', ha, hb, hc⟩ := h.bracket last hlast
  rw [hrun] at hts hends' ha hb hc
  -- nothing else ends the run
  have hsame : last = last' := by
    rw [hts] at hlast
    rcases List.mem_append.mp hlast with hmem | hmem
    · exact absurd hrun (ha last hmem)
    · rcases List.mem_cons.mp hmem with rfl | hmem
      · cases hends
      · rcases List.mem_append.mp hmem with hmem | hmem
        · rw [hb last hmem hrun] at hout
          cases hout
        · rcases List.mem_cons.mp hmem with hsame | hmem
          · exact hsame
          · exact absurd hrun (hc last hmem)
  subst hsame
  refine ⟨a, b, c, script, hts, ha, hc, ?_⟩
  have hstarted : (RunMoment.started r script).taskOf r = none := rfl
  have hended : last.taskOf r = none := RunMoment.taskOf_eq_none fun _ => hout
  rw [hts, List.filterMap_append, List.filterMap_cons_none hstarted, List.filterMap_append,
    List.filterMap_cons_none hended, RunMoment.filterMap_taskOf_eq_nil ha,
      RunMoment.filterMap_taskOf_eq_nil hc,
    List.append_nil, List.nil_append]

end Orderly

/-- Faithful marks in which every run ends show the life of the runs. -/
theorem lifecycle {l l' : Ledger} {ms : List Mark} (hwhole : l.Whole ms l')
    {k : Nat} {run : Option RunId}
    (hfaithful : Faithful k run ms) : Lifecycle ms (ms.filterMap (Mark.seenBy k)) := by
  have horderly := hwhole.orderly
  have hcount (r : RunId) : (ms.filterMap (Mark.seenBy k)).countP (Event.registers r) =
      ((ms.filterMap Mark.moment?).filterMap (RunMoment.taskOf r)).length := by
    rw [countP_registers hfaithful.told, filterMap_taskOf_toldMoments]
  refine ⟨hfaithful.told, horderly, fun r script tasks hmem => ?_, fun r script hmem => ?_⟩
  · obtain ⟨a, b, c, script', hts, -, -, htaken⟩ := horderly.taken hmem rfl
    rw [hcount, htaken, ← horderly.completed a b c r script' script tasks hts]
  · obtain ⟨a, b, c, script', hts, -, hc, htaken⟩ := horderly.taken hmem rfl
    obtain ⟨b₁, b₂, d, rfl, hd⟩ := horderly.failed a b c r script' script hts
    have hcounted : (RunMoment.counted r d).taskOf r = none := rfl
    have hfailed : (RunMoment.failed r script).taskOf r = none := rfl
    -- tasks that were taken after they were counted are announced all the same
    have hsum : (ms.filterMap (Mark.seenBy k)).countP (Event.registers r) =
        d + ((b₂ ++ .failed r script :: c).filterMap (RunMoment.taskOf r)).length := by
      rw [hcount, htaken, List.filterMap_append, List.filterMap_cons_none hcounted,
        List.length_append, hd,
        List.filterMap_append, List.filterMap_cons_none hfailed,
          RunMoment.filterMap_taskOf_eq_nil hc, List.append_nil]
    refine ⟨a ++ .started r script' :: b₁, b₂ ++ .failed r script :: c,
      d, by rw [hts]; simp, hsum, ?_⟩
    rw [hsum, ← List.length_eq_zero_iff]
    omega

/-! ## The theorem -/

/-- What an engine tells its subscribers of the runs of scripts, and what it logs of them. -/
structure TellsRuns (host : Host) (ev : Evaluator) : Prop where
  /-- Where all is quiet at first and no run is going on, a subscriber to every event sees the life
  of all runs, whatever is asked of the engine. -/
  session : ∀ k w rs ms, w.Heard k → (∀ r, w.scopes.isOpen r = false) →
    (Request.session host ev w rs).history = w.history ++ ms → Undisturbed ms →
    Lifecycle ms (ms.filterMap (Mark.seenBy k))
  /-- The tasks that a run hands over when it ends are those of its environment. -/
  environment : ∀ w script e w', ExceptT.run (Action.executeScript host ev script) w = (.ok e, w') →
    ∃ a b, w'.history = w.history ++
      (a ++ .ended w.scopes.tasks.size script.name (some e.tasks) :: b)
  /-- When a run fails, the number of tasks that was counted is logged. Between the count and the
  entry the thrown value is described, and nothing else happens. -/
  logged : ∀ w script id thrown error w',
    ExceptT.run (Action.describe ev thrown)
      { w with history := w.history ++ [.counted id (w.scopes.size id)] } =
      (.ok error, w') → w'.Quiet →
    ExceptT.run (Action.logFailure host ev script id thrown) w = (.ok ⟨⟩, w'.noting
      (host.loggers.runner.leaves .debug "Script failed" (Event.fields
        [("script", .text script), ("runId", .run id),
          ("discardedTasks", .number (Float.ofNat (w.scopes.size id))),
          ("error", .text error)])))

namespace Action

theorem session_lifecycle {host : Host} (hrole : host.role = .engine)
    (hlistener : host.listener = Listener.emitting)
    (n k : Nat) {w : World} (hheard : w.Heard k) (hrest : ∀ r, w.scopes.isOpen r = false)
    (rs : List Request)
    {ms : List Mark} (hms : (Request.session host (evaluator host n) w rs).history =
      w.history ++ ms)
    (hundisturbed : Undisturbed ms) : Lifecycle ms (ms.filterMap (Mark.seenBy k)) := by
  have hlaw := reports_law k hrole hlistener
  -- the marks are faithful to what was told, and they account for themselves
  obtain ⟨ns, hns, hreports⟩ := hlaw.session (hlaw.evaluator n) w rs
  obtain ⟨-, ns', hns', hreplay⟩ := (recorded_law host).session ((recorded_law host).evaluator n)
    w rs
  obtain rfl : ms = ns := List.append_cancel_left (hms.symm.trans hns)
  obtain rfl : ms = ns' := List.append_cancel_left (hms.symm.trans hns')
  obtain ⟨-, hfaithful⟩ := hreports hheard hundisturbed
  refine lifecycle (l := w.ledger [] [])
    ⟨hreplay [] [] nofun, ⟨w.binding, rfl⟩, ⟨rfl, hrest⟩, rfl, hfaithful.kept,
    countsDiscarded_of_within hfaithful.counts⟩ hfaithful

/-- The count is logged when the thrown value was described. -/
theorem run_logFailure {host : Host} {ev : Evaluator} {script error : Text}
    {id : RunId} {thrown : Value}
    {w w' : World} (h : ExceptT.run (describe ev thrown)
      { w with history := w.history ++ [.counted id (w.scopes.size id)] } = (.ok error, w'))
        (hquiet : w'.Quiet) :
    ExceptT.run (logFailure host ev script id thrown) w = (.ok ⟨⟩, w'.noting
      (host.loggers.runner.leaves .debug "Script failed" (Event.fields
        [("script", .text script), ("runId", .run id),
          ("discardedTasks", .number (Float.ofNat (w.scopes.size id))),
          ("error", .text error)]))) := by
  have hdescribed : ExceptT.run (markingThrow (.undescribed id) (describe ev thrown))
      { w with history := w.history ++ [.counted id (w.scopes.size id)] } = (.ok error, w') := by
    rw [run_markingThrow, h]
  unfold logFailure
  rw [run_bind_ok (run_countDiscarded w id), run_bind_ok hdescribed]
  exact run_log ev hquiet.intact host.loggers.runner .debug "Script failed" _

end Action

/-- An engine tells a subscriber the life of every run. -/
theorem evaluator_tellsRuns (logger bus : Logger) (imports : List Text) (n : Nat) :
    TellsRuns (Host.engine logger bus imports) (evaluator (Host.engine logger bus imports) n) where
  session k _ rs _ hheard hrest hms hundisturbed :=
    Action.session_lifecycle rfl rfl n k hheard hrest rs hms hundisturbed
  environment w script _ _ h := by
    obtain ⟨a, b, c, hmarks⟩ := Action.executeScript_ends ((Action.recorded_law _).evaluator n) h
    refine ⟨.began w.scopes.tasks.size script.name ::
      (a ++ .entered (some w.scopes.tasks.size) :: (b ++ [.left])), c, hmarks.trans ?_⟩
    simp
  logged _ _ _ _ _ _ h hquiet := Action.run_logFailure h hquiet

/-! ## Runs within runs -/

/-- A script that declares a task of a name. -/
def declaring (name : Text) :
    Script.Stmt := .perform (.task (.record [("name", .const (.text name))]))

/-- A script that runs another one, which fails, and declares tasks around it and afterwards. -/
def nestingProgram : Script.Program :=
  .block [declaring "a", .attempt
    [.perform (.run "inner" (.block [declaring "b", .raise (.const (.text "no"))] none))]
    "thrown" [], .later [declaring "d"], declaring "c"] none

/-- A script that throws an object which declares a task whenever it is put into text. -/
def tellingProgram : Script.Program :=
  .block [.raise
    (.record [("toString", .function "x" [declaring "a"] (some (.const (.text "t"))))])] none

/-- The history of an engine that records its log, to whose events somebody listens, after it ran a
script. -/
def historyOf (program : Script.Program) : List Mark :=
  (Request.session (Host.engine Logger.recording Logger.recording [])
    (evaluator (Host.engine Logger.recording
    Logger.recording []) 12) (World.listening Domain.objects) [.run "plan" program]).history

theorem nestedRuns_told :
    Lifecycle (historyOf nestingProgram)
      ((historyOf nestingProgram).filterMap (Mark.seenBy 0)) := by
  have hhistory : historyOf nestingProgram = (World.listening Domain.objects).history ++
      historyOf nestingProgram := by
    rw [World.history_listening, List.nil_append]
  have hundisturbed : Undisturbed (historyOf nestingProgram) := by
    unfold Undisturbed
    decide +kernel
  exact (evaluator_tellsRuns Logger.recording Logger.recording [] 12).session
    0 (World.listening Domain.objects)
    [.run "plan" nestingProgram] (historyOf nestingProgram)
      (World.heard_listening Domain.holdsName_objects)
    (World.isOpen_listening Domain.objects) hhistory hundisturbed

/-- Putting the thrown object into text for the log declares a task that was not counted. -/
theorem tellingRun_takesMore :
    ((historyOf tellingProgram).filterMap fun m => match m with
      | .counted run discarded => some (run, discarded)
      | _ => none) = [(0, 1)] ∧
    ((historyOf tellingProgram).filterMap (Mark.seenBy 0)).countP (Event.registers 0) = 2 := by
  decide +kernel

end EvalPlan

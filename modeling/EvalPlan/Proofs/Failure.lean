import EvalPlan.Proofs.Describing
import EvalPlan.Proofs.Law.Running
import EvalPlan.Proofs.Scope

/-!
# Scripts that fail

A script that throws makes its run fail. The thrown value is described twice on the way, for the
error and for the log, and to describe it may call what the script made of it.
`executeScript_surfaces_iff` says what comes of this: if the value can be described both times, the
error that is thrown is a configuration error with the value as its cause, and the failure was
announced once; if not, what describing it threw is thrown in its place, and nothing is announced.
The scope of the run is closed in any case.
-/

namespace EvalPlan

/-- A world in which something more happened. -/
def World.marked (w : World) (m : Mark) : World := { w with history := w.history ++ [m] }

/-- The message of a failure that is announced for a run. -/
def Mark.failureOf (r : RunId) : Mark → Option Text
  | failed run _ message => if run = r then some message else none
  | _ => none

/-! ## Failures that are announced -/

/-- The failures that code announces are failures of runs that began in it, or of the given run. -/
def AnnouncesOwn (run : Option RunId) (w w' : World) : Prop :=
  w.scopes.tasks.size ≤ w'.scopes.tasks.size ∧ ∃ ms, w'.history = w.history ++ ms ∧
    ∀ r < w.scopes.tasks.size, run ≠ some r → ms.filterMap (Mark.failureOf r) = []

namespace AnnouncesOwn

variable {run : Option RunId}

/-- A change that leaves a mark, or none, that announces no failure but one of the given run. -/
theorem of_marks {w w' : World} {ms : List Mark}
    (hsize : w.scopes.tasks.size ≤ w'.scopes.tasks.size)
    (hhistory : w'.history = w.history ++ ms)
    (hms : ∀ r < w.scopes.tasks.size, run ≠ some r → ms.filterMap (Mark.failureOf r) = []) :
    AnnouncesOwn run w w' := ⟨hsize, ms, hhistory, hms⟩

/-- Where nothing was announced, nothing has to be accounted for. -/
theorem of_eq {w w' : World} (hscopes : w'.scopes = w.scopes) (hhistory : w'.history = w.history) :
    AnnouncesOwn run w w' := by
  have hmarks : w'.history = w.history ++ [] := by rw [hhistory, List.append_nil]
  exact of_marks (Nat.le_of_eq (by rw [hscopes])) hmarks fun _ _ _ => rfl

/-- What one action after the other announces is announced by both. -/
theorem stepwise (run : Option RunId) : Action.Stepwise (AnnouncesOwn run) where
  refl _ := of_eq rfl rfl
  trans := by
    rintro a b c ⟨hab, ms, hms, h₁⟩ ⟨hbc, ns, hns, h₂⟩
    refine ⟨Nat.le_trans hab hbc, ms ++ ns, by rw [hns, hms, List.append_assoc], fun r hr hrun =>
      ?_⟩
    rw [List.filterMap_append, h₁ r hr hrun, h₂ r (Nat.lt_of_lt_of_le hr hab) hrun]
    rfl

/-- What is announced outside of runs is announced within each. -/
theorem within {w w' : World} (h : AnnouncesOwn none w w') : AnnouncesOwn run w w' := by
  obtain ⟨hsize, ms, hms, h⟩ := h
  exact ⟨hsize, ms, hms, fun r hr _ => h r hr nofun⟩

/-- Steps that leave scopes and history alone announce nothing. -/
theorem steady (run : Option RunId) : Action.Steady (AnnouncesOwn run) where
  toStepwise := stepwise run
  onAlloc _ _ _ := of_eq rfl rfl
  onChange w v f _ := by
    refine of_marks (Nat.le_refl _) rfl fun r _ _ => ?_
    rcases Action.alterations_eq v with h | ⟨s, h⟩
    · rw [h]
      rfl
    · rw [h]
      rfl
  onFrames _ _ := of_eq rfl rfl
  onQueue _ _ := of_eq rfl rfl
  onJoining _ _ := of_eq rfl rfl
  onNote _ _ _ := of_eq rfl rfl

/-- Binding a run announces nothing. -/
theorem enter (w : World) (binding : Option RunId) : AnnouncesOwn run w (w.enter binding) :=
  of_marks (Nat.le_refl _) rfl fun _ _ _ => rfl

/-- Neither does going back from it. -/
theorem leave (w : World) (binding : Option RunId) : AnnouncesOwn run w (w.leave binding) :=
  of_marks (Nat.le_refl _) rfl fun _ _ _ => rfl

/-- Code within a run that began: what it announces of the run was announced since it began. -/
theorem of_began {w w' : World} {script : Text} {m : Mark}
    (h : AnnouncesOwn (some w.scopes.tasks.size) (w.beginRun script) w') {w'' : World}
    (hsize : w'.scopes.tasks.size ≤ w''.scopes.tasks.size)
    (hhistory : w''.history = w'.history ++ [m])
    (hm : ∀ r, m.failureOf r = none) : AnnouncesOwn none w w'' := by
  obtain ⟨hle, ms, hms, h⟩ := h
  have hsize' :
    (w.beginRun script).scopes.tasks.size = w.scopes.tasks.size + 1 := Scopes.size_start _
  refine ⟨by omega, .began w.scopes.tasks.size script :: (ms ++ [m]), ?_, fun r hr _ => ?_⟩
  · rw [hhistory, hms]
    simp [World.beginRun]
  · -- runs that began before are told nothing by the new one
    have hinside := h r (by omega) fun heq => Nat.ne_of_lt hr (Option.some.inj heq).symm
    rw [List.filterMap_cons_none rfl, List.filterMap_append, hinside,
      List.filterMap_cons_none (hm r)]
    rfl

end AnnouncesOwn

namespace Action

/-- Whatever runs are carried out, they announce their own failures only. -/
theorem announcesOwn_runLaw : RunLaw AnnouncesOwn where
  steady := AnnouncesOwn.steady
  onTypes _ _ := AnnouncesOwn.of_eq rfl rfl
  within h := h.within
  observe _ _ _ := AnnouncesOwn.of_marks (Nat.le_refl _) rfl fun _ _ _ => rfl
  declareIn id task w := AnnouncesOwn.of_marks (Nat.le_of_eq (w.scopes.size_register id task).symm)
    rfl
    fun _ _ _ => rfl
  offer task w := AnnouncesOwn.of_marks
    (Nat.le_of_eq (w.scopes.size_registerCurrent w.binding task).symm) rfl
    fun _ _ _ => rfl
  enroll _ _ _ := AnnouncesOwn.of_marks (Nat.le_refl _) rfl fun _ _ _ => rfl
  attach _ _ _ := AnnouncesOwn.of_marks (Nat.le_refl _) rfl fun _ _ _ => rfl
  provideImports _ _ _ := AnnouncesOwn.of_eq rfl rfl
  withBinding binding act h w := by
    have hcarried := (AnnouncesOwn.stepwise none).trans (AnnouncesOwn.enter w binding)
      (h (w.enter binding))
    exact (AnnouncesOwn.stepwise none).trans hcarried (AnnouncesOwn.leave _ w.binding)
  counted _ _ := AnnouncesOwn.of_marks (Nat.le_refl _) rfl fun _ _ _ => rfl
  undescribed _ _ := AnnouncesOwn.of_marks (Nat.le_refl _) rfl fun _ _ _ => rfl
  -- the one mark that announces a failure is that of the run that failed
  failed id _ _ _ := AnnouncesOwn.of_marks (Nat.le_refl _) rfl fun r _ hrun => by
    have hne : ¬ id = r := fun heq => hrun (heq ▸ rfl)
    simp [Mark.failureOf, hne]
  abandoned h := h.of_began (Nat.le_refl _) rfl fun _ => rfl
  ended {_ w' _} _ h := h.of_began (Nat.le_of_eq (w'.scopes.size_finish _).symm) rfl fun _ => rfl

/-! ## Reporting a failure -/

section report

variable {host : Host} {ev : Evaluator} {script : Text} {id : RunId} {v : Value}

/-- The world in which the thrown value is described for the log. -/
def counting (id : RunId) (w : World) : World := w.marked (.counted id (w.scopes.size id))

/-- The thrown value can be described for the error and again for the log. The words are those of
the first description. -/
def Described (ev : Evaluator) (id : RunId) (v : Value) (w : World) (message : Text) (x : World) :
    Prop :=
  ∃ y text, ExceptT.run (describe ev v) w = (.ok message, y) ∧
    ExceptT.run (describe ev v) (counting id y) = (.ok text, x)

/-- Describing the thrown value for the error throws, or describing it again for the log. -/
def Undescribed (ev : Evaluator) (id : RunId) (v : Value) (w : World) (u : Value) (x : World) :
    Prop :=
  ExceptT.run (describe ev v) w = (.error u, x) ∨
  ∃ y message, ExceptT.run (describe ev v) w = (.ok message, y) ∧
    ExceptT.run (describe ev v) (counting id y) = (.error u, x)

/-- A thrown value can be described twice, or it cannot. -/
theorem described_or_undescribed (ev : Evaluator) (id : RunId) (v : Value) (w : World) :
    (∃ message x, Described ev id v w message x) ∨ ∃ u x, Undescribed ev id v w u x := by
  cases h₁ : ExceptT.run (describe ev v) w with
  | mk r y =>
    cases r with
    | error u => exact .inr ⟨u, y, .inl h₁⟩
    | ok message =>
      cases h₂ : ExceptT.run (describe ev v) (counting id y) with
      | mk r x =>
        cases r with
        | error u => exact .inr ⟨u, x, .inr ⟨y, message, h₁, h₂⟩⟩
        | ok text => exact .inl ⟨message, x, y, text, h₁, h₂⟩

/-- A value cannot be both. -/
theorem Described.not_undescribed {w x x' : World} {message : Text} {u : Value}
    (h : Described ev id v w message x) : ¬ Undescribed ev id v w u x' := by
  obtain ⟨y, text, h₁, h₂⟩ := h
  rintro (h | ⟨y', message', h, h'⟩)
  · rw [h₁] at h
    cases h
  · rw [h₁] at h
    cases h
    rw [h₂] at h'
    cases h'

/-- Where the thrown value cannot be described, what describing it threw takes the place of the
error. -/
theorem failRun_undescribed {α : Type} {w x : World} {u : Value} (h : Undescribed ev id v w u x) :
    ExceptT.run (failRun host ev script id v : Action α) w =
      (.error u, x.marked (.undescribed id)) := by
  unfold failRun
  -- the first description throws, or the second one does
  rcases h with h | ⟨y, message, h₁, h₂⟩
  · have hcause : ExceptT.run (markingThrow (.undescribed id) (cause ev v)) w =
        (.error u, x.marked (.undescribed id)) := by
      rw [run_markingThrow, cause, run_bind_error h]
      rfl
    exact run_bind_error hcause
  · have hcause : ExceptT.run (markingThrow (.undescribed id) (cause ev v)) w =
        (.ok ⟨v, message⟩, y) := by
      rw [run_markingThrow, cause, run_bind_ok h₁]
      rfl
    have hlog : ExceptT.run (logFailure host ev script id v) y =
        (.error u, x.marked (.undescribed id)) := by
      have hagain : ExceptT.run (markingThrow (.undescribed id) (describe ev v)) (counting id y) =
          (.error u, x.marked (.undescribed id)) := by
        rw [run_markingThrow, h₂]
        rfl
      unfold logFailure
      rw [run_bind_ok (run_countDiscarded y id)]
      exact run_bind_error hagain
    rw [run_bind_ok hcause]
    exact run_bind_error hlog

/-- What is to be thrown for a value that was described. -/
def failure (script : Text) (v : Value) (message : Text) :
    Problem := .scriptFailed script ⟨v, message⟩

/-- Neither the logger nor the listener of a run throws when it is told that the script threw a
value, and the error is what it was made as when the listener is through with it. Only a callback
that a listener inherits is handed the error itself (`heard_of_told`). -/
def Heard (host : Host) (ev : Evaluator) (script : Text) (id : RunId) (v : Value) (w : World) :
    Prop :=
  ∀ y message x text, ExceptT.run (describe ev v) w = (.ok message, y) →
    ExceptT.run (describe ev v) (counting id y) = (.ok text, x) →
    ∃ z e t, ExceptT.run (logFailed host ev script id (y.scopes.size id) text) x = (.ok ⟨⟩, z) ∧
      ExceptT.run (announceFailed host ev script id (failure script v message))
        (z.marked (.failed id script (failure script v message).message)) = (.ok (.ref e), t) ∧
      t.heap[e]? = some (problemObject (failure script v message))

/-- A listener with a callback of its own never gets hold of the error, which is made after the
callback has answered. -/
theorem announceFailed_asMade (hown : host.listener.failed ≠ .absent) {problem : Problem}
    {w t : World} {error : Value}
    (h : ExceptT.run (announceFailed host ev script id problem) w = (.ok error, t)) :
    ∃ e, error = .ref e ∧ t.heap[e]? = some (problemObject problem) := by
  have made : ∀ {told : Action Unit},
      ExceptT.run (do told; alloc (problemObject problem)) w = (.ok error, t) →
        ∃ e, error = .ref e ∧ t.heap[e]? = some (problemObject problem) := by
    intro told h
    rw [run_bind] at h
    split at h
    · cases h
      exact ⟨_, rfl, by rw [Array.getElem?_push, if_pos rfl]⟩
    · cases h
  unfold announceFailed at h
  split at h
  next heq => exact absurd heq hown
  · rw [← bind_assoc] at h
    exact made h
  · cases h
  · cases h
  · exact made h

/-- A listener with a callback of its own has heard of a failure as soon as neither it nor the
logger throws. -/
theorem heard_of_told (hown : host.listener.failed ≠ .absent) {w : World}
    (h : ∀ y message x text, ExceptT.run (describe ev v) w = (.ok message, y) →
      ExceptT.run (describe ev v) (counting id y) = (.ok text, x) →
      ∃ z, ExceptT.run (logFailed host ev script id (y.scopes.size id) text) x = (.ok ⟨⟩, z) ∧
        ∃ error t, ExceptT.run (announceFailed host ev script id (failure script v message))
          (z.marked (.failed id script (failure script v message).message)) = (.ok error, t)) :
    Heard host ev script id v w := by
  intro y message x text h₁ h₂
  obtain ⟨z, hlogged, error, t, htold⟩ := h y message x text h₁ h₂
  obtain ⟨e, rfl, hmade⟩ := announceFailed_asMade hown htold
  exact ⟨z, e, t, hlogged, htold, hmade⟩

/-- Where the thrown value can be described, the failure is logged, announced and thrown. -/
theorem run_failRun {α : Type} {w y x : World} {message text : Text}
    (h₁ : ExceptT.run (describe ev v) w = (.ok message, y))
    (h₂ : ExceptT.run (describe ev v) (counting id y) = (.ok text, x)) :
    ExceptT.run (failRun host ev script id v : Action α) w = ExceptT.run (do
      logFailed host ev script id (y.scopes.size id) text
      mark (.failed id script (failure script v message).message)
      throw (← announceFailed host ev script id (failure script v message))) x := by
  have hcause : ExceptT.run (markingThrow (.undescribed id) (cause ev v)) w =
      (.ok ⟨v, message⟩, y) := by
    rw [run_markingThrow, cause, run_bind_ok h₁]
    rfl
  have hagain : ExceptT.run (markingThrow (.undescribed id) (describe ev v)) (counting id y) =
      (.ok text, x) := by
    rw [run_markingThrow, h₂]
  unfold failRun logFailure
  rw [run_bind_ok hcause, bind_assoc, run_bind_ok (run_countDiscarded y id), bind_assoc]
  exact run_bind_ok hagain

/-- Describing a thrown value announces nothing of runs that began before. -/
theorem Described.announcesOwn (hev : ev.Obeys (AnnouncesOwn none)) {w x : World} {message : Text}
    (h : Described ev id v w message x) : AnnouncesOwn none w x := by
  have law := announcesOwn_runLaw.steady none
  obtain ⟨y, text, h₁, h₂⟩ := h
  have hcounted : AnnouncesOwn none y (counting id y) :=
    AnnouncesOwn.of_marks (Nat.le_refl _) rfl fun _ _ _ => rfl
  exact law.trans (law.trans ((describe_keeps law hev v).of_run h₁) hcounted)
    ((describe_keeps law hev v).of_run h₂)

/-- Where the thrown value can be described, the error with the value as its cause is thrown, after
the failure was announced once. -/
theorem failRun_described (hev : ev.Obeys (AnnouncesOwn none)) {α : Type}
    {w x : World} {message : Text}
    (h : Described ev id v w message x) (hheard : Heard host ev script id v w)
    (hid : id < w.scopes.tasks.size) :
    ∃ e t, ExceptT.run (failRun host ev script id v : Action α) w = (.error (.ref e), t) ∧
      t.heap[e]? = some (problemObject (failure script v message)) ∧
      ∃ ms, t.history = w.history ++ ms ∧
        ms.filterMap (Mark.failureOf id) = [(failure script v message).message] := by
  have law := announcesOwn_runLaw
  have hsteady := law.steady none
  obtain ⟨hsize₁, ms₁, hms₁, hnone₁⟩ := h.announcesOwn hev
  -- described, logged, marked and announced, in this order; then the error is thrown
  obtain ⟨y, text, h₁, h₂⟩ := h
  obtain ⟨z, e, t, h₃, h₄, hmade⟩ := hheard y message x text h₁ h₂
  refine ⟨e, t, ?_, hmade, ?_⟩
  · rw [run_failRun h₁ h₂, run_bind_ok h₃, run_bind_ok (run_mark z _)]
    exact run_bind_ok h₄
  · -- what is announced of the run is announced by the one mark
    obtain ⟨hsize₃, ms₃, hms₃, hnone₃⟩ := (log_keeps hsteady hev _ _ _ _).of_run h₃
    obtain ⟨hsize₄, ms₄, hms₄, hnone₄⟩ :=
      (announceFailed_keeps hsteady hev law.observe host script id _).of_run h₄
    have hx : id < x.scopes.tasks.size := Nat.lt_of_lt_of_le hid hsize₁
    have hz : id < z.scopes.tasks.size := Nat.lt_of_lt_of_le hx hsize₃
    refine ⟨ms₁ ++ (ms₃ ++ .failed id script (failure script v message).message :: ms₄), ?_, ?_⟩
    · rw [hms₄, World.marked, hms₃, hms₁]
      simp
    · have hself : Mark.failureOf id (.failed id script (failure script v message).message) =
          some (failure script v message).message := if_pos rfl
      simp only [List.filterMap_append, List.filterMap_cons, hnone₁ id hid nofun,
        hnone₃ id hx nofun, hnone₄ id hz nofun, hself]
      rfl

end report

/-! ## The theorem -/

section surfacing

variable (host : Host) (ev : Evaluator) (script : CompiledScript) (w : World)

/-- The world in which the script of a new run begins. -/
def opened : World :=
    (ExceptT.run (openRun host ev script.name w.scopes.tasks.size) (w.beginRun script.name)).2

/-- What the script comes to when it is carried out with its run bound, and the world then. -/
def outcome : Except Value Value × World :=
  ExceptT.run (runBody host ev script w.scopes.tasks.size)
    ((opened host ev script w).enter (some w.scopes.tasks.size))

/-- The world after the script, in which its failure is reported. -/
def scriptLeft : World := (outcome host ev script w).2.leave (opened host ev script w).binding

/-- The script of a run throws a value that it does not catch. -/
structure ScriptThrows (v : Value) : Prop where
  opened : (ExceptT.run (openRun host ev script.name w.scopes.tasks.size)
    (w.beginRun script.name)).1 = .ok ⟨⟩
  thrown : (outcome host ev script w).1 = .error v

/-- A configuration error is thrown with a value as its cause, and this failure was announced
once. -/
def Surfaces (v : Value) : Prop :=
  ∃ message e, (ExceptT.run (executeScript host ev script) w).1 = .error (.ref e) ∧
    (ExceptT.run (executeScript host ev script) w).2.heap[e]? =
      some (problemObject (failure script.name v message)) ∧
    ∃ ms, (ExceptT.run (executeScript host ev script) w).2.history = w.history ++ ms ∧
      ms.filterMap (Mark.failureOf w.scopes.tasks.size) = [(failure script.name v message).message]

variable {host} {ev} {script} {w} {v : Value}

/-- A script that throws makes its run fail, and then the scope is ended. -/
theorem executeScript_thrown (h : ScriptThrows host ev script w v) {u : Value} {x : World}
    (hfail : ExceptT.run (failRun host ev script.name w.scopes.tasks.size v : Action Value)
      (scriptLeft host ev script w) = (.error u, x)) :
    ExceptT.run (executeScript host ev script) w =
      (.error u, x.endRun w.scopes.tasks.size script.name false) := by
  have hopen :
    ExceptT.run (openRun host ev script.name w.scopes.tasks.size) (w.beginRun script.name) =
      (.ok ⟨⟩, opened host ev script w) := pair_eq h.opened
  have hbody : ExceptT.run (runBody host ev script w.scopes.tasks.size)
      ((opened host ev script w).enter (some w.scopes.tasks.size)) =
        (.error v, (outcome host ev script w).2) :=
    pair_eq h.thrown
  have hcarry : ExceptT.run (carryOut host ev script.name w.scopes.tasks.size
      (runBody host ev script w.scopes.tasks.size)) (opened host ev script w) = (.error u, x) := by
    rw [run_carryOut, hbody]
    exact hfail
  rw [executeScript, run_execute, hopen]
  simp only
  rw [hcarry]

/-- Nothing is announced of the run before its script throws. -/
theorem scriptLeft_silent (hev : ev.Obeys (AnnouncesOwn none))
    (h : ScriptThrows host ev script w v) :
    w.scopes.tasks.size < (scriptLeft host ev script w).scopes.tasks.size ∧
    ∃ ms, (scriptLeft host ev script w).history = w.history ++ ms ∧
      ms.filterMap (Mark.failureOf w.scopes.tasks.size) = [] := by
  have law := announcesOwn_runLaw.steady none
  -- the run is opened, bound, carried out and left
  have hopened : AnnouncesOwn none (w.beginRun script.name) (opened host ev script w) :=
    announcesOwn_runLaw.openRun_ok hev none (pair_eq h.opened)
  have hentered : AnnouncesOwn none (opened host ev script w)
      ((opened host ev script w).enter (some w.scopes.tasks.size)) := AnnouncesOwn.enter _ _
  have hbody : Keeps (AnnouncesOwn none) (runBody host ev script w.scopes.tasks.size) :=
    runBody_keeps law hev script _
  have hcarried : AnnouncesOwn none ((opened host ev script w).enter (some w.scopes.tasks.size))
      (outcome host ev script w).2 := hbody _
  have hleft : AnnouncesOwn none (outcome host ev script w).2 (scriptLeft host ev script w) :=
    AnnouncesOwn.leave _ _
  obtain ⟨hsize, ms, hms, hnone⟩ := law.trans (law.trans hopened hentered)
    (law.trans hcarried hleft)
  have hbegan :
    (w.beginRun script.name).scopes.tasks.size = w.scopes.tasks.size + 1 := Scopes.size_start _
  refine ⟨by omega, .began w.scopes.tasks.size script.name :: ms, ?_, ?_⟩
  · rw [hms]
    simp [World.beginRun]
  · rw [List.filterMap_cons_none rfl]
    exact hnone _ (by omega) nofun

/-- A script that throws a value that can be described fails with it. -/
theorem surfaces_of_described (hev : ev.Obeys (AnnouncesOwn none))
    (h : ScriptThrows host ev script w v)
    (hheard : Heard host ev script.name w.scopes.tasks.size v (scriptLeft host ev script w))
    {message : Text}
    {x : World} (hdescribed : Described ev w.scopes.tasks.size v (scriptLeft host ev script w)
      message x) :
    Surfaces host ev script w v := by
  obtain ⟨hlt, ms, hms, hnone⟩ := scriptLeft_silent hev h
  obtain ⟨e, t, hfail, herror, ns, hns, hone⟩ := failRun_described hev hdescribed hheard hlt
  have hrun := executeScript_thrown h hfail
  refine ⟨message, e, by rw [hrun], by rw [hrun]; exact herror, ms ++ ns ++
    [.ended w.scopes.tasks.size script.name none], ?_, ?_⟩
  · rw [hrun]
    show t.history ++ _ = _
    rw [hns, hms]
    simp
  · rw [List.filterMap_append, List.filterMap_append, hnone, hone]
    rfl

/-- A script that throws a value that cannot be described fails with what describing it threw. -/
theorem executeScript_undescribed (hev : ev.Obeys (AnnouncesOwn none))
    (h : ScriptThrows host ev script w v)
    {u : Value} {x : World}
    (hundescribed : Undescribed ev w.scopes.tasks.size v (scriptLeft host ev script w) u x) :
    (ExceptT.run (executeScript host ev script) w).1 = .error u ∧
    ∃ ms, (ExceptT.run (executeScript host ev script) w).2.history = w.history ++ ms ∧
      ms.filterMap (Mark.failureOf w.scopes.tasks.size) = [] := by
  obtain ⟨hlt, ms, hms, hnone⟩ := scriptLeft_silent hev h
  have hrun := executeScript_thrown h (failRun_undescribed hundescribed)
  -- describing announces nothing of the run
  have hdescribed : AnnouncesOwn none (scriptLeft host ev script w) x := by
    have law := announcesOwn_runLaw.steady none
    rcases hundescribed with h₁ | ⟨y, message, h₁, h₂⟩
    · exact (describe_keeps law hev v).of_run h₁
    · have hcounted : AnnouncesOwn none y (counting w.scopes.tasks.size y) :=
        AnnouncesOwn.of_marks (Nat.le_refl _) rfl fun _ _ _ => rfl
      exact law.trans (law.trans ((describe_keeps law hev v).of_run h₁) hcounted)
        ((describe_keeps law hev v).of_run h₂)
  obtain ⟨-, ns, hns, hnone'⟩ := hdescribed
  refine ⟨by rw [hrun], ms ++ ns ++ [.undescribed w.scopes.tasks.size,
    .ended w.scopes.tasks.size script.name none], ?_, ?_⟩
  · rw [hrun]
    show (x.history ++ _) ++ _ = _
    rw [hns, hms]
    simp
  · rw [List.filterMap_append, List.filterMap_append, hnone, hnone' _ hlt nofun]
    rfl

/-- A thrown value surfaces exactly if it can be described twice; otherwise what describing it
throws takes its place, and nobody is told. The scope of the run is closed in any case. -/
theorem executeScript_surfaces_iff (host : Host) (n : Nat) {script : CompiledScript}
    {w : World} {v : Value}
    (hthrows : ScriptThrows host (evaluator host n) script w v)
    (hheard : Heard host (evaluator host n) script.name w.scopes.tasks.size v
      (scriptLeft host (evaluator host n) script w)) :
    (ExceptT.run (executeScript host (evaluator host n) script) w).2.scopes.isOpen
      w.scopes.tasks.size = false ∧
    (Surfaces host (evaluator host n) script w v ↔
      ∃ message x, Described (evaluator host n) w.scopes.tasks.size v
        (scriptLeft host (evaluator host n) script w) message x) ∧
    ∀ u x, Undescribed (evaluator host n) w.scopes.tasks.size v
        (scriptLeft host (evaluator host n) script w) u x →
      (ExceptT.run (executeScript host (evaluator host n) script) w).1 = .error u ∧
      ∃ ms, (ExceptT.run (executeScript host (evaluator host n) script) w).2.history =
        w.history ++ ms ∧
        ms.filterMap (Mark.failureOf w.scopes.tasks.size) = [] := by
  have hev := (announcesOwn_runLaw.onHost host).evaluator n
  refine ⟨?_, ⟨fun hsurfaces => ?_, fun hdescribed => ?_⟩, fun u x hundescribed => ?_⟩
  · have hfails : Throws (failRun host (evaluator host n) script.name w.scopes.tasks.size v :
        Action Value) :=
      throws_failRun _ _ _ _ _
    obtain ⟨u, hu⟩ := hfails (scriptLeft host (evaluator host n) script w)
    rw [executeScript_thrown hthrows (pair_eq hu)]
    show ((Scopes.finish _ _).2).isOpen _ = false
    rw [Scopes.isOpen, Scopes.open?_finish, if_pos rfl]
    rfl
  · -- if it could not be described twice, something else would have been thrown in its place
    rcases described_or_undescribed (evaluator host n) w.scopes.tasks.size v
      (scriptLeft host (evaluator host n) script w) with hdescribed | ⟨u, x, hundescribed⟩
    · exact hdescribed
    · -- then nobody was told, but the failure that surfaces was announced
      obtain ⟨-, ms, hms, hnone⟩ := executeScript_undescribed hev hthrows hundescribed
      obtain ⟨message, e, -, -, ns, hns, hone⟩ := hsurfaces
      rw [hms] at hns
      rw [List.append_cancel_left hns, hone] at hnone
      cases hnone
  · obtain ⟨message, x, hdescribed⟩ := hdescribed
    exact surfaces_of_described hev hthrows hheard hdescribed
  · exact executeScript_undescribed hev hthrows hundescribed

/-! ## Values that can be described -/

/-- A value that describes itself can be described twice. -/
theorem described_of_describes (ev : Evaluator) (id : RunId) {v : Value} {message : Text}
    {w : World} (h : w.heap.Describes v message) : Described ev id v w message (counting id w) :=
  ⟨w, message, h ev w rfl, h ev _ rfl⟩

/-- A value that is no object can always be described. -/
theorem described_plain (ev : Evaluator) (id : RunId) {v : Value} (hv : v.ref? = none) (w : World) :
    ∃ message x, Described ev id v w message x := by
  obtain ⟨words, h⟩ := Heap.Describable.describes (h := w.heap) (.inl hv)
  exact ⟨words, counting id w, described_of_describes ev id h⟩

/-- An object with a text as its message is described by that, whatever else it is. -/
theorem described_message (ev : Evaluator) (id : RunId) {v : Value} {message : Text} {w : World}
    (hobject : w.heap.isObject v = true) (hmessage : w.heap.text? v "message" = some message) :
    Described ev id v w message (counting id w) :=
  described_of_describes ev id (Heap.describes_message hobject hmessage)

/-- An object that inherits nothing and has neither a message nor a way to be put into text cannot
be described. -/
theorem undescribed_bare (ev : Evaluator) (id : RunId) {r : Ref} {o : Object} {w : World}
    (hr : w.heap[r]? = some o) (hparent : o.parent = none)
    (hown : ∀ name ∈ [Text.ofString "message", "toString", "valueOf"], o.own? name = none) :
    ∃ u x, Undescribed ev id (.ref r) w u x := by
  obtain ⟨u, x, hdescribe⟩ := run_describe_bare ev hr hparent hown
  exact ⟨u, x, .inl hdescribe⟩

/-- A test tells that a text was thrown. -/
theorem eq_error_text {α : Type} {r : Except Value α} {t : Text}
    (h : (match r with | .error (.text t') => decide (t' = t) | _ => false) = true) :
      r = .error (.text t) := by
  split at h
  next t' => rw [of_decide_eq_true h]
  next => cases h

/-- A test tells that nothing was thrown. -/
theorem eq_ok_of_toBool {r : Except Value Unit} (h : r.toBool = true) : r = .ok ⟨⟩ := by
  cases r with
  | ok _ => rfl
  | error _ => cases h

/-- Then there is a result. -/
theorem exists_ok_of_toBool {α : Type} {r : Except Value α × World} (h : r.1.toBool = true) :
    ∃ a w, r = (.ok a, w) := by
  obtain ⟨_ | a, w⟩ := r
  · cases h
  · exact ⟨a, w, rfl⟩

/-- An engine that prints what is at least informative. -/
def printingHost : Host := Host.engineWithBus (Logger.printing "plans") []

/-- A script that throws a text. -/
def throwingScript : CompiledScript := ⟨"plan", [.raise (.const (.text "no"))], none⟩

/-- A script that throws a text fails with the text as the cause. -/
theorem throwingScript_surfaces :
    Surfaces printingHost (evaluator printingHost 3) throwingScript (World.initial Domain.heap)
      (.text "no") := by
  have hthrows : ScriptThrows printingHost (evaluator printingHost 3) throwingScript
      (World.initial Domain.heap) (.text "no") :=
    ⟨eq_ok_of_toBool (by decide +kernel), eq_error_text (by decide +kernel)⟩
  have hown : printingHost.listener.failed ≠ .absent := show Callback.emit ≠ .absent from nofun
  refine (executeScript_surfaces_iff printingHost 3 hthrows (heard_of_told hown ?_)).2.1.mpr
    ⟨_, _, _, _, run_describe_text _ _ _, run_describe_text _ _ _⟩
  -- a text describes itself, so that the worlds in between are known
  intro y message x text h₁ h₂
  rw [run_describe_text] at h₁
  cases h₁
  rw [run_describe_text] at h₂
  cases h₂
  exact ⟨_, pair_eq (eq_ok_of_toBool (by decide +kernel)), exists_ok_of_toBool (by decide +kernel)⟩

/-- A script that throws an object which can be put into text only once: this takes away its way to
do so. -/
def fleetingScript : CompiledScript :=
  ⟨"plan", [.bind "o" (.record []),
    .assign (.variable "o") "toString"
      (.function "x" [.assign (.variable "o") "toString" (.const (.number 5))]
      (some (.const (.text "t")))),
    .raise (.variable "o")], none⟩

/-- The kind of the error that an action throws. -/
def thrownKind? {α : Type} (r : Except Value α × World) : Option ErrorKind :=
  match r.1 with
  | .error v => r.2.heap.errorKind? v
  | .ok _ => none

/-- In place of a thrown object whose text cannot be had twice another error surfaces. -/
theorem fleetingScript_hidden : ∃ v,
    ScriptThrows printingHost (evaluator printingHost 8) fleetingScript
      (World.initial Domain.heap) v ∧
      ¬ Surfaces printingHost (evaluator printingHost 8) fleetingScript
        (World.initial Domain.heap) v := by
  have hopened : (ExceptT.run (openRun printingHost (evaluator printingHost 8) fleetingScript.name
      (World.initial Domain.heap).scopes.tasks.size)
        ((World.initial Domain.heap).beginRun fleetingScript.name)).1.toBool =
        true := by
    decide +kernel
  have hthrown :
    (outcome printingHost (evaluator printingHost 8) fleetingScript
    (World.initial Domain.heap)).1.toBool =
      false := by
    decide +kernel
  have hkind :
    thrownKind? (ExceptT.run (executeScript printingHost (evaluator printingHost 8) fleetingScript)
      (World.initial Domain.heap)) = some .type := by
    decide +kernel
  cases hv : (outcome printingHost (evaluator printingHost 8) fleetingScript
    (World.initial Domain.heap)).1 with
  | ok x =>
    rw [hv] at hthrown
    cases hthrown
  | error v =>
    refine ⟨v, ⟨eq_ok_of_toBool hopened, hv⟩, ?_⟩
    rintro ⟨message, e, hresult, hobject, -⟩
    -- if it surfaced, a configuration error would be thrown, but a type error is
    have hsome :
      thrownKind?
      (ExceptT.run (executeScript printingHost (evaluator printingHost 8) fleetingScript)
        (World.initial Domain.heap)) = some .configuration := by
      simp only [thrownKind?, hresult, Heap.errorKind?, Heap.shape?, Heap.object?, hobject]
      rfl
    rw [hkind] at hsome
    cases hsome

end surfacing

end Action

end EvalPlan

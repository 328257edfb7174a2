import EvalPlan.Proofs.Isolation

/-!
# What is taken as a task

Tasks are declared in two ways, and only one of them judges what it is given. The `task` verb of a
run takes objects with a name and refuses anything else; `registerTask` refuses only what is missing
(`draftScript_takesText`). So the tasks of a run were all tasks when they were declared exactly if
those were that it took by `registerTask` (`evaluator_judgesTasks`).
-/

namespace EvalPlan

namespace Heap

variable {h h' h'' : Heap}

/-- A task is an object that holds its name as a text. -/
theorem isTask_iff {v : Value} : h.isTask v = true ↔
    h.isObject v = true ∧ ∃ t, h.heldName? v = some (.text t) := by
  have hname : (h.text? v "name").isSome = true ↔ ∃ t, h.heldName? v = some (.text t) := by
    unfold text? value? heldName?
    cases h.find? .main v "name" with
    | none => simp
    | some s =>
      cases hs : s.value? with
      | none => simp [hs]
      | some x => cases x <;> simp [hs, Value.text?]
  rw [isTask, Bool.and_eq_true, hname]

/-- Objects stay, and so does whether they can be called. -/
def KeepsObjects (h h' : Heap) : Prop :=
  ∀ (r : Ref) (o : Object), h[r]? = some o →
    ∃ o', h'[r]? = some o' ∧ ∀ c, o'.shape = .callable c ↔ o.shape = .callable c

/-- The value refers to an object that cannot be called. -/
theorem isObject_iff {v : Value} : h.isObject v = true ↔
    ∃ o, h.object? v = some o ∧ ∀ c, o.shape ≠ .callable c := by
  unfold isObject isCallable callable? shape?
  cases h.object? v with
  | none => simp
  | some o => cases hshape : o.shape <;> simp [hshape]

/-- Objects stay objects. -/
theorem KeepsObjects.isObject (hkeeps : h.KeepsObjects h') {v : Value} (hv : h.isObject v = true) :
    h'.isObject v = true := by
  obtain ⟨o, ho, hplain⟩ := isObject_iff.mp hv
  cases v with
  | ref r =>
    obtain ⟨o', ho', hshape⟩ := hkeeps r o ho
    exact isObject_iff.mpr ⟨o', ho', fun c hc => hplain c ((hshape c).mp hc)⟩
  | _ => cases ho

/-- A change that leaves whether an object can be called. -/
theorem keepsObjects_update (h : Heap) (v : Value) {f : Object → Object}
    (hf : ∀ o c, (f o).shape = .callable c ↔ o.shape = .callable c) :
    h.KeepsObjects (h.update v f) := by
  intro r o hr
  rcases getElem?_update_or v f hr with hsame | ⟨-, hchanged⟩
  · exact ⟨o, hsame, fun _ => .rfl⟩
  · exact ⟨f o, hchanged, hf o⟩

/-- Nothing that an engine does to its heap takes an object away. -/
theorem keepsObjects_law : HeapLaw KeepsObjects where
  refl _ _ o hr := ⟨o, hr, fun _ => .rfl⟩
  trans hab hbc r o hr := by
    obtain ⟨o', hr', hshape⟩ := hab r o hr
    obtain ⟨o'', hr'', hshape'⟩ := hbc r o' hr'
    exact ⟨o'', hr'', fun c => (hshape' c).trans (hshape c)⟩
  onAlloc h o _ r o' hr := ⟨o', h.extends_push o r o' hr, fun _ => .rfl⟩
  onChange h v _ hf := h.keepsObjects_update v hf.callable
  onMark h type _ := h.keepsObjects_update type fun _ _ => .rfl

end Heap

/-! ## Marks of declarations -/

/-- What a mark says was declared was a task: it is an object, which it was from the start, and it
had a text as its name then. -/
def Mark.Genuine (h : Heap) : Mark → Prop
  | .declared _ task name _ => h.isObject task = true ∧ ∃ t, name = some (.text t)
  | .offered _ task name _ => h.isObject task = true ∧ ∃ t, name = some (.text t)
  | _ => True

/-- The mark was left by `registerTask`, for a run. -/
def Mark.isOfferFor (r : RunId) : Mark → Prop
  | .offered run _ _ _ => run = some r
  | _ => False

/-- What the engine of a host makes sure of: the `task` verb declares tasks only, and what is
registered by an engine is not missing. -/
def Mark.Judged (host : Host) (h : Heap) : Mark → Prop
  | .declared run task name taken => (Mark.declared run task name taken).Genuine h
  | .offered _ task _ _ => host.role = .engine → task.isNullish = false
  | _ => True

/-- What was judged stays so, for objects stay. -/
theorem Mark.Judged.mono {host : Host} {h h' : Heap} (hkeeps : h.KeepsObjects h') {m : Mark}
    (hm : m.Judged host h) : m.Judged host h' := by
  cases m with
  | declared run task name taken => exact ⟨hkeeps.isObject hm.1, hm.2⟩
  | _ => exact hm

/-- Objects stay, and what happened was judged. -/
def Judges (host : Host) (w w' : World) : Prop :=
  w.heap.KeepsObjects w'.heap ∧
    ∃ ms, w'.history = w.history ++ ms ∧ ∀ m ∈ ms, m.Judged host w'.heap

namespace Judges

variable {host : Host} {w w' : World}

/-- What was judged one after the other was judged altogether. -/
theorem stepwise (host : Host) : Action.Stepwise (Judges host) where
  refl w := ⟨Heap.keepsObjects_law.refl _, [], (List.append_nil _).symm, nofun⟩
  trans := by
    rintro a b c ⟨hab, ms, hms, hjudged⟩ ⟨hbc, ns, hns, hjudged'⟩
    refine ⟨Heap.keepsObjects_law.trans hab hbc, ms ++ ns, by rw [hns, hms, List.append_assoc], ?_⟩
    intro m hm
    rcases List.mem_append.mp hm with hm | hm
    · exact (hjudged m hm).mono hbc
    · exact hjudged' m hm

/-- A change that leaves one mark. -/
theorem of_mark {m : Mark} (hheap : w'.heap = w.heap) (hm : w'.history = w.history ++ [m])
    (hjudged : m.Judged host w.heap) : Judges host w w' := by
  refine ⟨hheap ▸ Heap.keepsObjects_law.refl _, [m], hm, fun m' hm' => ?_⟩
  rw [List.mem_singleton.mp hm', hheap]
  exact hjudged

/-- A change of objects that nothing happens by but that a fixture is altered. -/
theorem of_heap {ms : List Mark} (hheap : w.heap.KeepsObjects w'.heap)
    (hms : w'.history = w.history ++ ms) (haltered : ms = [] ∨ ∃ r, ms = [.altered r]) :
    Judges host w w' := by
  refine ⟨hheap, ms, hms, fun m hm => ?_⟩
  rcases haltered with rfl | ⟨r, rfl⟩
  · cases hm
  · rw [List.mem_singleton.mp hm]
    trivial

/-- Where nothing happened there was nothing to judge. -/
theorem of_eq (hheap : w'.heap = w.heap) (hhistory : w'.history = w.history) :
    Judges host w w' :=
  of_heap (hheap ▸ Heap.keepsObjects_law.refl _) (by rw [hhistory, List.append_nil]) (.inl rfl)

/-- Steps that leave heap and history alone have nothing to judge. -/
theorem steady (host : Host) : Action.Steady (Judges host) where
  toStepwise := stepwise host
  onAlloc w o ho := of_heap (Heap.keepsObjects_law.onAlloc w.heap o ho)
    (List.append_nil _).symm (.inl rfl)
  onChange w v f hf := of_heap (Heap.keepsObjects_law.onChange w.heap v f hf) rfl
    (Action.alterations_eq v)
  onFrames _ _ := of_eq rfl rfl
  onQueue _ _ := of_eq rfl rfl
  onJoining _ _ := of_eq rfl rfl
  onNote _ _ _ := of_eq rfl rfl

end Judges

namespace Action

variable {host : Host} {ev : Evaluator}

/-- What a subscriber hears was judged before. -/
theorem observe_judges (event : Event) (s : Subscriber) :
    Keeps (Judges host) (observe event s) :=
  (Judges.stepwise host).bind (fun _ => Judges.of_mark rfl rfl trivial) fun _ _ =>
    Judges.of_eq rfl rfl

/-- Running scripts leaves no mark of a declaration but by what the scripts do. -/
theorem judges_runSteps : RunSteps fun _ => Judges host where
  steady _ := Judges.steady host
  onTypes _ _ := Judges.of_eq rfl rfl
  within h := h
  observe := observe_judges
  enroll _ _ _ := Judges.of_mark rfl rfl trivial
  attach type builder w := by
    refine (Judges.stepwise host).trans (b := { w with heap := w.heap.mark type builder }) ?_
      (Judges.of_mark rfl rfl trivial)
    exact Judges.of_heap (Heap.keepsObjects_law.onMark _ _ _) (List.append_nil _).symm (.inl rfl)
  provideImports host' imports w :=
    Judges.of_heap (Heap.keepsObjects_law.onChange _ _ _ (gentle_put "imports" imports))
      (List.append_nil _).symm (.inl rfl)
  -- the marks around what is carried out are about bindings, and judge nothing
  withBinding binding _ h w := by
    have hentered : Judges host w (w.enter binding) := Judges.of_mark rfl rfl trivial
    have hcarried := (Judges.stepwise host).trans hentered (h (w.enter binding))
    exact (Judges.stepwise host).trans hcarried (Judges.of_mark rfl rfl trivial)
  counted _ _ := Judges.of_mark rfl rfl trivial
  undescribed _ _ := Judges.of_mark rfl rfl trivial
  failed _ _ _ _ := Judges.of_mark rfl rfl trivial
  abandoned {w w' script} h := by
    have hbegan : Judges host w (w.beginRun script) := Judges.of_mark rfl rfl trivial
    exact (Judges.stepwise host).trans ((Judges.stepwise host).trans hbegan h)
      (Judges.of_mark rfl rfl trivial)
  ended {w w' script} well h := by
    have hbegan : Judges host w (w.beginRun script) := Judges.of_mark rfl rfl trivial
    exact (Judges.stepwise host).trans ((Judges.stepwise host).trans hbegan h)
      (Judges.of_mark rfl rfl trivial)

/-- The `task` verb refuses what is no task, and leaves the error that says so and nothing else. -/
theorem taskVerb_notTask (host : Host) (ev : Evaluator) {w : World} (id : RunId)
    (onTask : Value) {v : Value} (hv : w.heap.isTask v = false) :
    ExceptT.run (taskVerb host ev id onTask v) w =
      (.error (.ref w.heap.size), { w with heap := w.heap.push (problemObject .notTask) }) := by
  unfold taskVerb
  rw [run_bind_ok (run_heap w), hv]
  rfl

/-- What is registered and missing is refused, whatever runs. -/
theorem registerTask_missing (host : Host) (ev : Evaluator) {w : World} {v : Value}
    (hv : v.isNullish = true) : ExceptT.run (registerTask host ev v) w =
      (.error (.ref w.heap.size), { w with heap := w.heap.push (problemObject .taskMissing) }) := by
  unfold registerTask
  rw [if_pos hv]
  rfl

variable (hev : ev.Obeys (Judges host))

include hev

/-- The `task` verb declares tasks only. -/
theorem taskVerb_judges (id : RunId) (onTask task : Value) :
    Keeps (Judges host) (taskVerb host ev id onTask task) := by
  intro w
  have law := Judges.steady host
  cases htask : w.heap.isTask task with
  | false =>
    rw [taskVerb_notTask host ev id onTask htask]
    exact law.onAlloc w _ (Object.holdsName_problemObject _)
  | true =>
    obtain ⟨hobject, hname⟩ := Heap.isTask_iff.mp htask
    -- only what was judged gets as far as being declared
    have hdeclare : Judges host w (ExceptT.run (declareIn id task) w).2 :=
      Judges.of_mark rfl rfl ⟨hobject, hname⟩
    have hrest (taken : Bool) : Keeps (Judges host) (do
        if taken then announceTask host ev id onTask task
        return task) := by
      cases taken with
      | true =>
        exact law.bind (announceTask_keeps law hev observe_judges host _ _ _) fun _ => law.pure _
      | false => exact law.pure _
    have hrun : ExceptT.run (declareIn id task) w = (.ok (w.scopes.register id task).1,
        (ExceptT.run (declareIn id task) w).2) := rfl
    unfold taskVerb
    rw [run_bind_ok (run_heap w), htask, if_pos rfl, run_bind_ok hrun]
    exact law.trans hdeclare (hrest _ _)

/-- Registering offers what is not missing. -/
theorem registerTask_judges (task : Value) : Keeps (Judges host) (registerTask host ev task) := by
  have law := Judges.steady host
  unfold registerTask
  split
  · exact law.refuse _
  next htask =>
    have hpresent : host.role = .engine → task.isNullish = false := fun _ => by simpa using htask
    exact law.bind (logRegistering_keeps law hev host task) fun _ =>
      law.bind (fun _ => Judges.of_mark rfl rfl hpresent) fun _ =>
        announceOffered_keeps law hev observe_judges host _ _

omit hev

/-- Everything that an engine does leaves only marks that were judged. -/
theorem judges_law (host : Host) : Law host (Judges host) := by
  refine judges_runSteps.onHost host (fun hbench task => ?_) registerTask_judges taskVerb_judges
  have hpresent : host.role = .engine → task.isNullish = false := fun hengine => by
    rw [hbench] at hengine
    cases hengine
  exact (Judges.stepwise host).bind (fun _ => Judges.of_mark rfl rfl hpresent) fun _ =>
    (Judges.stepwise host).pure _

end Action

/-! ## The tasks of runs -/

/-- What is judged of the tasks that the scripts of an engine declare, where an evaluator carries
the scripts out. -/
structure JudgesTasks (host : Host) (ev : Evaluator) : Prop where
  /-- Whatever is asked of the engine, its history grows by marks that were judged: what was
  declared by a `task` verb was a task then, and nothing that was registered was missing. -/
  session : ∀ w rs, ∃ ms, (Request.session host ev w rs).history = w.history ++ ms ∧
    ∀ m ∈ ms, m.Judged host (Request.session host ev w rs).heap
  /-- The tasks of an environment are those that marks declare for its run. All of them were tasks
  when they were declared exactly if those were that were registered. -/
  environment : ∀ w script e w', ExceptT.run (Action.executeScript host ev script) w = (.ok e, w') →
    ∃ ms, (∃ a c, w'.history = w.history ++ (a ++ ms ++ c)) ∧
      e.tasks = ms.filterMap (Mark.taskFor w.scopes.tasks.size) ∧
      (∀ m ∈ ms, m.Judged host w'.heap) ∧
      ((∀ m ∈ ms, (m.taskFor w.scopes.tasks.size).isSome = true → m.Genuine w'.heap) ↔
        ∀ m ∈ ms, m.isOfferFor w.scopes.tasks.size → m.Genuine w'.heap)
  /-- The `task` verb refuses exactly what is no task, with an error and without a trace. -/
  verb : ∀ (w : World) (id : RunId) (onTask v : Value),
    if w.heap.isTask v then
      ∃ ms, (ExceptT.run (Action.taskVerb host ev id onTask v) w).2.history =
        w.history ++ .declared id v (w.heap.heldName? v) (w.scopes.isOpen id) :: ms
    else ExceptT.run (Action.taskVerb host ev id onTask v) w = (.error (.ref w.heap.size),
      { w with heap := w.heap.push (Action.problemObject .notTask) })
  /-- Registering refuses exactly what is missing, unless what is given cannot be logged. -/
  registered : ∀ (w : World) (v : Value),
    if v.isNullish then ExceptT.run (Action.registerTask host ev v) w = (.error (.ref w.heap.size),
      { w with heap := w.heap.push (Action.problemObject .taskMissing) })
    else
      (∃ a b name taken, (ExceptT.run (Action.registerTask host ev v) w).2.history =
        w.history ++ (a ++ .offered w.binding v name taken :: b)) ∨
      ∃ thrown, (ExceptT.run (Action.logRegistering host ev v) w).1 = .error thrown ∧
        ExceptT.run (Action.registerTask host ev v) w =
          (.error thrown, (ExceptT.run (Action.logRegistering host ev v) w).2)

/-- What the `task` verb declares is a task, so that whether all declared tasks are is up to what
was registered. -/
theorem genuine_iff_of_judged {host : Host} {h : Heap} {ms : List Mark} {r : RunId}
    (hjudged : ∀ m ∈ ms, m.Judged host h) :
    (∀ m ∈ ms, (m.taskFor r).isSome = true → m.Genuine h) ↔
      ∀ m ∈ ms, m.isOfferFor r → m.Genuine h := by
  constructor
  · intro hall m hm hoffer
    refine hall m hm ?_
    cases m with
    | offered run task name taken => simp [Mark.taskFor, show run = some r from hoffer]
    | _ => cases hoffer
  · intro hoffers m hm htask
    cases m with
    | declared run task name taken => exact hjudged _ hm
    | offered run task name taken =>
      refine hoffers _ hm ?_
      by_cases hrun : run = some r
      · exact hrun
      · simp [Mark.taskFor, hrun] at htask
    | _ => trivial

/-- The tasks that a run answers were taken by it, and judged when they were. -/
theorem executeScript_judged {host : Host} {ev : Evaluator} (hev : ev.Obeys (Recorded none))
    (hjudges : ev.Obeys (Judges host)) {w w' : World} {script : CompiledScript} {e : Environment}
    (h : ExceptT.run (Action.executeScript host ev script) w = (.ok e, w')) :
    ∃ ms, (∃ a c, w'.history = w.history ++ (a ++ ms ++ c)) ∧
      e.tasks = ms.filterMap (Mark.taskFor w.scopes.tasks.size) ∧
      ∀ m ∈ ms, m.Judged host w'.heap := by
  obtain ⟨a, b, c, hhistory, htasks⟩ := RunsApart.executeScript_environment hev h
  obtain ⟨-, ns, hns, hjudged⟩ :=
    (Action.executeScript_keeps (Action.judges_law host) hjudges script).of_run h
  let ms := a ++ .entered (some w.scopes.tasks.size) :: (b ++ [.left])
  have hsplit : ns = [.began w.scopes.tasks.size script.name] ++ ms ++
      (.ended w.scopes.tasks.size script.name (some e.tasks) :: c) := by
    refine List.append_cancel_left (hns.symm.trans (hhistory.trans ?_))
    simp [ms]
  refine ⟨ms, ⟨_, _, hns.trans (by rw [hsplit])⟩, htasks, fun m hm => hjudged m ?_⟩
  rw [hsplit]
  simp [hm]

/-- Whether the tasks of a run are tasks is up to what was registered: what its `task` verb declares
always is. -/
theorem evaluator_judgesTasks (host : Host) (n : Nat) : JudgesTasks host (evaluator host n) where
  session w rs := by
    obtain ⟨-, ms, hms, hjudged⟩ := Action.Law.session (Action.judges_law host)
      ((Action.judges_law host).evaluator n) w rs
    exact ⟨ms, hms, hjudged⟩
  environment w script e w' h := by
    obtain ⟨ms, hms, htasks, hjudged⟩ := executeScript_judged
      ((Action.recorded_law host).evaluator n) ((Action.judges_law host).evaluator n) h
    exact ⟨ms, hms, htasks, hjudged, genuine_iff_of_judged hjudged⟩
  verb w id onTask v := by
    split
    next hv =>
      exact Action.taskVerb_declares ((Action.recorded_law host).evaluator n) host id onTask hv
    next hv => exact Action.taskVerb_notTask host _ id onTask (by simpa using hv)
  registered w v := by
    split
    next hv => exact Action.registerTask_missing host _ hv
    next hv => exact Action.registerTask_offers ((Action.recorded_law host).evaluator n) host hv

/-- A script that registers a text. -/
def draftScript : CompiledScript :=
  ⟨"plan", [.perform (.engine "registerTask" [.const (.text "draft")])], none⟩

/-- The result is an environment with one task, which is this text. -/
def Environment.holdsText (t : Text) : Except Value Environment → Bool
  | .ok ⟨[.text t'], _⟩ => decide (t' = t)
  | _ => false

/-- A test tells which task a run answers. -/
theorem Environment.tasks_of_holdsText {t : Text} {r : Except Value Environment}
    (h : holdsText t r = true) : ∃ e, r = .ok e ∧ e.tasks = [.text t] := by
  unfold holdsText at h
  split at h
  next t' result => exact ⟨_, rfl, by rw [of_decide_eq_true h]⟩
  next => cases h

/-- A text is registered as a task, though no text is one. -/
theorem draftScript_takesText : ∃ e w',
    ExceptT.run (Action.executeScript (Host.engineWithBus (Logger.printing "plans") [])
      (evaluator (Host.engineWithBus (Logger.printing "plans") []) 8) draftScript)
        (World.initial Domain.heap) = (.ok e, w') ∧
      e.tasks = [.text "draft"] ∧ ∀ h : Heap, h.isTask (.text "draft") = false := by
  obtain ⟨e, he, htasks⟩ := Environment.tasks_of_holdsText (t := "draft")
    (r := (ExceptT.run (Action.executeScript (Host.engineWithBus (Logger.printing "plans") [])
      (evaluator (Host.engineWithBus (Logger.printing "plans") []) 8) draftScript)
        (World.initial Domain.heap)).1) (by decide +kernel)
  exact ⟨e, _, Action.pair_eq he, htasks, fun _ => rfl⟩

end EvalPlan

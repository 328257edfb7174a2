import EvalPlan.Proofs.Ledger
import EvalPlan.Proofs.Law.Running

/-!
# The history accounts for the state

Whatever an engine does leaves marks that account for it: replayed from the scopes, the bound run
and the builders before it, the marks fit and lead to those after it. `recorded_law` states this for
every action by which scripts are carried out; the modules on runs, events and builders draw their
conclusions from the marks.
-/

namespace EvalPlan

/-- What the history accounts for, within code around which other runs were bound and runs began. -/
def World.ledger (w : World) (bindings : List (Option RunId)) (running : List RunId) : Ledger :=
  ⟨w.scopes, w.binding :: bindings, running, w.mappings⟩

/-- The same run is bound in two worlds, and the marks that one has beyond the other account for the
difference; if a run is given, this is so within the script of that run. -/
def Recorded (run : Option RunId) (w w' : World) : Prop :=
  w'.binding = w.binding ∧ ∃ ms, w'.history = w.history ++ ms ∧
    ∀ bindings running, (∀ r, run = some r → running.head? = some r) →
    (w.ledger bindings running).Replay ms (w'.ledger bindings running)

namespace Recorded

variable {run : Option RunId}

theorem stepwise (run : Option RunId) : Action.Stepwise (Recorded run) where
  refl w := ⟨rfl, [], (List.append_nil _).symm, fun _ _ _ => .nil⟩
  trans := by
    rintro a b c ⟨hab, ms, hms, h₁⟩ ⟨hbc, ns, hns, h₂⟩
    refine ⟨hbc.trans hab, ms ++ ns, ?_, fun bindings running hrun => ?_⟩
    · rw [hns, hms, List.append_assoc]
    · exact (h₁ bindings running hrun).append (h₂ bindings running hrun)

/-- What is accounted for anywhere is accounted for within a run. -/
theorem within {w w' : World} (h : Recorded none w w') : Recorded run w w' := by
  obtain ⟨hbinding, ms, hms, h⟩ := h
  exact ⟨hbinding, ms, hms, fun bindings running _ => h bindings running nofun⟩

/-- A change that leaves one mark. -/
theorem of_mark {w w' : World} {m : Mark} (hbinding : w'.binding = w.binding)
    (hm : w'.history = w.history ++ [m])
    (hfits : ∀ bindings running, (∀ r, run = some r → running.head? = some r) →
      (w.ledger bindings running).Fits m)
    (hafter : ∀ bindings running, (w.ledger bindings running).after m =
      w'.ledger bindings running) :
    Recorded run w w' := by
  refine ⟨hbinding, [m], hm, fun bindings running hrun => ?_⟩
  rw [← hafter]
  exact .single (hfits bindings running hrun)

/-- A change of what the history does not account for. -/
theorem of_eq {w w' : World} (hhistory : w'.history = w.history) (hscopes : w'.scopes = w.scopes)
    (hbinding : w'.binding = w.binding) (hmappings : w'.mappings = w.mappings) :
      Recorded run w w' := by
  refine ⟨hbinding, [], by rw [hhistory, List.append_nil], fun bindings running _ => ?_⟩
  have h : w'.ledger bindings running = w.ledger bindings running := by
    rw [World.ledger, World.ledger, hscopes, hbinding, hmappings]
  rw [h]
  exact .nil

/-- Nothing is taken out of a history. -/
theorem grows {w w' : World} (h : Recorded run w w') : ∃ ms, w'.history = w.history ++ ms := by
  obtain ⟨-, ms, hms, -⟩ := h
  exact ⟨ms, hms⟩

theorem steady (run : Option RunId) : Action.Steady (Recorded run) where
  toStepwise := stepwise run
  onAlloc _ _ _ := of_eq rfl rfl rfl rfl
  onChange w v f _ := by
    rcases Action.alterations_eq v with h | ⟨r, h⟩
    · rw [h]
      exact of_eq (List.append_nil _) rfl rfl rfl
    · -- the mark of a fixture that changed says nothing about a ledger
      rw [h]
      exact of_mark rfl rfl (fun _ _ _ => trivial) fun _ _ => rfl
  onFrames _ _ := of_eq rfl rfl rfl rfl
  onQueue _ _ := of_eq rfl rfl rfl rfl
  onJoining _ _ := of_eq rfl rfl rfl rfl
  onNote _ _ _ := of_eq rfl rfl rfl rfl

end Recorded

namespace Action

variable {run : Option RunId} {ev : Evaluator} {host : Host}

/-! ## Actions that leave marks of their own -/

theorem observe_recorded (event : Event) (s : Subscriber) :
    Keeps (Recorded run) (observe event s) :=
  (Recorded.stepwise run).bind
    (fun _ => Recorded.of_mark rfl rfl (fun _ _ _ => trivial) fun _ _ => rfl)
    fun _ _ => Recorded.of_eq rfl rfl rfl rfl

theorem attach_recorded (type builder : Value) : Keeps (Recorded run) (attach type builder) :=
  fun _ => Recorded.of_mark rfl rfl (fun _ _ _ => trivial) fun _ _ => rfl

theorem enroll_recorded (type builder : Value) : Keeps (Recorded run) (enroll type builder) := by
  intro w
  refine Recorded.of_mark rfl rfl (fun _ _ _ => trivial) fun bindings running => ?_
  unfold enroll
  rw [run_modifyGet]
  cases h : w.heap.accepts type builder <;> rfl

theorem declareIn_recorded (id : RunId) (task : Value) : Keeps (Recorded run) (declareIn id task) :=
  fun _ => Recorded.of_mark rfl rfl (fun _ _ _ => rfl) fun _ _ => rfl

theorem offer_recorded (task : Value) : Keeps (Recorded run) (offer task) :=
  fun _ => Recorded.of_mark rfl rfl (fun _ _ _ => ⟨rfl, rfl⟩) fun _ _ => rfl

/-- The code that an action executes with a run bound stands between its being entered and left. -/
theorem withBinding_recorded {α : Type} (binding : Option RunId) {act : Action α}
    (h : Keeps (Recorded none) act) : Keeps (Recorded none) (withBinding binding act) := by
  intro w
  obtain ⟨-, ms, hms, hreplay⟩ := h (w.enter binding)
  refine ⟨rfl, .entered binding :: (ms ++ [.left]), ?_, fun bindings running hrun => ?_⟩
  · rw [run_withBinding, World.leave, hms]
    simp [World.enter]
  · exact .cons trivial ((hreplay (w.binding :: bindings) running hrun).append (.single trivial))

/-! ## Runs -/

/-- Code within a run that began and is given up. -/
theorem recorded_abandoned {w w' : World} {script : Text}
    (h : Recorded (some w.scopes.tasks.size) (w.beginRun script) w') :
    Recorded none w { w' with history := w'.history ++ [.abandoned w.scopes.tasks.size] } := by
  obtain ⟨hbinding, ms, hms, hreplay⟩ := h
  refine ⟨hbinding, .began w.scopes.tasks.size script :: (ms ++ [.abandoned w.scopes.tasks.size]),
    ?_,
    fun bindings running _ => ?_⟩
  · show w'.history ++ _ = _
    rw [hms]
    simp [World.beginRun]
  · have hinside := hreplay bindings (w.scopes.tasks.size :: running) fun r hr => by cases hr; rfl
    exact .cons rfl (hinside.append (.single rfl))

/-- Code within a run that began and ends. -/
theorem recorded_ended {w w' : World} {script : Text} (well : Bool)
    (h : Recorded (some w.scopes.tasks.size) (w.beginRun script) w') :
    Recorded none w (w'.endRun w.scopes.tasks.size script well) := by
  obtain ⟨hbinding, ms, hms, hreplay⟩ := h
  refine ⟨hbinding, .began w.scopes.tasks.size script :: (ms ++ [.ended w.scopes.tasks.size script
    (if well then some (w'.scopes.finish w.scopes.tasks.size).1 else none)]), ?_,
    fun bindings running _ => ?_⟩
  · show w'.history ++ _ = _
    rw [hms]
    simp [World.beginRun]
  · have hinside := hreplay bindings (w.scopes.tasks.size :: running) fun r hr => by cases hr; rfl
    refine .cons rfl (hinside.append (.single ⟨rfl, fun ts hts => ?_⟩))
    cases well
    · cases hts
    · exact (Option.some.inj hts).symm

/-! ## The law -/

theorem recorded_runLaw : RunLaw Recorded where
  steady := Recorded.steady
  onTypes _ _ := Recorded.of_eq rfl rfl rfl rfl
  within h := h.within
  observe := observe_recorded
  declareIn := declareIn_recorded
  offer := offer_recorded
  enroll := enroll_recorded
  attach := attach_recorded
  provideImports _ _ _ := Recorded.of_eq rfl rfl rfl rfl
  withBinding binding _ h := withBinding_recorded binding h
  counted id _ := Recorded.of_mark rfl rfl (fun _ _ hrun => ⟨hrun id rfl, rfl⟩) fun _ _ => rfl
  undescribed id _ := Recorded.of_mark rfl rfl (fun _ _ hrun => hrun id rfl) fun _ _ => rfl
  failed id _ _ _ := Recorded.of_mark rfl rfl (fun _ _ hrun => hrun id rfl) fun _ _ => rfl
  abandoned := recorded_abandoned
  ended := recorded_ended

/-- The history accounts for everything that an engine does. -/
theorem recorded_law (host : Host) : Law host (Recorded none) := recorded_runLaw.onHost host

end Action

/-! ## The current run -/

namespace Recorded

variable {w w' : World} (h : Recorded none w w')

include h

/-- A scope that is open stays open, and takes what is declared for its run. -/
theorem open?_eq : ∃ ms, w'.history = w.history ++ ms ∧ ∀ r tasks, w.scopes.open? r = some tasks →
    w'.scopes.open? r = some (tasks ++ ms.filterMap (Mark.taskFor r)) := by
  obtain ⟨-, ms, hms, hreplay⟩ := h
  refine ⟨ms, hms, fun r tasks htasks => ?_⟩
  -- the run counts as one that is being carried out around the marks
  have hsound : (w.ledger [] [r]).Sound := by
    refine ⟨List.nodup_cons.mpr ⟨List.not_mem_nil, List.nodup_nil⟩, fun s hs => ?_⟩
    rw [List.mem_singleton.mp hs]
    exact w.scopes.isOpen_iff.mpr ⟨tasks, htasks⟩
  exact (hreplay [] [r] nofun).open?_eq hsound List.mem_cons_self List.mem_cons_self htasks

/-- What is current stays current, if the run that is bound began. -/
theorem current?_eq (hbegun : ∀ r, w.binding = some r → r < w.scopes.tasks.size) :
    w'.scopes.current? w'.binding = w.scopes.current? w.binding := by
  obtain ⟨ms, -, hopen⟩ := h.open?_eq
  obtain ⟨hbinding, ns, -, hreplay⟩ := h
  rw [hbinding]
  cases hw : w.binding with
  | none => rfl
  | some r =>
    have hsame : w'.scopes.isOpen r = w.scopes.isOpen r := by
      cases htasks : w.scopes.open? r with
      | none =>
        have hclosed : w'.scopes.open? r = none :=
          (hreplay [] [] nofun).closed (hbegun r hw) htasks
        rw [Scopes.isOpen, Scopes.isOpen, hclosed, htasks]
      | some tasks => rw [Scopes.isOpen, Scopes.isOpen, hopen r tasks htasks, htasks]; rfl
    simp only [Scopes.current?, Option.bind_some, hsame]

end Recorded

end EvalPlan

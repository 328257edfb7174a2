import EvalPlan.Proofs.Shift.Reading

/-!
# Logging and events in moved worlds

What is logged and told follows in moved worlds: the loggers that a script put in place are called,
and the subscribers are, with events of the same types. What the entries and events say besides may
differ, since nothing that scripts do can read it.
-/

namespace EvalPlan

namespace Action

open Shift

variable {role : Role} {σ : Shift} {α β : Type} {ev : Evaluator} (hev : ev.Follows role σ)

/-- A moved datum. -/
def Datum.moved (σ : Shift) : Datum → Datum
  | .value v => .value (σ.value v)
  | .run id => .run (σ.run id)

/-! ## Logging -/

section logging

include hev

/-- Leaving an entry follows; the entries themselves are not compared. -/
theorem deposit_follows (sink : Sink) (level : Level) (message : Value)
    (data data' : Option Portrait) : Follows role σ id (deposit ev sink level message data)
      (deposit ev sink level (σ.value message) data') := by
  cases sink with
  | record => exact .heap fun _ => note_follows _ _
  | console component threshold =>
    exact .ite Iff.rfl (.bind (wordsMain_follows hev message) fun _ => note_follows _ _)
      (.pure id _)

/-- Writing through the object of a logger follows, also where a script replaced a method. -/
theorem writeThrough_follows (logger : Value) (sink : Sink) (level : Level) (message : Value)
    (data data' : Option Portrait) :
    Follows role σ id (writeThrough ev logger sink level message data)
      (writeThrough ev (σ.value logger) sink level (σ.value message) data') := by
  refine .bind (propertyMain_follows hev logger level.name) fun method => .heap fun {h h'} hh => ?_
  have hcalled : Follows role σ id
      (callProperty ev .main method logger [message] >>= fun _ => pure PUnit.unit)
      (callProperty ev .main (σ.value method) (σ.value logger) [σ.value message] >>= fun _ =>
        pure PUnit.unit) :=
    .bind (callPropertyMain_follows hev method logger [message]) fun _ => .pure id _
  rw [hh.callable?]
  cases h.callable? method with
  | none => exact hcalled
  | some c =>
    cases c with
    | logging level => exact deposit_follows hev sink level message data data'
    | _ => exact hcalled

/-- Labelling a message follows. -/
theorem labelledMessage_follows (l : Logger) (message : Value) :
    Follows role σ σ.value (labelledMessage ev l message)
      (labelledMessage ev l (σ.value message)) := by
  unfold labelledMessage
  cases l.scopes with
  | nil => exact .pure σ.value message
  | cons scope rest => exact .answer (wordsMain_follows hev message) fun _ => rfl

/-- Writing to a logger follows, however it is reached. -/
theorem write_follows (l : Logger) (level : Level) (message : Value)
    (data data' : Option Portrait) :
    Follows role σ id (write ev l level message data)
      (write ev l level (σ.value message) data') := by
  refine .bind (labelledMessage_follows hev l message) fun message => ?_
  cases l.reach with
  | direct => exact deposit_follows hev l.sink level message data data'
  | object =>
    have h := writeThrough_follows hev (.ref Fixture.logger.ref) l.sink level message data data'
    rwa [σ.value_ref, σ.ref_fixture] at h
  | engine =>
    have h := propertyMain_follows hev (.ref Fixture.engine.ref) "logger"
    rw [σ.value_ref, σ.ref_fixture] at h
    exact .bind h fun logger => writeThrough_follows hev logger l.sink level message data data'

/-- So does logging a message with fields. -/
theorem log_follows (l : Logger) (level : Level) (message : Text)
    (fields fields' : List (Text × Datum)) :
    Follows role σ id (log ev l level message fields) (log ev l level message fields') :=
  .heap fun _ => write_follows hev l level (.text message) _ _

end logging

/-! ## Events -/

/-- Observing an event follows as observing any other. -/
theorem observe_follows (event event' : Event) (s : Subscriber) :
    Follows role σ id (observe event s) (observe event' s) :=
  .bind (mark_follows rfl) fun _ => note_follows _ _

section delivery

include hev

/-- What a subscriber does follows if what it throws does not move. -/
theorem react_follows (event event' : Event) (s : Subscriber)
    (hs : ∀ v, s.reaction = .fail v → σ.value v = v) :
    Follows role σ id (react ev event s) (react ev event' s) := by
  unfold react
  cases hreaction : s.reaction with
  | observe => exact observe_follows event event' s
  | fail v =>
    have h : Follows role σ (@id PUnit) (MonadExcept.throw v) (MonadExcept.throw (σ.value v)) :=
      .throw id v
    rwa [hs v hreaction] at h
  | logFinish logger => exact write_follows hev logger .info (.text "Script finished") _ _

/-- Reporting a subscriber that threw follows. -/
theorem reportFailure_follows (host : Host) (event event' : Event) (thrown : Value) :
    Follows role σ id (reportFailure host ev event thrown)
      (reportFailure host ev event' (σ.value thrown)) :=
  .bind (describe_follows hev thrown) fun _ => log_follows hev _ _ _ _ _

/-- A delivery follows. -/
theorem deliver_follows (host : Host) (event event' : Event) (s : Subscriber)
    (hs : ∀ v, s.reaction = .fail v → σ.value v = v) :
    Follows role σ id (deliver host ev event s) (deliver host ev event' s) :=
  .tryCatch (react_follows hev event event' s hs) fun thrown =>
    reportFailure_follows hev host event event' thrown

end delivery

/-- To call subscribers one after another is to carry their deliveries out in order. -/
theorem callAll_eq_run (host : Host) (ev : Evaluator) (event : Event)
    (subscribers : List Subscriber) (w : World) :
    (hub host ev).callAll event subscribers w =
      ExceptT.run (subscribers.forM fun s => deliver host ev event s) w := by
  induction subscribers generalizing w with
  | nil => rfl
  | cons s rest ih =>
    show _ = ExceptT.run (deliver host ev event s >>= fun _ => rest.forM _) w
    rw [Hub.callAll, run_bind]
    rw [show (hub host ev).handle event s w = ExceptT.run (deliver host ev event s) w from rfl]
    rcases ExceptT.run (deliver host ev event s) w with ⟨_ | _, w'⟩
    · rfl
    · exact ih w'

include hev

/-- The same subscribers are called in both worlds, in the same order. -/
theorem publish_follows (host : Host) (type : Text) (data data' : Option Portrait)
    (run run' : Option RunId) :
    Follows role σ id (publish host ev type data run) (publish host ev type data' run') := by
  have hsubscribers {s : Surroundings} {a c : World} (hw : σ.Worlds s a c) (event event' : Event) :
      Follows role σ id ((audience a event).forM fun s => deliver host ev event s)
        ((audience a event).forM fun s => deliver host ev event' s) := by
    have hforM : Follows role σ id ((audience a event).forM fun s => deliver host ev event s)
        (((audience a event).map id).forM fun s => deliver host ev event' s) := by
      refine .forM fun s hs => deliver_follows hev host event event' s fun v hv => ?_
      rcases List.mem_append.mp hs with hs | hs
      · obtain ⟨c, sub, hsub, rfl⟩ := Bus.exists_subscription hs
        exact hw.keeps.subscribers c sub hsub v hv
      · obtain ⟨c, sub, hsub, rfl⟩ := Bus.exists_subscription hs
        exact hw.keeps.subscribers c sub hsub v hv
    rwa [List.map_id] at hforM
  -- telling is delivering to those who are told, who are the same in both worlds
  have hrun {s : Surroundings} {a c : World} (hw : σ.Worlds s a c) :
      ExceptT.run (publish host ev type data run) a =
          ExceptT.run ((audience a ⟨type, Clock.iso a.clock, run, data⟩).forM fun s =>
            deliver host ev ⟨type, Clock.iso a.clock, run, data⟩ s) a ∧
        ExceptT.run (publish host ev type data' run') c =
          ExceptT.run ((audience a ⟨type, Clock.iso a.clock, run, data⟩).forM fun s =>
            deliver host ev ⟨type, Clock.iso c.clock, run', data'⟩ s) c := by
    have haudience : audience c ⟨type, Clock.iso c.clock, run', data'⟩ =
        audience a ⟨type, Clock.iso a.clock, run, data⟩ := by
      unfold audience
      rw [hw.bus]
    rw [run_publish_eq hev.bus host hw.keeps.ordered, callAll_eq_run,
      run_publish_eq hev.bus host (hw.bus ▸ hw.keeps.ordered), callAll_eq_run, haudience]
    exact ⟨rfl, rfl⟩
  constructor
  · intro outer a c hw
    obtain ⟨ha, hc⟩ := hrun hw
    rw [ha, hc]
    exact (hsubscribers hw ⟨type, _, run, data⟩ ⟨type, _, run', data'⟩).free hw
  · intro hrole outer a c hw hstrays
    obtain ⟨ha, hc⟩ := hrun hw
    rw [ha] at hstrays ⊢
    rw [hc]
    exact (hsubscribers hw ⟨type, _, run, data⟩ ⟨type, _, run', data'⟩).within hrole hw hstrays

omit hev in
/-- The identifier of a run is shown alike whichever run it is. -/
theorem shown_moved (d : Datum) : (d.moved σ).shown = σ.value d.shown := by cases d <;> rfl

omit hev in
/-- Making an object of the main realm follows. -/
theorem recordMain_follows (members : List (Text × Value)) :
    Follows role σ σ.value (record .main members) (record .main (members.map σ.row)) := by
  have h : Follows role σ σ.value (record .main members) _ := record_follows .main members
  rwa [realm_main] at h

omit hev in
/-- Making the object of an event follows. -/
theorem eventObject_follows (type : Text) (fields : List (Text × Datum)) (run : Option RunId) :
    Follows role σ σ.value (eventObject type fields run)
      (eventObject type (fields.map fun f => (f.1, f.2.moved σ)) (run.map σ.run)) := by
  refine .get fun {s a c} hw => ?_
  have hshown : ((fields.map fun f => (f.1, f.2.moved σ)).map fun f => (f.1, f.2.shown)) =
      (fields.map fun f => (f.1, f.2.shown)).map σ.row := by
    simp only [List.map_map]
    exact List.map_congr_left fun f _ => congrArg (Prod.mk f.1) (shown_moved f.2)
  dsimp only
  rw [hw.clock, hshown]
  refine .bind (recordMain_follows _) fun data => ?_
  cases run <;> exact recordMain_follows _

omit hev in
/-- Whether a value is an operation of the engine is the same in both heaps. -/
theorem isOperation_follows {h h' : Heap} (hh : σ.Heaps h h') (v : Value) (o : Operation) :
    isOperation h' (σ.value v) o = isOperation h v o := by
  unfold isOperation
  rw [hh.callable?]
  cases h.callable? v with
  | none => rfl
  | some c => cases c <;> rfl

/-- Emitting an event follows, also where a script replaced what emits it. -/
theorem emit_follows (host : Host) (type : Text) (fields : List (Text × Datum))
    (run : Option RunId) : Follows role σ id (emit host ev type fields run)
      (emit host ev type (fields.map fun f => (f.1, f.2.moved σ)) (run.map σ.run)) := by
  have hfacade (name : Text) :
    Follows role σ σ.value (property ev .main (.ref host.role.facade) name)
      (property ev .main (.ref host.role.facade) name) := by
    have h := propertyMain_follows hev (.ref host.role.facade) name
    rwa [σ.value_ref, σ.ref_facade] at h
  refine .bind (hfacade Operation.emit.name) fun own => .heap fun {h h'} hh => ?_
  refine .cond (isOperation_follows hh own .emit) ?_ ?_
  · refine .bind (hfacade "eventBus") fun bus => ?_
    refine .bind (propertyMain_follows hev bus Operation.publish.name) fun deliver =>
      .heap fun hh => ?_
    refine .cond (isOperation_follows hh deliver .publish)
      (.heap fun _ => publish_follows hev host type _ _ _ _) ?_
    exact .bind (eventObject_follows type fields run) fun event =>
      .bind (callPropertyMain_follows hev deliver bus [event]) fun _ => .pure id _
  · refine .bind (eventObject_follows type fields run) fun event => ?_
    have h := callPropertyMain_follows hev own (.ref host.role.facade) [event]
    rw [σ.value_ref, σ.ref_facade] at h
    exact .bind h fun _ => .pure id _

end Action

end EvalPlan

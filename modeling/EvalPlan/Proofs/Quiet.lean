import EvalPlan.Proofs.Bus
import EvalPlan.Proofs.Fixture
import EvalPlan.Proofs.Law.Keeping
import EvalPlan.Proofs.Run

/-!
# Logging and telling where all is quiet

A world is quiet if scripts left the engine's parts as they were made, no name is computed, and no
subscriber throws or calls back. In a quiet world nothing that is logged or told runs code of a
script: `run_log` and `run_emit` say exactly what is left of it, for every logger and every host
that is an engine.
-/

namespace EvalPlan

open EvalPlan.Action (Datum)

/-! ## Names that are held -/

namespace Heap

/-- No object computes its name. -/
def Named (h : Heap) : Prop := ∀ (r : Ref) (o : Object), h[r]? = some o → o.HoldsName

variable {h : Heap}

/-- Functions still have names with one more that has one. -/
theorem Named.push (hn : h.Named) {o : Object} (ho : o.HoldsName) : Named (h.push o) := by
  intro r o' hr
  rw [Array.getElem?_push] at hr
  split at hr
  · cases hr
    exact ho
  · exact hn r o' hr

/-- So they have after a change that leaves names alone. -/
theorem Named.update (hn : h.Named) (v : Value) {f : Object → Object}
    (hf : ∀ o, o.HoldsName → (f o).HoldsName) :
    (h.update v f).Named := by
  intro r o hr
  rw [getElem?_update] at hr
  split at hr
  · obtain ⟨o', ho', rfl⟩ := Option.map_eq_some_iff.mp hr
    split
    · exact hn r o' ho'
    · exact hf o' (hn r o' ho')
  · exact hn r o hr

/-- Marking a builder leaves names alone. -/
theorem Named.mark (hn : h.Named) (type builder : Value) : (h.mark type builder).Named :=
  hn.update type fun _ ho => ho

/-- The name of an object that has names above it is a value. -/
theorem slotWithin_name (hn : h.Named) (n : Nat) {r : Ref} {s : Slot}
    (hs : h.slotWithin "name" n r = some s) :
    s.value?.isSome = true := by
  -- the induction is on the parents that may be looked at
  induction n generalizing r with
  | zero => cases hs
  | succ n ih =>
    unfold slotWithin at hs
    split at hs
    · cases hs
    next o ho =>
      split at hs
      next s' hown =>
        cases hs
        rw [Intact.value?_guarded]
        -- a list holds its items and its length; everything else is among the slots
        have hslot (hget : o.slots.get? "name" = some s') : s'.value?.isSome = true := by
          obtain ⟨name, hname, hmem⟩ := Table.mem_of_get? hget
          exact hn r o ho _ hmem (eq_of_beq hname)
        unfold Object.own? at hown
        split at hown
        · split at hown
          · cases hown
            rfl
          · split at hown
            · cases hown
              rfl
            · exact hslot hown
        · exact hslot hown
      · obtain ⟨p, -, hp⟩ := Option.bind_eq_some_iff.mp hs
        exact ih hp

/-- Where no object computes its name, every value holds one or has none. -/
theorem find?_name (hn : h.Named) {v : Value} {s : Slot} (hs : h.find? .main v "name" = some s) :
    s.value?.isSome = true := by
  cases v with
  | undefined => cases hs
  | null => cases hs
  | text t =>
    simp only [find?] at hs
    split at hs
    next s' ht =>
      cases hs
      -- a text holds its length and its units itself
      unfold ofText? at ht
      split at ht
      · cases ht
        rfl
      · obtain ⟨u, -, rfl⟩ := Option.map_eq_some_iff.mp ht
        rfl
    · exact slotWithin_name hn _ hs
  | _ => exact slotWithin_name hn _ hs

end Heap

/-- Of properties that are listed, the name is held. -/
theorem Object.holdsName_of_all {o : Object}
    (h : o.slots.all (fun row => row.1 != Text.ofString "name" || row.2.value?.isSome) = true) :
      o.HoldsName := by
  intro row hrow hname
  have hheld := List.all_eq_true.mp h row hrow
  rw [hname, bne_self_eq_false, Bool.false_or] at hheld
  exact hheld

/-- The objects of the engine have their names. -/
theorem Fixture.holdsName_objects : ∀ o ∈ Fixture.objects, o.HoldsName := by
  have hall : Fixture.objects.all (fun o => o.slots.all fun row =>
      row.1 != Text.ofString "name" || row.2.value?.isSome) = true := by
    decide +kernel
  exact fun o ho => Object.holdsName_of_all (List.all_eq_true.mp hall o ho)

/-- So have those of the domain. -/
theorem Domain.holdsName_objects : ∀ o ∈ Domain.objects, o.HoldsName := by
  have hall : Domain.objects.all (fun o => o.slots.all fun row =>
      row.1 != Text.ofString "name" || row.2.value?.isSome) = true := by
    decide +kernel
  exact fun o ho => Object.holdsName_of_all (List.all_eq_true.mp hall o ho)

/-- No object that a world begins with computes its name. -/
theorem Heap.named_initial {others : List Object} (h : ∀ o ∈ others, o.HoldsName) :
    Named (Realm.main.objects ++ Fixture.objects ++ others).toArray := by
  intro r o hr
  rw [List.getElem?_toArray] at hr
  rcases List.mem_append.mp (List.mem_of_getElem? hr) with hmem | hmem
  · rcases List.mem_append.mp hmem with hmem | hmem
    · exact Realm.holdsName_objects _ o hmem
    · exact Fixture.holdsName_objects o hmem
  · exact h o hmem

/-! ## Reading properties -/

namespace Action

variable {ev : Evaluator} {w : World}

/-- A property that holds a value is read, and nothing is called. -/
theorem run_property {realm : Realm} {v x : Value} {name : Text} {s : Slot}
    (hv : v.isNullish = false)
    (hs : w.heap.find? realm v name = some s) (hx : s.value? = some x) :
    ExceptT.run (property ev realm v name) w = (.ok x, w) := by
  unfold property
  rw [if_neg (by rw [hv]; exact Bool.false_ne_true), run_bind_ok (run_heap w), hs]
  cases s with
  | data y shown fixed =>
    cases hx
    rfl
  | computed getter setter => cases hx

/-- The same for an object. -/
theorem run_property_ref {realm : Realm} {r : Ref} {x : Value} {name : Text}
    (h : ∃ s, w.heap.slot? r name = some s ∧ s.value? = some x) :
    ExceptT.run (property ev realm (.ref r) name) w = (.ok x, w) := by
  obtain ⟨s, hs, hx⟩ := h
  exact run_property rfl hs hx

/-- The name of a value is what it holds as its name. -/
theorem run_nameOf (ev : Evaluator) (hn : w.heap.Named) {v : Value} (hv : v.isNullish = false) :
    ∃ name, w.heap.heldName? v = some name ∧ ExceptT.run (nameOf ev v) w = (.ok name, w) := by
  unfold nameOf Heap.heldName?
  cases hs : w.heap.find? .main v "name" with
  -- what has no name answers that it has none
  | none =>
    refine ⟨.undefined, rfl, ?_⟩
    unfold property
    rw [if_neg (by rw [hv]; exact Bool.false_ne_true), run_bind_ok (run_heap w), hs]
    rfl
  | some s =>
    obtain ⟨x, hx⟩ := Option.isSome_iff_exists.mp (Heap.find?_name hn hs)
    exact ⟨x, hx, run_property hv hs hx⟩

end Action

/-! ## The log -/

/-- What is left where entries go. -/
def Sink.leaves (sink : Sink) (level : Level) (message : Text) (data : Option Portrait) :
    List Notice :=
  match sink with
  | .record => [.entry level (.text message) data]
  | .console component threshold =>
    if threshold.admits level then
      [.line (.level level) [.text (Logger.bracketed component ++ message), data.getD (.text [])]]
    else []

/-- What writing a message to a logger leaves. -/
def Logger.leaves (l : Logger) (level : Level) (message : Text) (data : Option Portrait) :
    List Notice :=
  l.sink.leaves level (l.labelled message) data

/-- The methods of a logger are those that it was made with: scripts know nothing of it, or have
left the engine's parts as they were made. -/
def Logger.Works (l : Logger) (h : Heap) : Prop := l.reach ≠ .direct → h.Intact

/-- A world with more notices. -/
def World.noting (w : World) (notices : List Notice) :
    World := { w with notices := w.notices ++ notices }

namespace Action

variable {w : World} (ev : Evaluator)

/-- A sink that works takes the entry. -/
theorem run_deposit (sink : Sink) (level : Level) (message : Text) (data : Option Portrait) :
    ExceptT.run (deposit ev sink level (.text message) data) w =
      (.ok ⟨⟩, w.noting (sink.leaves level message data)) := by
  cases sink with
  | record => rfl
  | console component threshold =>
    simp only [deposit, Sink.leaves]
    split
    · rfl
    · simp [World.noting]

section intact

variable (hi : w.heap.Intact)

include hi

/-- It does so through the object of the logger. -/
theorem run_writeThrough (sink : Sink) (level : Level) (message : Text) (data : Option Portrait) :
    ExceptT.run (writeThrough ev (.ref Fixture.logger.ref) sink level (.text message) data) w =
      (.ok ⟨⟩, w.noting (sink.leaves level message data)) := by
  unfold writeThrough
  rw [run_bind_ok (run_property_ref (hi.logging_found level)), run_bind_ok (run_heap w),
    hi.callable?_logging level]
  exact run_deposit ev sink level message data

end intact

section works

variable {l : Logger} (works : l.Works w.heap)

include works

/-- Writing to a logger that works leaves what its message and its fields say, however the logger is
reached. -/
theorem run_write_works (level : Level) (message : Text) (data : Option Portrait) :
    ExceptT.run (write ev l level (.text message) data) w =
      (.ok ⟨⟩, w.noting (l.leaves level message data)) := by
  have hlabelled : ExceptT.run (labelledMessage ev l (.text message)) w =
      (.ok (.text (l.labelled message)), w) := by
    unfold labelledMessage Logger.labelled
    cases l.scopes <;> rfl
  unfold write Logger.leaves
  rw [run_bind_ok hlabelled]
  -- the logger is reached directly, as an object, or as a property of the engine
  cases hreach : l.reach with
  | direct => exact run_deposit ev l.sink level _ data
  | object => exact run_writeThrough ev (works (hreach ▸ nofun)) l.sink level _ data
  | engine =>
    have hi := works (hreach ▸ nofun)
    simp only
    rw [run_bind_ok (run_property_ref hi.logger_found)]
    exact run_writeThrough ev hi l.sink level _ data

/-- A logger that works leaves its entry. -/
theorem run_log_works (level : Level) (message : Text) (fields : List (Text × Datum)) :
    ExceptT.run (log ev l level message fields) w =
      (.ok ⟨⟩, w.noting (l.leaves level message (some (fieldsPortrait w.heap fields)))) := by
  unfold log
  rw [run_bind_ok (run_heap w)]
  exact run_write_works ev works level message _

end works

variable (hi : w.heap.Intact) (l : Logger)

include hi

/-- In a quiet world writing leaves the entry. -/
theorem run_write (level : Level) (message : Text) (data : Option Portrait) :
    ExceptT.run (write ev l level (.text message) data) w =
      (.ok ⟨⟩, w.noting (l.leaves level message data)) :=
  run_write_works ev (fun _ => hi) level message data

/-- So does logging with fields. -/
theorem run_log (level : Level) (message : Text) (fields : List (Text × Datum)) :
    ExceptT.run (log ev l level message fields) w =
      (.ok ⟨⟩, w.noting (l.leaves level message (some (fieldsPortrait w.heap fields)))) :=
  run_log_works ev (fun _ => hi) level message fields

end Action

/-! ## Events -/

namespace Subscriber

/-- The subscriber neither throws nor calls anybody back. -/
def isMild (s : Subscriber) : Bool :=
  match s.reaction with
  | .fail _ => false
  | _ => true

/-- The subscriber is the one with this number, and it observes. -/
def observesAs (k : Nat) (s : Subscriber) : Bool :=
  match s.reaction with
  | .observe => s.id == k
  | _ => false

/-- The mark that a subscriber was told an event. -/
def hears (event : Event) (s : Subscriber) : List Mark :=
  match s.reaction with
  | .observe => [.told s.id event]
  | _ => []

/-- What a subscriber leaves when it is called with an event. -/
def leaves (event : Event) (s : Subscriber) : List Notice :=
  match s.reaction with
  | .observe => [.event event.type event.data event.run]
  | .logFinish logger => logger.leaves .info "Script finished" event.data
  | .fail _ => []

end Subscriber

namespace World

/-- The world after subscribers were told an event. -/
def telling (w : World) (event : Event) (subscribers : List Subscriber) : World :=
  { w with
    notices := w.notices ++ subscribers.flatMap (Subscriber.leaves event)
    history := w.history ++ subscribers.flatMap (Subscriber.hears event) }

/-- Subscribers that are told one after another are told together. -/
theorem foldl_telling (event : Event) (subscribers : List Subscriber) (w : World) :
    subscribers.foldl (fun w s => w.telling event [s]) w = w.telling event subscribers := by
  induction subscribers generalizing w with
  | nil => simp [telling]
  | cons s rest ih =>
    rw [List.foldl_cons, ih]
    simp [telling, List.append_assoc]

/-- Neither scripts nor subscribers stand in the way of what is logged and told. -/
structure Quiet (w : World) : Prop where
  intact : w.heap.Intact
  named : w.heap.Named
  ordered : w.bus.Ordered
  mild : ∀ c, ∀ s ∈ w.bus.channel c, s.handler.isMild = true

/-- What is noted and what happens does not matter for quiet. -/
theorem Quiet.of_eq {w w' : World} (h : w.Quiet) (hheap : w'.heap = w.heap)
    (hbus : w'.bus = w.bus) : w'.Quiet where
  intact := by rw [hheap]; exact h.intact
  named := by rw [hheap]; exact h.named
  ordered := by rw [hbus]; exact h.ordered
  mild := by rw [hbus]; exact h.mild

end World

namespace Action

variable {w : World} {host : Host} (ev : Evaluator)

/-- A mild subscriber leaves what it leaves, and no subscription changes. -/
theorem hub_calm (host : Host) (event : Event) :
    (hub host ev).Calm event World.Quiet fun s w => w.telling event [s] := by
  intro w hquiet c sub hsub
  refine ⟨?_, hquiet.of_eq rfl rfl, rfl⟩
  have hmild := hquiet.mild c sub hsub
  obtain ⟨serial, id, reaction⟩ := sub
  have hreact : ExceptT.run (react ev event ⟨id, reaction⟩) w =
      (.ok ⟨⟩, w.telling event [⟨id, reaction⟩]) := by
    -- a subscriber that fails is not mild
    cases reaction with
    | observe => rfl
    | fail v => cases hmild
    | logFinish logger =>
      refine (run_write ev hquiet.intact logger .info "Script finished" event.data).trans ?_
      simp [World.noting, World.telling, Subscriber.leaves, Subscriber.hears]
  show ExceptT.run (deliver host ev event ⟨id, reaction⟩) w = _
  rw [deliver, run_tryCatch, hreact]

/-- The subscribers that are told an event, in order. -/
def audience (w : World) (event : Event) : List Subscriber :=
  w.bus.handlers event.type ++ w.bus.handlers Event.any

/-- Publishing tells the audience, and nobody disturbs. -/
theorem run_publish (hquiet : w.Quiet) (type : Text) (data : Option Portrait) (run : Option RunId) :
    ExceptT.run (publish host ev type data run) w =
      (.ok ⟨⟩, w.telling ⟨type, Clock.iso w.clock, run, data⟩
        (audience w ⟨type, Clock.iso w.clock, run, data⟩)) := by
  have hemit := Hub.emit_eq (hub_calm ev host ⟨type, Clock.iso w.clock, run, data⟩)
    hquiet hquiet.ordered (Nat.lt_succ_self _)
  have hbus : (hub host ev).bus w = w.bus := rfl
  rw [hbus, World.foldl_telling] at hemit
  unfold publish
  rw [run_bind_ok (run_get w)]
  simp only
  rw [hemit]
  rfl

/-- What is found under the names of the operations are the operations. -/
theorem isOperation_fixture (hi : w.heap.Intact) (o : Operation) :
    isOperation w.heap (.ref (Fixture.operation o).ref) o = true := by
  rw [isOperation, hi.callable?_operation o]
  cases o <;> rfl

/-- An engine whose parts are as they were made emits an event by publishing it. -/
theorem run_emit_eq (hi : w.heap.Intact) (hrole : host.role = .engine) (type : Text)
    (fields : List (Text × Datum)) (run : Option RunId) :
    ExceptT.run (emit host ev type fields run) w =
      ExceptT.run (publish host ev type (some (fieldsPortrait w.heap fields)) run) w := by
  unfold emit
  rw [hrole]
  dsimp only [Role.facade]
  rw [run_bind_ok (run_property_ref hi.emit_found), run_bind_ok (run_heap w),
    if_pos (isOperation_fixture hi .emit), run_bind_ok (run_property_ref hi.bus_found),
    run_bind_ok (run_property_ref hi.publish_found), run_bind_ok (run_heap w),
    if_pos (isOperation_fixture hi .publish), run_bind_ok (run_heap w)]

/-- Emitting an event of an engine tells it to its audience. -/
theorem run_emit (hquiet : w.Quiet) (hrole : host.role = .engine) (type : Text)
    (fields : List (Text × Datum))
    (run : Option RunId) : ∃ event : Event, event.type = type ∧ event.run = run ∧
      event.data = some (fieldsPortrait w.heap fields) ∧
      ExceptT.run (emit host ev type fields run) w =
        (.ok ⟨⟩, w.telling event (audience w event)) := by
  refine ⟨⟨type, Clock.iso w.clock, run, some (fieldsPortrait w.heap fields)⟩, rfl, rfl, rfl, ?_⟩
  rw [run_emit_eq ev hquiet.intact hrole]
  exact run_publish ev hquiet type _ run

end Action

end EvalPlan

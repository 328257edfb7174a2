import EvalPlan.Engine
import EvalPlan.Proofs.Ancestry
import EvalPlan.Proofs.Keys
import EvalPlan.Proofs.Quiet

/-!
# Loading default builders

What loading default builders comes to where the engine is as it was made (`World.Furnished`). A
manifest that cannot be read ends it before anything is registered. Otherwise the rows of all
manifests are merged: a row that names no type, no builder or something else than a builder is
logged, and the others are registered in their order (`loadsDefaults`).
-/

namespace EvalPlan

open EvalPlan.Action (Datum fieldsPortrait audience errorObject problemObject)

/-! ## Merged rows -/

/-- The rows that a manifest holds, one for each entry. -/
def Manifest.rows (t : Text) : List (Text × Text) := (entries t).map fun e => (e.key, e.value)

/-- The table of a manifest puts its rows one after the other. -/
theorem Manifest.parse_eq (t : Text) : parse t = Table.putAll [] (rows t) := by
  rw [parse, rows, Table.putAll, List.foldl_map]

/-- To merge manifests is to put the rows of all of them one by one. -/
theorem mergeManifests_eq (texts : List Text) :
    mergeManifests texts = Table.putAll [] (texts.flatMap Manifest.rows) := by
  suffices h : ∀ table : Table Text Text,
      texts.foldl (fun table t => table.putAll (Manifest.parse t)) table =
        table.putAll (texts.flatMap Manifest.rows) from h []
  induction texts with
  | nil => exact fun _ => rfl
  | cons t texts ih =>
    intro table
    rw [List.foldl_cons, Manifest.parse_eq, Table.putAll_ofRows, ih]
    simp [Table.putAll]

/-! ## What rows stand for -/

namespace World

/-- The type and the builder that a row names, if both are known and the builder is one. -/
def pair? (w : World) (row : Text × Text) : Option (Value × Value) :=
  match w.types.table.get? row.1, w.types.table.get? row.2 with
  | some type, some builder => if w.heap.isBuilder builder then some (type, builder) else none
  | _, _ => none

/-- The engine is as it was made, no object inherits from itself or from what is not there, and each
known name stands for a class, as names do that were defined one by one. -/
structure Furnished (w : World) : Prop where
  quiet : w.Quiet
  rooted : w.heap.Rooted
  classes : ∀ row ∈ w.types.table, w.heap.isType row.2 = true
  whole : w.types.broken = none

/-- Nothing that matters to loading default builders has changed since. -/
structure Continues (w w' : World) : Prop where
  quiet : w'.Quiet
  gains : w.heap.Gains w'.heap
  types : w'.types = w.types
  bus : w'.bus = w.bus

/-- What is asked of a world that goes on concerns its heap, its types and its bus only. -/
theorem Continues.of_eq {w w₁ w₂ : World} (h : w.Continues w₁) (hheap : w₂.heap = w₁.heap)
    (htypes : w₂.types = w₁.types) (hbus : w₂.bus = w₁.bus) : w.Continues w₂ where
  quiet := h.quiet.of_eq hheap hbus
  gains := by rw [hheap]; exact h.gains
  types := htypes.trans h.types
  bus := hbus.trans h.bus

/-- The world with one more object. -/
def adding (w : World) (o : Object) : World := { w with heap := w.heap.push o }

/-- The object that is added is there. -/
theorem object?_adding (w : World) (o : Object) :
    (w.adding o).heap.object? (.ref w.heap.size) = some o := by
  simp [adding, Heap.object?]

/-- A world stays quiet with one object more that holds its name. -/
theorem Quiet.adding {w : World} (h : w.Quiet) {o : Object} (ho : o.HoldsName) :
    (w.adding o).Quiet where
  intact := h.intact.push o
  named := h.named.push ho
  ordered := h.ordered
  mild := h.mild

/-- It goes on with such an object if this is no function. -/
theorem Continues.adding {w w' : World} (h : w.Continues w') {o : Object} (ho : o.HoldsName)
    (hshape : ∀ c, o.shape ≠ .callable c) : w.Continues (w'.adding o) where
  quiet := h.quiet.adding ho
  gains := h.gains.trans (w'.heap.gains_push hshape)
  types := h.types
  bus := h.bus

end World

/-- The message of the error that a listener throws. -/
def Callback.failure? : Callback → Option Text
  | .fail message => some message
  | .noteThenFail message => some message
  | _ => none

/-- What a listener is told of a registration. -/
def Host.Announces (host : Host) (w : World) (h : Heap) (type builder : Value)
    (told : List Notice) : Prop :=
  match host.onRegister with
  | .absent => told = []
  | .fail _ => told = []
  | .note => told = [.registered (h.portrait type) (h.portrait builder)]
  | .noteThenFail _ => told = [.registered (h.portrait type) (h.portrait builder)]
  | .emit => ∃ event : Event, event.type = "builder:registered" ∧ event.run = none ∧
      (∃ typeName builderName, h.heldName? type = some typeName ∧
        h.heldName? builder = some builderName ∧
        event.data = some (fieldsPortrait h [("type", typeName), ("builder", builderName)])) ∧
      told = (audience w event).flatMap (Subscriber.leaves event)

/-- How telling a listener comes out. -/
def Callback.Gives (c : Callback) (h : Heap) {α : Type} (a : α) (r : Except Value α) : Prop :=
  match c.failure? with
  | none => r = .ok a
  | some message => ∃ thrown, r = .error thrown ∧
      h.object? thrown = some (errorObject .general .main (some message))

/-- What a callback gives can be answered for. -/
theorem Callback.Gives.map {c : Callback} {h : Heap} {α β : Type} {a : α} {r : Except Value α}
    (hgives : c.Gives h a r) (b : β) : c.Gives h b (r.map fun _ => b) := by
  unfold Callback.Gives at hgives ⊢
  cases hfailure : c.failure? with
  | none =>
    simp only [hfailure] at hgives ⊢
    rw [hgives]
    rfl
  | some message =>
    simp only [hfailure] at hgives ⊢
    obtain ⟨thrown, rfl, hthrown⟩ := hgives
    exact ⟨thrown, rfl, hthrown⟩

/-- What texts under keys look like. -/
def textsPortrait (fields : List (Text × Text)) : Portrait :=
  .object (some "Object") (fields.map fun f => (f.1, .text f.2))

/-- What settling a row of the merged manifests leaves, by what its names stand for. -/
inductive RowLeaves (host : Host) (w : World) (row : Text × Text) : List Notice → Prop
  /-- No type has the name. -/
  | unknownType : w.types.table.get? row.1 = none →
      RowLeaves host w row (host.loggers.registry.leaves .warn
        "Builder registered for nonexistent type" (some (textsPortrait [("type", row.1)])))
  /-- The type is known, but not the builder. -/
  | unknownBuilder {type : Value} : w.types.table.get? row.1 = some type →
      w.types.table.get? row.2 = none →
      RowLeaves host w row (host.loggers.registry.leaves .error "Builder class not found"
        (some (textsPortrait [("type", row.1), ("builder", row.2)])))
  /-- What is named as a builder is none. -/
  | notBuilder {type builder : Value} : w.types.table.get? row.1 = some type →
      w.types.table.get? row.2 = some builder → w.heap.isBuilder builder = false →
      RowLeaves host w row (host.loggers.registry.leaves .error "Class is not a builder"
        (some (textsPortrait [("type", row.1), ("builder", row.2)])))
  /-- The builder is registered. -/
  | registered {type builder typeName builderName : Value} {h : Heap} {told : List Notice} :
      w.pair? row = some (type, builder) → w.heap.Gains h → h.heldName? type = some typeName →
      h.heldName? builder = some builderName → host.Announces w h type builder told →
      RowLeaves host w row (host.loggers.registry.leaves .debug "Builder registered"
        (some (fieldsPortrait h [("type", typeName), ("builder", builderName)])) ++ told)

/-- What was done about a row. -/
structure RowDone (host : Host) (w w₁ w₂ : World) (row : Text × Text) (part : List Notice) :
    Prop where
  continues : w.Continues w₂
  leaves : RowLeaves host w row part
  mappings : w₂.mappings = w₁.mappings.putAll (w.pair? row).toList
  notices : w₂.notices = w₁.notices ++ part

namespace Action

variable {host : Host} {ev : Evaluator} {w w₁ : World}

/-! ## Looking types up -/

/-- A type that is defined is loaded. -/
theorem run_loadExact_known (hwhole : w.types.broken = none) {name : Text} {type : Value}
    (h : w.types.table.get? name = some type) :
    ExceptT.run (loadExact name) w = (.ok type, w) := by
  unfold loadExact
  rw [run_bind_ok (run_get w), hwhole]
  simp only [h]
  rfl

/-- One that is not defined is an error that names it. -/
theorem run_loadExact_unknown (hwhole : w.types.broken = none) {name : Text}
    (h : w.types.table.get? name = none) :
    ExceptT.run (loadExact name) w =
      (.error (.ref w.heap.size), w.adding (problemObject (.unknownType (.text name) name))) := by
  unfold loadExact
  rw [run_bind_ok (run_get w), hwhole]
  simp only [h]
  rfl

/-- Trying to load a type that is defined answers it. -/
theorem run_tryLoad_known (hwhole : w.types.broken = none) {name : Text} {type : Value}
    (h : w.types.table.get? name = some type) :
    ExceptT.run (tryLoad name) w = (.ok (some type), w) := by
  unfold tryLoad
  rw [run_tryCatch, run_bind_ok (run_loadExact_known hwhole h)]
  rfl

/-- A name that is not known makes an error, which is caught. -/
theorem run_tryLoad_unknown (hwhole : w.types.broken = none) {name : Text}
    (h : w.types.table.get? name = none) :
    ExceptT.run (tryLoad name) w =
      (.ok none, w.adding (problemObject (.unknownType (.text name) name))) := by
  have hkind : Heap.errorKind? (w.heap.push (problemObject (.unknownType (.text name) name)))
      (.ref w.heap.size) = some .typeLoad := by
    simp [Heap.errorKind?, Heap.shape?, Heap.object?, problemObject, Object.empty, Problem.kind]
  unfold tryLoad
  rw [run_tryCatch, run_bind_error (run_loadExact_unknown hwhole h)]
  simp only [World.adding]
  rw [run_bind_ok (run_heap _), hkind]
  rfl

/-! ## Registering -/

variable (ev)

/-- In a quiet world, logging leaves the entry and nothing else. -/
theorem run_log_quiet (host : Host) (ev : Evaluator) (hquiet : w.Quiet) (level : Level)
    (message : Text) (fields : List (Text × Datum)) :
    ExceptT.run (log ev host.loggers.registry level message fields) w =
      (.ok ⟨⟩, w.noting (host.loggers.registry.leaves level message
        (some (fieldsPortrait w.heap fields)))) :=
  run_log ev hquiet.intact host.loggers.registry level message fields

/-- Announcing a registration leaves what the listener is told, and throws what the listener
throws. -/
theorem run_announceRegistration (hcont : w.Continues w₁)
    (hrole : host.onRegister = .emit → host.role = .engine) {type builder : Value}
    (htype : type.isNullish = false) (hbuilder : builder.isNullish = false) :
    ∃ told w₂ r, ExceptT.run (announceRegistration host ev type builder) w₁ = (r, w₂) ∧
      host.Announces w w₁.heap type builder told ∧ host.onRegister.Gives w₂.heap ⟨⟩ r ∧
      w.Continues w₂ ∧ w₂.mappings = w₁.mappings ∧ w₂.notices = w₁.notices ++ told := by
  have hthrown (message : Text) (w' : World) :=
    w'.object?_adding (errorObject .general .main (some message))
  have hplain (message : Text) (c : Callable) :
      (errorObject .general .main (some message)).shape ≠ .callable c := nofun
  unfold announceRegistration
  rw [run_bind_ok (run_heap w₁)]
  unfold Host.Announces Callback.Gives
  cases hcallback : host.onRegister with
  | absent => exact ⟨[], w₁, _, rfl, rfl, rfl, hcont, rfl, (List.append_nil _).symm⟩
  | note => exact ⟨_, _, _, rfl, rfl, rfl, hcont.of_eq rfl rfl rfl, rfl, rfl⟩
  | fail message =>
    exact ⟨[], _, _, rfl, rfl, ⟨_, rfl, hthrown message w₁⟩,
      hcont.adding (Object.holdsName_errorObject _ _ _) (hplain message), rfl,
        (List.append_nil _).symm⟩
  | noteThenFail message =>
    have hnoted : w.Continues { w₁ with
        notices := w₁.notices ++
          [.registered (w₁.heap.portrait type) (w₁.heap.portrait builder)] } :=
      hcont.of_eq rfl rfl rfl
    exact ⟨_, _, _, rfl, rfl, ⟨_, rfl, hthrown message w₁⟩,
      hnoted.adding (Object.holdsName_errorObject _ _ _) (hplain message), rfl, rfl⟩
  | emit =>
    obtain ⟨typeName, htypeName, hrunType⟩ := run_nameOf ev hcont.quiet.named htype
    obtain ⟨builderName, hbuilderName, hrunBuilder⟩ := run_nameOf ev hcont.quiet.named hbuilder
    obtain ⟨event, hname, hrun, hdata, hemit⟩ := run_emit ev hcont.quiet (hrole hcallback)
      "builder:registered" [("type", typeName), ("builder", builderName)] none
    -- the subscribers are those that there were before
    have haudience : audience w₁ event = audience w event := by simp only [audience, hcont.bus]
    refine ⟨(audience w event).flatMap (Subscriber.leaves event),
      w₁.telling event (audience w event), .ok ⟨⟩, ?_,
      ⟨event, hname, hrun, ⟨typeName, builderName, htypeName, hbuilderName, hdata⟩, rfl⟩, rfl,
      hcont.of_eq rfl rfl rfl, rfl, rfl⟩
    rw [haudience] at hemit
    exact (run_bind_ok hrunType).trans ((run_bind_ok hrunBuilder).trans hemit)

/-- A row that names no pair is noted and registers nothing. -/
theorem run_registerRow_rejected (hw : w.Furnished) (hcont : w.Continues w₁) {row : Text × Text}
    (hrow : w.pair? row = none) :
    ∃ part w₂, ExceptT.run (registerRow host ev row.1 row.2) w₁ = (.ok false, w₂) ∧
      RowDone host w w₁ w₂ row part := by
  have hwhole : w₁.types.broken = none := by rw [hcont.types]; exact hw.whole
  have hmissing (name : Text) : w.Continues
      (w₁.adding (problemObject (.unknownType (.text name) name))) :=
    hcont.adding (Object.holdsName_problemObject _) nofun
  unfold registerRow
  -- a row is rejected at its type, at its builder, or because the latter is none; each leaves one
  -- entry
  cases htype : w.types.table.get? row.1 with
  | none =>
    rw [run_bind_ok (run_tryLoad_unknown hwhole (by rw [hcont.types]; exact htype))]
    refine ⟨_, _, run_bind_ok (run_log_quiet host ev (hmissing row.1).quiet _ _ _),
      (hmissing row.1).of_eq rfl rfl rfl, .unknownType htype, ?_, rfl⟩
    rw [hrow]
    rfl
  | some type =>
    rw [run_bind_ok (run_tryLoad_known hwhole (by rw [hcont.types]; exact htype))]
    cases hbuilder : w.types.table.get? row.2 with
    | none =>
      simp only
      rw [run_bind_ok (run_tryLoad_unknown hwhole (by rw [hcont.types]; exact hbuilder))]
      refine ⟨_, _, run_bind_ok (run_log_quiet host ev (hmissing row.2).quiet _ _ _),
        (hmissing row.2).of_eq rfl rfl rfl, .unknownBuilder htype hbuilder, ?_, rfl⟩
      rw [hrow]
      rfl
    | some builder =>
      have hnot : w.heap.isBuilder builder = false := by
        simpa [World.pair?, htype, hbuilder] using hrow
      -- nothing that was added since the loading began makes a builder of it
      have hnow : w₁.heap.isBuilder builder = false := by
        rw [Heap.isBuilder_eq hw.rooted hcont.gains]
        · exact hnot
        · obtain ⟨name, -, hmem⟩ := Table.mem_of_get? hbuilder
          exact hw.classes _ hmem
      simp only
      rw [run_bind_ok (run_tryLoad_known hwhole (by rw [hcont.types]; exact hbuilder)),
        run_bind_ok (run_heap w₁), hnow]
      refine ⟨_, _, run_bind_ok (run_log_quiet host ev hcont.quiet _ _ _), hcont.of_eq rfl rfl rfl,
        .notBuilder htype hbuilder hnot, ?_, rfl⟩
      rw [hrow]
      rfl

/-- A row names a pair if both names are defined and the second is that of a builder. -/
theorem pair?_eq_some {row : Text × Text} {type builder : Value}
    (h : w.pair? row = some (type, builder)) : w.types.table.get? row.1 = some type ∧
      w.types.table.get? row.2 = some builder ∧ w.heap.isBuilder builder = true := by
  unfold World.pair? at h
  split at h
  next type' builder' htype hbuilder =>
    split at h
    next hgenuine =>
      cases h
      exact ⟨htype, hbuilder, hgenuine⟩
    next => cases h
  next => cases h

/-- A registration that is accepted stands before it is logged and announced. -/
theorem run_register_accepted (hcont : w.Continues w₁)
    (hrole : host.onRegister = .emit → host.role = .engine) {type builder : Value}
    (htype : type.isNullish = false) (hbuilder : builder.isNullish = false)
    (haccepts : w₁.heap.accepts type builder = true) :
    ∃ typeName builderName told w₂ r, ExceptT.run (register host ev type builder) w₁ = (r, w₂) ∧
      w₁.heap.heldName? type = some typeName ∧ w₁.heap.heldName? builder = some builderName ∧
      host.Announces w w₁.heap type builder told ∧ host.onRegister.Gives w₂.heap ⟨⟩ r ∧
      w.Continues w₂ ∧ w₂.mappings = w₁.mappings.put type builder ∧
      w₂.notices = w₁.notices ++ (host.loggers.registry.leaves .debug "Builder registered"
        (some (fieldsPortrait w₁.heap [("type", typeName), ("builder", builderName)])) ++ told) := by
  -- the mapping is put first, so that it stands whatever the listener does
  let enrolled : World :=
    { w₁ with
      mappings := w₁.mappings.put type builder
      history := w₁.history ++ [.registered type builder true] }
  have henroll : ExceptT.run (enroll type builder) w₁ = (.ok true, enrolled) := by
    show (_, _) = _
    simp only [haccepts, if_true, enrolled]
  have henrolled : w.Continues enrolled := hcont.of_eq rfl rfl rfl
  -- the names are only read where they are held, so that no code runs
  obtain ⟨typeName, htypeName, hrunType⟩ := run_nameOf ev henrolled.quiet.named htype
  obtain ⟨builderName, hbuilderName, hrunBuilder⟩ := run_nameOf ev henrolled.quiet.named hbuilder
  let logged : World := enrolled.noting (host.loggers.registry.leaves .debug "Builder registered"
    (some (fieldsPortrait enrolled.heap [("type", typeName), ("builder", builderName)])))
  have hlog : ExceptT.run (log ev host.loggers.registry .debug "Builder registered"
      [("type", typeName), ("builder", builderName)]) enrolled = (.ok ⟨⟩, logged) :=
    run_log_quiet host ev henrolled.quiet _ _ _
  have hlogged : w.Continues logged := henrolled.of_eq rfl rfl rfl
  obtain ⟨told, w₂, r, hrun, htold, hgives, hcont', hmappings, hnotices⟩ :=
    run_announceRegistration ev hlogged hrole htype hbuilder
  refine ⟨typeName, builderName, told, w₂, r, ?_, htypeName, hbuilderName, htold, hgives, hcont',
    hmappings, ?_⟩
  · unfold register
    rw [run_bind_ok henroll]
    exact (run_bind_ok hrunType).trans
      ((run_bind_ok hrunBuilder).trans ((run_bind_ok hlog).trans hrun))
  · rw [hnotices]
    simp only [logged, World.noting, enrolled, List.append_assoc]

/-- A row that names a pair registers it, and the listener is told. -/
theorem run_registerRow_accepted (hw : w.Furnished) (hcont : w.Continues w₁)
    (hrole : host.onRegister = .emit → host.role = .engine) {row : Text × Text}
    {type builder : Value} (hrow : w.pair? row = some (type, builder)) :
    ∃ part w₂ r, ExceptT.run (registerRow host ev row.1 row.2) w₁ = (r, w₂) ∧
      RowDone host w w₁ w₂ row part ∧ host.onRegister.Gives w₂.heap true r := by
  have hwhole : w₁.types.broken = none := by rw [hcont.types]; exact hw.whole
  obtain ⟨htype, hbuilder, hgenuine⟩ := pair?_eq_some hrow
  have hclass {name : Text} {v : Value} (h : w.types.table.get? name = some v) :
      v.isNullish = false := by
    obtain ⟨name', -, hmem⟩ := Table.mem_of_get? h
    exact Heap.isNullish_of_isType (hw.classes _ hmem)
  have hnow : w₁.heap.isBuilder builder = true := Heap.isBuilder_extends hcont.gains.kept hgenuine
  -- the library accepts what the row names, since it is still a builder now
  have haccepts : w₁.heap.accepts type builder = true := by
    simp [Heap.accepts, hclass htype, hclass hbuilder, hnow]
  obtain ⟨typeName, builderName, told, w₂, r, hrun, htypeName, hbuilderName, htold, hgives, hcont',
    hmappings, hnotices⟩ :=
    run_register_accepted ev hcont hrole (hclass htype) (hclass hbuilder) haccepts
  refine ⟨_, w₂, r.map fun _ => true, ?_, ⟨hcont', .registered hrow hcont.gains htypeName
    hbuilderName htold, ?_, hnotices⟩, hgives.map true⟩
  · unfold registerRow
    rw [run_bind_ok (run_tryLoad_known hwhole (by rw [hcont.types]; exact htype))]
    simp only
    rw [run_bind_ok (run_tryLoad_known hwhole (by rw [hcont.types]; exact hbuilder))]
    simp only
    rw [run_bind_ok (run_heap w₁), if_pos hnow, run_bind, hrun]
    cases r <;> rfl
  · rw [hmappings, hrow]
    rfl

/-- A row is settled, if the listener bears what it is told of it. -/
theorem run_registerRow (hw : w.Furnished) (hcont : w.Continues w₁)
    (hrole : host.onRegister = .emit → host.role = .engine) {row : Text × Text}
    (hborne : host.onRegister.failure? = none ∨ w.pair? row = none) :
    ∃ part w₂, ExceptT.run (registerRow host ev row.1 row.2) w₁ =
        (.ok (w.pair? row).isSome, w₂) ∧ RowDone host w w₁ w₂ row part := by
  cases hrow : w.pair? row with
  | none => exact run_registerRow_rejected ev hw hcont hrow
  | some pair =>
    have hcalm : host.onRegister.failure? = none := hborne.resolve_right (by simp [hrow])
    obtain ⟨part, w₂, r, hrun, hdone, hgives⟩ := run_registerRow_accepted ev hw hcont hrole hrow
    simp only [Callback.Gives, hcalm] at hgives
    subst hgives
    exact ⟨part, w₂, hrun, hdone⟩

/-- Rows are settled in their order, if the listener bears what it is told. -/
theorem run_registerRows (hw : w.Furnished) (hcont : w.Continues w₁)
    (hrole : host.onRegister = .emit → host.role = .engine) {rows : List (Text × Text)}
    (hrows : host.onRegister.failure? = none ∨ ∀ row ∈ rows, w.pair? row = none) :
    ∃ parts w₂, ExceptT.run (registerRows host ev rows) w₁ =
        (.ok (rows.filterMap w.pair?).length, w₂) ∧
      List.Forall₂ (RowLeaves host w) rows parts ∧ w.Continues w₂ ∧
      w₂.mappings = w₁.mappings.putAll (rows.filterMap w.pair?) ∧
      w₂.notices = w₁.notices ++ parts.flatten := by
  induction rows generalizing w₁ with
  | nil => exact ⟨[], w₁, rfl, .nil, hcont, rfl, (List.append_nil _).symm⟩
  | cons row rows ih =>
    have hfirst : host.onRegister.failure? = none ∨ w.pair? row = none :=
      hrows.imp id fun h => h row (by simp)
    have hrest : host.onRegister.failure? = none ∨ ∀ row ∈ rows, w.pair? row = none :=
      hrows.imp id fun h row' hrow' => h row' (by simp [hrow'])
    -- the first row leaves a world that goes on as the one before it
    obtain ⟨part, w₂, hrun, hdone⟩ := run_registerRow ev hw hcont hrole hfirst
    obtain ⟨parts, w₃, hrun', hleaves, hcont', hmappings, hnotices⟩ := ih hdone.continues hrest
    refine ⟨part :: parts, w₃, ?_, .cons hdone.leaves hleaves, hcont', ?_, ?_⟩
    · unfold registerRows
      rw [run_bind_ok hrun, run_bind_ok hrun', List.filterMap_cons]
      cases w.pair? row <;> rfl
    · rw [hmappings, hdone.mappings, List.filterMap_cons]
      cases w.pair? row <;> rfl
    · rw [hnotices, hdone.notices, List.flatten_cons, List.append_assoc]

/-- A listener that throws at the first row that is registered ends the registering. -/
theorem run_registerRows_failing (hw : w.Furnished) (hcont : w.Continues w₁)
    (hrole : host.onRegister = .emit → host.role = .engine) {before after : List (Text × Text)}
    {row : Text × Text} {pair : Value × Value} (hbefore : ∀ row ∈ before, w.pair? row = none)
    (hrow : w.pair? row = some pair) {message : Text}
    (hfailure : host.onRegister.failure? = some message) :
    ∃ parts w₂ thrown, ExceptT.run (registerRows host ev (before ++ row :: after)) w₁ =
        (.error thrown, w₂) ∧
      w₂.heap.object? thrown = some (errorObject .general .main (some message)) ∧
      List.Forall₂ (RowLeaves host w) (before ++ [row]) parts ∧
      w₂.mappings = w₁.mappings.put pair.1 pair.2 ∧ w₂.notices = w₁.notices ++ parts.flatten := by
  -- the rows before the first one that is registered leave their entries
  induction before generalizing w₁ with
  | nil =>
    obtain ⟨part, w₂, r, hrun, hdone, hgives⟩ :=
      run_registerRow_accepted ev hw hcont hrole hrow
    simp only [Callback.Gives, hfailure] at hgives
    obtain ⟨thrown, rfl, hthrown⟩ := hgives
    refine ⟨[part], w₂, thrown, run_bind_error hrun, hthrown, .cons hdone.leaves .nil, ?_, ?_⟩
    · rw [hdone.mappings, hrow]
      rfl
    · rw [hdone.notices, List.flatten_singleton]
  | cons first before ih =>
    have hfirst := hbefore first (by simp)
    obtain ⟨part, w₂, hrun, hdone⟩ := run_registerRow_rejected ev hw hcont hfirst
    obtain ⟨parts, w₃, thrown, hrun', hthrown, hleaves, hmappings, hnotices⟩ :=
      ih hdone.continues fun row' hrow' => hbefore row' (by simp [hrow'])
    refine ⟨part :: parts, w₃, thrown, ?_, hthrown, .cons hdone.leaves hleaves, ?_, ?_⟩
    · exact (run_bind_ok hrun).trans (run_bind_error hrun')
    · rw [hmappings, hdone.mappings, hfirst]
      rfl
    · rw [hnotices, hdone.notices, List.flatten_cons, List.append_assoc]

/-! ## Reading manifests -/

/-- What is logged of a manifest before it is read. -/
def readingEntry (host : Host) (r : Resource) : List Notice :=
  host.loggers.registry.leaves .debug "Reading builder manifest"
    (some (textsPortrait [("origin", r.origin)]))

/-- Reading a manifest is logged with its origin. -/
theorem run_logReading (hquiet : w.Quiet) (r : Resource) :
    ExceptT.run (log ev host.loggers.registry .debug "Reading builder manifest"
      [("origin", Value.text r.origin)]) w = (.ok ⟨⟩, w.noting (readingEntry host r)) :=
  run_log_quiet host ev hquiet _ _ _

/-- A resource that can be read is read. -/
theorem run_readResource_ok {r : Resource} {t : Text} (h : r.read w.files = .ok t) :
    ExceptT.run (readResource r) w = (.ok t, w) := by
  unfold readResource
  rw [run_bind_ok (run_get w), h]
  rfl

/-- The error of a manifest that cannot be read says where it was found and why. -/
theorem run_readResource_error {r : Resource} {fault : ResourceFault}
    (h : r.read w.files = .error fault) :
    ExceptT.run (readResource r) w = (.error (.ref (w.heap.size + 1)),
      (w.adding (errorObject .general .main (some fault.message))).adding
        (problemObject (.unreadable r.origin ⟨.ref w.heap.size, fault.message⟩))) := by
  unfold readResource
  rw [run_bind_ok (run_get w), h]
  simp only
  rw [run_bind_ok (run_alloc w _)]
  unfold refuse
  rw [run_bind_ok (run_alloc _ _)]
  simp [World.adding]

/-- If all manifests can be read, their texts come in the order of the resources. -/
theorem run_readManifests_ok (host : Host) (ev : Evaluator) (hquiet : w.Quiet)
    {found : List Resource} {texts : List Text}
    (h : List.Forall₂ (fun r t => r.read w.files = .ok t) found texts) :
    ExceptT.run (readManifests host ev found) w =
      (.ok texts, w.noting (found.flatMap (readingEntry host))) := by
  induction found generalizing w texts with
  | nil =>
    cases h
    simp [readManifests, World.noting]
  | cons r found ih =>
    cases h with
    | cons hr hrest =>
      have hnoted : (w.noting (readingEntry host r)).Quiet := hquiet.of_eq rfl rfl
      have hread : ExceptT.run (readResource r) (w.noting (readingEntry host r)) = _ :=
        run_readResource_ok hr
      unfold readManifests
      rw [run_bind_ok (run_logReading ev hquiet r), run_bind_ok hread,
        run_bind_ok (ih hnoted hrest)]
      simp [World.noting]

/-- Reading ends at the first manifest that cannot be read. -/
theorem run_readManifests_error (host : Host) (ev : Evaluator) (hquiet : w.Quiet)
    {before : List Resource} {r : Resource} (after : List Resource) {fault : ResourceFault}
    (hbefore : ∀ r' ∈ before, ∃ t, r'.read w.files = .ok t) (hr : r.read w.files = .error fault) :
    ExceptT.run (readManifests host ev (before ++ r :: after)) w =
      (.error (.ref (w.heap.size + 1)),
        ((w.noting ((before ++ [r]).flatMap (readingEntry host))).adding
          (errorObject .general .main (some fault.message))).adding
            (problemObject (.unreadable r.origin ⟨.ref w.heap.size, fault.message⟩))) := by
  induction before generalizing w with
  | nil =>
    have hread := run_readResource_error (w := w.noting (readingEntry host r)) hr
    simp only [List.nil_append, List.flatMap_singleton]
    exact (run_bind_ok (run_logReading ev hquiet r)).trans (run_bind_error hread)
  | cons first before ih =>
    have hnoted : (w.noting (readingEntry host first)).Quiet := hquiet.of_eq rfl rfl
    -- a manifest that can be read leaves its log entry, and the next one is read
    obtain ⟨t, ht⟩ := hbefore first (by simp)
    have hread : ExceptT.run (readResource first) (w.noting (readingEntry host first)) = _ :=
      run_readResource_ok ht
    have hrest := ih hnoted (fun r' hr' => hbefore r' (by simp [hr'])) hr
    rw [List.cons_append, readManifests, run_bind_ok (run_logReading ev hquiet first),
      run_bind_ok hread, run_bind_error hrest]
    simp [World.noting, World.adding]

/-! ## Loading -/

/-- What is noted when the resources at a logical path are looked for: they are asked for it if they
are listed. -/
def lookups (w : World) (path : Text) : List Notice :=
  match w.resources with
  | .listed _ => [.lookup path]
  | .roots _ => []

/-- Looking for resources answers what is there and changes nothing but what is noted. -/
theorem run_findResources (w : World) (path : Text) :
    ExceptT.run (findResources path) w =
      (.ok (w.resources.find w.files path), w.noting (lookups w path)) := by
  unfold findResources lookups
  rw [run_bind_ok (run_get w)]
  cases w.resources with
  | listed entries => rfl
  | roots dirs => simp [World.noting]

/-- Where one cannot be read, nothing is registered. -/
theorem run_loadDefaults_unreadable {thrown : Value} {w' : World}
    (h : ExceptT.run (readManifests host ev (w.resources.find w.files Manifest.buildersPath))
      (w.noting (lookups w Manifest.buildersPath)) = (.error thrown, w')) :
    ExceptT.run (loadDefaults host ev) w = (.error thrown, w') := by
  unfold loadDefaults
  rw [run_bind_ok (run_findResources w _)]
  exact run_bind_error h

/-- Where all can be read, the rows of the merged manifest are registered. -/
theorem run_loadDefaults_readable {texts : List Text}
    (h : ExceptT.run (readManifests host ev (w.resources.find w.files Manifest.buildersPath))
      (w.noting (lookups w Manifest.buildersPath)) = (.ok texts, w₁)) :
    ExceptT.run (loadDefaults host ev) w = ExceptT.run (do
      let registered ← registerRows host ev (mergeManifests texts)
      log ev host.loggers.registry .info "Default builders loaded"
        [("entries", Value.ofNat (mergeManifests texts).length),
          ("registered", Value.ofNat registered)]
      return registered) w₁ := by
  unfold loadDefaults
  rw [run_bind_ok (run_findResources w _)]
  exact run_bind_ok h

end Action

open EvalPlan.Action

/-- What is said at the end of loading default builders. -/
def loadedEntry (host : Host) (rows registered : Nat) : List Notice :=
  host.loggers.registry.leaves .info "Default builders loaded" (some (.object (some "Object")
    [("entries", .number (Float.ofNat rows)), ("registered", .number (Float.ofNat registered))]))

/-- The first of resources that cannot be read. -/
theorem exists_first_unreadable {files : Files} {found : List Resource} {r : Resource}
    (hr : r ∈ found) (hunread : ∃ fault, r.read files = .error fault) :
    ∃ before first after fault, found = before ++ first :: after ∧
      (∀ r' ∈ before, ∃ t, r'.read files = .ok t) ∧ first.read files = .error fault := by
  induction found with
  | nil => cases hr
  | cons first rest ih =>
    cases hfirst : first.read files with
    | error fault => exact ⟨[], first, rest, fault, rfl, nofun, hfirst⟩
    | ok t =>
      have hrest : r ∈ rest := by
        rcases List.mem_cons.mp hr with rfl | h
        · obtain ⟨fault, hfault⟩ := hunread
          rw [hfirst] at hfault
          cases hfault
        · exact h
      obtain ⟨before, first', after, fault, rfl, hbefore, hfault⟩ := ih hrest
      refine ⟨first :: before, first', after, fault, rfl, fun r' hr' => ?_, hfault⟩
      rcases List.mem_cons.mp hr' with rfl | h
      · exact ⟨t, hfirst⟩
      · exact hbefore r' h

variable {host : Host} {ev : Evaluator} {w : World}

/-- A manifest that cannot be read keeps all others from being used: the error says where the first
of them was found, no builder is registered, and nothing is told. -/
theorem loadDefaults_unreadable (hquiet : w.Quiet) {r : Resource}
    (hr : r ∈ w.resources.find w.files Manifest.buildersPath)
    (hunread : ∃ fault, r.read w.files = .error fault) :
    ∃ before first after fault thrown cause w',
      w.resources.find w.files Manifest.buildersPath = before ++ first :: after ∧
      (∀ r' ∈ before, ∃ t, r'.read w.files = .ok t) ∧ first.read w.files = .error fault ∧
      ExceptT.run (loadDefaults host ev) w = (.error thrown, w') ∧
      w'.heap.object? thrown =
        some (problemObject (.unreadable first.origin ⟨cause, fault.message⟩)) ∧
      w'.mappings = w.mappings ∧ w'.history = w.history ∧
      w'.notices = w.notices ++ (lookups w Manifest.buildersPath ++
        (before ++ [first]).flatMap (readingEntry host)) := by
  obtain ⟨before, first, after, fault, hfound, hbefore, hfault⟩ :=
    exists_first_unreadable hr hunread
  have hlooked : (w.noting (lookups w Manifest.buildersPath)).Quiet := hquiet.of_eq rfl rfl
  have hread := run_readManifests_error host ev hlooked after hbefore hfault
  rw [← hfound] at hread
  have hrun := run_loadDefaults_unreadable ev hread
  refine ⟨before, first, after, fault, _, .ref w.heap.size, _, hfound, hbefore, hfault, hrun,
    ?_, rfl, rfl, ?_⟩
  · rw [← Array.size_push]
    exact World.object?_adding _ _
  · simp [World.adding, World.noting]

/-- The rows of manifests that can all be read are merged and settled in their order, and what
loading builders rests on is as it was. -/
theorem loadDefaults_settles (host : Host) (ev : Evaluator) (hw : w.Furnished)
    (hrole : host.onRegister = .emit → host.role = .engine) {texts : List Text}
    (hread : List.Forall₂ (fun r t => r.read w.files = .ok t)
      (w.resources.find w.files Manifest.buildersPath) texts)
    (hrows : host.onRegister.failure? = none ∨
      ∀ row ∈ mergeManifests texts, w.pair? row = none) :
    ∃ parts w', ExceptT.run (loadDefaults host ev) w =
        (.ok ((mergeManifests texts).filterMap w.pair?).length, w') ∧ w.Continues w' ∧
      w'.mappings = w.mappings.putAll ((mergeManifests texts).filterMap w.pair?) ∧
      List.Forall₂ (RowLeaves host w) (mergeManifests texts) parts ∧
      w'.notices = w.notices ++ (lookups w Manifest.buildersPath ++
        ((w.resources.find w.files Manifest.buildersPath).flatMap (readingEntry host) ++
          (parts.flatten ++ loadedEntry host (mergeManifests texts).length
            ((mergeManifests texts).filterMap w.pair?).length))) := by
  have hlooked : (w.noting (lookups w Manifest.buildersPath)).Quiet := hw.quiet.of_eq rfl rfl
  have hrunRead := run_readManifests_ok host ev hlooked hread
  -- after the manifests were read nothing differs but the notices
  have hcont : w.Continues ((w.noting (lookups w Manifest.buildersPath)).noting
      ((w.resources.find w.files Manifest.buildersPath).flatMap (readingEntry host))) :=
    ⟨hlooked.of_eq rfl rfl, .refl _, rfl, rfl⟩
  obtain ⟨parts, w', hrun, hleaves, hcont', hmappings, hnotices⟩ :=
    run_registerRows ev hw hcont hrole hrows
  have hlog := run_log_quiet host ev hcont'.quiet .info "Default builders loaded"
    [("entries", Value.ofNat (mergeManifests texts).length),
      ("registered", Value.ofNat ((mergeManifests texts).filterMap w.pair?).length)]
  have hend := (run_loadDefaults_readable ev hrunRead).trans
    ((run_bind_ok hrun).trans (run_bind_ok hlog))
  refine ⟨parts, _, hend, hcont'.of_eq rfl rfl rfl, hmappings, hleaves, ?_⟩
  simp only [World.noting, hnotices, List.append_assoc]
  rfl

/-- The rows of manifests that can all be read are merged and settled in their order. -/
theorem loadDefaults_readable (hw : w.Furnished)
    (hrole : host.onRegister = .emit → host.role = .engine) {texts : List Text}
    (hread : List.Forall₂ (fun r t => r.read w.files = .ok t)
      (w.resources.find w.files Manifest.buildersPath) texts)
    (hrows : host.onRegister.failure? = none ∨
      ∀ row ∈ mergeManifests texts, w.pair? row = none) :
    ∃ parts w', ExceptT.run (loadDefaults host ev) w =
        (.ok ((mergeManifests texts).filterMap w.pair?).length, w') ∧
      w'.mappings = w.mappings.putAll ((mergeManifests texts).filterMap w.pair?) ∧
      List.Forall₂ (RowLeaves host w) (mergeManifests texts) parts ∧
      w'.notices = w.notices ++ (lookups w Manifest.buildersPath ++
        ((w.resources.find w.files Manifest.buildersPath).flatMap (readingEntry host) ++
          (parts.flatten ++ loadedEntry host (mergeManifests texts).length
            ((mergeManifests texts).filterMap w.pair?).length))) := by
  obtain ⟨parts, w', hrun, -, hrest⟩ := loadDefaults_settles host ev hw hrole hread hrows
  exact ⟨parts, w', hrun, hrest⟩

/-- A listener that throws at the first row that is registered ends the loading with its error. -/
theorem loadDefaults_failing (hw : w.Furnished)
    (hrole : host.onRegister = .emit → host.role = .engine) {texts : List Text}
    (hread : List.Forall₂ (fun r t => r.read w.files = .ok t)
      (w.resources.find w.files Manifest.buildersPath) texts) {before after : List (Text × Text)}
    {row : Text × Text} {pair : Value × Value} {message : Text}
    (hmerged : mergeManifests texts = before ++ row :: after)
    (hbefore : ∀ row ∈ before, w.pair? row = none) (hrow : w.pair? row = some pair)
    (hfailure : host.onRegister.failure? = some message) :
    ∃ parts w' thrown, ExceptT.run (loadDefaults host ev) w = (.error thrown, w') ∧
      w'.heap.object? thrown = some (errorObject .general .main (some message)) ∧
      w'.mappings = w.mappings.put pair.1 pair.2 ∧
      List.Forall₂ (RowLeaves host w) (before ++ [row]) parts ∧
      w'.notices = w.notices ++ (lookups w Manifest.buildersPath ++
        ((w.resources.find w.files Manifest.buildersPath).flatMap (readingEntry host) ++
          parts.flatten)) := by
  have hlooked : (w.noting (lookups w Manifest.buildersPath)).Quiet := hw.quiet.of_eq rfl rfl
  have hrunRead := run_readManifests_ok host ev hlooked hread
  -- up to here it goes as where all rows are settled
  have hcont : w.Continues ((w.noting (lookups w Manifest.buildersPath)).noting
      ((w.resources.find w.files Manifest.buildersPath).flatMap (readingEntry host))) :=
    ⟨hlooked.of_eq rfl rfl, .refl _, rfl, rfl⟩
  obtain ⟨parts, w', thrown, hrun, hthrown, hleaves, hmappings, hnotices⟩ :=
    run_registerRows_failing ev hw hcont hrole hbefore hrow hfailure
  rw [← hmerged] at hrun
  have hend := (run_loadDefaults_readable ev hrunRead).trans (run_bind_error hrun)
  refine ⟨parts, w', thrown, hend, hthrown, hmappings, hleaves, ?_⟩
  simp only [hnotices, World.noting, List.append_assoc]

/-- Default builders are loaded from all manifests that are found, or from none. -/
structure LoadsDefaults (host : Host) (ev : Evaluator) (w : World) : Prop where
  /-- A manifest that cannot be read keeps all others from being used: the error says where the
  first of them was found, no builder is registered, and nothing is told. -/
  unreadable : ∀ r ∈ w.resources.find w.files Manifest.buildersPath,
    (∃ fault, r.read w.files = .error fault) →
    ∃ before first after fault thrown cause w',
      w.resources.find w.files Manifest.buildersPath = before ++ first :: after ∧
      (∀ r' ∈ before, ∃ t, r'.read w.files = .ok t) ∧ first.read w.files = .error fault ∧
      ExceptT.run (loadDefaults host ev) w = (.error thrown, w') ∧
      w'.heap.object? thrown =
        some (problemObject (.unreadable first.origin ⟨cause, fault.message⟩)) ∧
      w'.mappings = w.mappings ∧ w'.history = w.history ∧
      w'.notices = w.notices ++ (lookups w Manifest.buildersPath ++
        (before ++ [first]).flatMap (readingEntry host))
  /-- Of the rows of all manifests each name counts once, where it first came and with what came
  last under it. -/
  merged : ∀ texts : List Text,
    (mergeManifests texts).keys = ((texts.flatMap Manifest.rows).map (·.1)).eraseDups ∧
      ∀ name, (mergeManifests texts).get? name =
        Table.lastValue? (texts.flatMap Manifest.rows) name
  /-- Merged rows are settled in their order: those that name a type and a builder are registered in
  place of what was there, and the others leave an entry that says why they are not. -/
  readable : ∀ texts : List Text, List.Forall₂ (fun r t => r.read w.files = .ok t)
      (w.resources.find w.files Manifest.buildersPath) texts →
    host.onRegister.failure? = none ∨ (∀ row ∈ mergeManifests texts, w.pair? row = none) →
    ∃ parts w', ExceptT.run (loadDefaults host ev) w =
        (.ok ((mergeManifests texts).filterMap w.pair?).length, w') ∧
      w'.mappings = w.mappings.putAll ((mergeManifests texts).filterMap w.pair?) ∧
      List.Forall₂ (RowLeaves host w) (mergeManifests texts) parts ∧
      w'.notices = w.notices ++ (lookups w Manifest.buildersPath ++
        ((w.resources.find w.files Manifest.buildersPath).flatMap (readingEntry host) ++
          (parts.flatten ++ loadedEntry host (mergeManifests texts).length
            ((mergeManifests texts).filterMap w.pair?).length)))
  /-- A listener that throws is told of one registration only, which stands. -/
  failing : ∀ (texts : List Text) (before after : List (Text × Text)) (row : Text × Text)
      (pair : Value × Value) (message : Text),
    List.Forall₂ (fun r t => r.read w.files = .ok t)
      (w.resources.find w.files Manifest.buildersPath) texts →
    mergeManifests texts = before ++ row :: after → (∀ row ∈ before, w.pair? row = none) →
    w.pair? row = some pair → host.onRegister.failure? = some message →
    ∃ parts w' thrown, ExceptT.run (loadDefaults host ev) w = (.error thrown, w') ∧
      w'.heap.object? thrown = some (errorObject .general .main (some message)) ∧
      w'.mappings = w.mappings.put pair.1 pair.2 ∧
      List.Forall₂ (RowLeaves host w) (before ++ [row]) parts ∧
      w'.notices = w.notices ++ (lookups w Manifest.buildersPath ++
        ((w.resources.find w.files Manifest.buildersPath).flatMap (readingEntry host) ++
          parts.flatten))

/-- Where the engine is as it was made, default builders are loaded from all manifests or from
none. -/
theorem loadsDefaults (ev : Evaluator) (hw : w.Furnished)
    (hrole : host.onRegister = .emit → host.role = .engine) : LoadsDefaults host ev w where
  unreadable _ hr hunread := loadDefaults_unreadable hw.quiet hr hunread
  merged texts := by
    rw [mergeManifests_eq]
    exact ⟨Table.keys_ofRows _, Table.get?_ofRows _⟩
  readable _ hread hrows := loadDefaults_readable hw hrole hread hrows
  failing _ _ _ _ _ _ hread hmerged hbefore hrow hfailure :=
    loadDefaults_failing hw hrole hread hmerged hbefore hrow hfailure

/-- Two manifests, the second of which names no builder for the type of the first. -/
def maskingTexts : List Text :=
  ["evalconf.metrics.Metric=evalconf.metrics.MetricBuilder\nnowhere.Type=x",
    ("evalconf.metrics.Metric=evalconf.data.DataSource\n" : Text) ++
      "evalconf.data.DataSource=evalconf.data.CsvDataSourceBuilder"]

/-- A world in which both of them are found. -/
def maskingWorld : World :=
  { World.initial Domain.heap with
    types := ⟨Domain.types, none⟩
    resources := .listed (maskingTexts.map fun t => ⟨Manifest.buildersPath, "manifest", some t⟩) }

/-- The world where one manifest masks a row of another is furnished. -/
theorem furnished_maskingWorld : maskingWorld.Furnished where
  quiet :=
    { intact := Heap.intact_initial _
      named := Heap.named_initial Domain.holdsName_objects
      ordered := Bus.ordered_empty
      mild := fun c s hs => by cases hs }
  rooted := by decide +kernel
  classes := by decide +kernel
  whole := rfl

/-- Of the three names one is registered: the later entry for metrics counts, and is no builder. -/
theorem loadsDefaults_masking :
    (mergeManifests maskingTexts).length = 3 ∧
      ∃ w', ExceptT.run (loadDefaults (Host.engineWithBus (Logger.printing "plans") [])
        (evaluator (Host.engineWithBus (Logger.printing "plans") []) 0)) maskingWorld =
          (.ok 1, w') := by
  have hload : LoadsDefaults (Host.engineWithBus (Logger.printing "plans") [])
      (evaluator (Host.engineWithBus (Logger.printing "plans") []) 0) maskingWorld :=
    loadsDefaults _ furnished_maskingWorld fun _ => rfl
  have hread : List.Forall₂ (fun r t => r.read maskingWorld.files = .ok t)
      (maskingWorld.resources.find maskingWorld.files Manifest.buildersPath) maskingTexts :=
    .cons rfl (.cons rfl .nil)
  obtain ⟨parts, w', hrun, -⟩ := hload.readable maskingTexts hread (.inl rfl)
  have hcount : ((mergeManifests maskingTexts).filterMap maskingWorld.pair?).length = 1 := by
    decide +kernel
  rw [hcount] at hrun
  exact ⟨by decide +kernel, w', hrun⟩

end EvalPlan

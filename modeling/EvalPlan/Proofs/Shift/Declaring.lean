import EvalPlan.Catalog
import EvalPlan.Proofs.Shift.Domain

/-!
# Types and builders in moved worlds

What an engine looks up is the same in moved worlds: the types by their names, the builders by their
types and by their short names, and the manifests in the files. Builders that a script registers are
registered moved.
-/

namespace EvalPlan

namespace Action

open Shift

variable {role : Role} {σ : Shift} {α β : Type}

/-! ## Types -/

/-- Looking a type up under its exact name follows. -/
theorem loadExact_follows (name : Text) : Follows role σ σ.value (loadExact name)
    (loadExact name) := by
  refine .get fun {s a c} hw => ?_
  rw [hw.types]
  cases hbroken : a.types.broken with
  | some v =>
    have h : Follows role σ σ.value (MonadExcept.throw v) _ := .throw σ.value v
    rwa [hw.keeps.broken v hbroken] at h
  | none =>
    cases htype : a.types.table.get? name with
    | some type => exact .pure_of_eq (hw.keeps.types name type htype).symm
    | none => exact refuse_follows σ.value (.unknownType (.text name) name)

/-- So does looking it up with imports. -/
theorem loadType_follows (imports : List Text) (name : Text) :
    Follows role σ σ.value (loadType imports name) (loadType imports name) := by
  refine .get fun {s a c} hw => ?_
  rw [hw.types]
  cases (candidates imports name).find? a.types.table.has with
  | some full => exact loadExact_follows full
  | none => exact loadExact_follows name

/-- The items of a list follow. -/
theorem itemsOf_follows (v : Value) :
    Follows role σ (List.map σ.value) (itemsOf v) (itemsOf (σ.value v)) := by
  refine .heap fun {h h'} hh => ?_
  rw [hh.list?]
  cases h.list? v with
  | some items => exact .pure (List.map σ.value) items
  | none =>
    cases v with
    | text t => exact .pure_of_eq (by rw [List.map_map]; rfl)
    | _ => exact typeError_follows _ _

section loading

variable {ev : Evaluator} (hev : ev.Follows role σ)

include hev

/-- The first imported name that is defined is the same in both worlds. -/
theorem qualifiedName?_follows (name : Value) (spaces : List Value) :
    Follows role σ id (qualifiedName? ev name spaces)
      (qualifiedName? ev (σ.value name) (spaces.map σ.value)) := by
  induction spaces with
  | nil => exact .pure id none
  | cons space rest ih =>
    refine .bind (wordsMain_follows hev space) fun _ =>
      .bind (wordsMain_follows hev name) fun _ => ?_
    refine .get fun hw => ?_
    rw [hw.types]
    exact .ite Iff.rfl (.pure id _) ih

/-- Loading a type by a short name follows. -/
theorem loadQualified_follows (imports : List Value) (name : Value) :
    Follows role σ σ.value (loadQualified ev imports name)
      (loadQualified ev (imports.map σ.value) (σ.value name)) := by
  refine .bind (qualifiedName?_follows hev name imports) fun full => ?_
  cases full with
  | some full => exact loadExact_follows full
  | none => exact .bind (wordsMain_follows hev name) fun t =>
      refuse_follows σ.value (.unknownType name t)

/-- Loading a type by the name that a script gave follows. -/
theorem loadNamedType_follows (host : Host) (name : Value) :
    Follows role σ σ.value (loadNamedType host ev name) (loadNamedType host ev (σ.value name)) := by
  -- the imports are read alike, since the object that holds them is one that the shift spares
  have himports {k l : List Value → Action Value}
      (hk : ∀ imports, Follows role σ σ.value (k imports) (l (imports.map σ.value))) :
      Follows role σ σ.value
        (property ev .main (.ref host.role.facade) "imports" >>= fun v => itemsOf v >>= k)
        (property ev .main (.ref host.role.facade) "imports" >>= fun v => itemsOf v >>= l) := by
    have h := propertyMain_follows hev (.ref host.role.facade) "imports"
    rw [σ.value_ref, σ.ref_facade] at h
    exact .bind h fun v => .bind (itemsOf_follows v) hk
  have hqualified := himports (k := fun imports => loadQualified ev imports name)
    (l := fun imports => loadQualified ev imports (σ.value name))
    fun imports => loadQualified_follows hev imports name
  have htexts (items : List Value) :
      (items.map σ.value).mapM Value.text? = items.mapM Value.text? := by
    induction items with
    | nil => rfl
    | cons v items ih => rw [List.map_cons, List.mapM_cons, List.mapM_cons, ih, σ.text?_value]
  -- a stand-in of the engine knows no imports
  have hnothing := loadQualified_follows hev [] name
  unfold loadNamedType
  cases hrole : host.role with
  | bench =>
    cases name with
    | text t => exact loadExact_follows t
    | _ => exact hnothing
  | engine =>
    rw [hrole] at himports hqualified
    cases name with
    | text t =>
      refine .get fun hw => ?_
      rw [hw.types]
      refine .ite Iff.rfl (loadExact_follows t) ?_
      refine himports fun imports => ?_
      -- names of spaces are texts, which the shift leaves as they are; other imports are asked for
      -- one by one
      rw [htexts]
      cases imports.mapM Value.text? with
      | some spaces => exact loadType_follows spaces t
      | none => exact loadQualified_follows hev imports (.text t)
    | _ => exact hqualified

end loading

/-! ## Registered builders -/

/-- The builder of a moved class is the moved builder. -/
theorem resolveBuilder?_follows {s : Surroundings} {a c : World} (hw : σ.Worlds s a c)
    (type : Value) : resolveBuilder? c.heap c.mappings (σ.value type) =
      (resolveBuilder? a.heap a.mappings type).map σ.value := by
  unfold resolveBuilder?
  rw [hw.mappings, σ.get?_mappings, hw.heaps.defaultBuilder?]
  cases a.mappings.get? type <;> rfl

/-- Asking for the builder of a value follows. -/
theorem resolve_follows (type : Value) :
    Follows role σ (Option.map σ.value) (resolve type) (resolve (σ.value type)) :=
  .get fun hw => .cond (σ.isNullish_value type) (typeError_follows _ _)
    (.pure_of_eq (resolveBuilder?_follows hw type))

section registering

variable {ev : Evaluator} (hev : ev.Follows role σ) (host : Host)

include hev

/-- The name that an announcement gives to a value is the same. -/
theorem givenName_follows (v : Value) :
    Follows role σ id (givenName ev v) (givenName ev (σ.value v)) :=
  .bind (nameOf_follows hev v) fun name =>
    .cond (σ.isTruthy_value name) (wordsMain_follows hev name) (.pure id _)

/-- Announcing a registration follows. -/
theorem announceRegistration_follows (type builder : Value) :
    Follows role σ id (announceRegistration host ev type builder)
      (announceRegistration host ev (σ.value type) (σ.value builder)) := by
  refine .heap fun hh => ?_
  cases host.onRegister with
  | absent => exact .pure id _
  | note => exact note_follows _ _
  | fail message => exact crash_follows _ _ _
  | noteThenFail message => exact .bind (note_follows _ _) fun _ => crash_follows _ _ _
  | emit =>
    exact .bind (nameOf_follows hev type) fun typeName =>
      .bind (nameOf_follows hev builder) fun name =>
      emit_follows hev host "builder:registered"
        [("type", .value typeName), ("builder", .value name)] none

/-- Refusing a registration follows. -/
theorem refuseRegistration_follows (type builder : Value) :
    Follows role σ id (refuseRegistration ev type builder)
      (refuseRegistration ev (σ.value type) (σ.value builder)) := by
  refine .bind (f := σ.problem) ?_ fun p => refuse_follows id p
  refine .cond (σ.isNullish_value type) (.pure σ.problem .typeMissing) ?_
  refine .cond (σ.isNullish_value builder) (.pure σ.problem .builderMissing) ?_
  exact .answer (givenName_follows hev builder) fun _ => rfl

/-- Registering a builder follows, accepted or refused. -/
theorem register_follows (type builder : Value) :
    Follows role σ id (register host ev type builder)
      (register host ev (σ.value type) (σ.value builder)) := by
  refine .bind (enroll_follows type builder) fun accepted => .ite Iff.rfl ?_ ?_
  · exact .bind (nameOf_follows hev type) fun _ => .bind (nameOf_follows hev builder) fun _ =>
      .bind (log_follows hev _ _ _ _ _) fun _ => announceRegistration_follows hev host type builder
  · exact refuseRegistration_follows hev type builder

end registering

/-! ## Resources -/

/-- Reading a resource follows: texts do not move. -/
theorem readResource_follows (r : Resource) :
    Follows role σ id (readResource r) (readResource r) := by
  refine .get fun {s a c} hw => ?_
  rw [hw.files]
  cases r.read a.files with
  | ok t => exact .pure id t
  | error fault =>
    exact .bind (newMainError_follows .general _) fun v =>
      refuse_follows id (.unreadable r.origin ⟨v, fault.message⟩)

/-- Listing the resources on a path follows. -/
theorem findResources_follows (path : Text) :
    Follows role σ id (findResources path) (findResources path) := by
  refine .get fun {s a c} hw => ?_
  rw [hw.resources, hw.files]
  have hnoted : Follows role σ id
    (note (.lookup path) >>= fun _ => pure (a.resources.find a.files path))
      (note (.lookup path) >>= fun _ => pure (a.resources.find a.files path)) :=
    .bind (note_follows _ _) fun _ => .pure id _
  cases hresources : a.resources with
  | listed rows =>
    rw [hresources] at hnoted
    exact hnoted
  | roots dirs => exact .pure id _

/-! ## Named builders -/

section named

variable {ev : Evaluator} (hev : ev.Follows role σ)

include hev

/-- Whether a value is a plain segment is the same in both worlds. -/
theorem isPlainSegmentValue_follows (v : Value) :
    Follows role σ id (isPlainSegmentValue ev v) (isPlainSegmentValue ev (σ.value v)) := by
  refine .bind (propertyMain_follows hev v "length") fun length => ?_
  refine .bind (magnitudeMain_follows hev length) fun x =>
    .ite Iff.rfl (.pure_of_eq ?_) (.pure id _)
  rw [σ.same_text, σ.same_text]
  rfl

/-- So is whether it names a builder. -/
theorem namesBuilder_follows (name : Value) :
    Follows role σ id (namesBuilder ev name) (namesBuilder ev (σ.value name)) := by
  refine .bind (propertyMain_follows hev name "length") fun length => ?_
  refine .cond (σ.same_number length 0) (.pure id _) ?_
  refine .bind (invokeMain_follows hev name "includes" [.text [Text.backslash]]) fun includes => ?_
  refine .cond (σ.isTruthy_value includes) (.pure id _) ?_
  refine .bind (invokeMain_follows hev name "split" [.text [Text.slash]]) fun segments => ?_
  refine .bind (newMainFunction_follows (c := .segmentTest) trivial [] 1) fun test => ?_
  exact .bind (invokeMain_follows hev segments "every" [test]) fun answer =>
    .pure_of_eq (σ.isTruthy_value answer)

/-- A refused name is shown in the same words. -/
theorem shownName_follows (name : Value) :
    Follows role σ id (shownName ev name) (shownName ev (σ.value name)) :=
  .answer (hev.json [] [] name) fun _ => rfl

/-- Loading the builder that a resource names follows. -/
theorem loadNamed_follows (name : Value) (origin builderName : Text) :
    Follows role σ σ.value (loadNamed ev name origin builderName)
      (loadNamed ev (σ.value name) origin builderName) := by
  refine .bind (.tryCatch (loadExact_follows builderName) fun thrown => ?_) fun builder =>
    .heap fun hh => ?_
  · exact .bind (wordsMain_follows hev name) fun t => .bind (cause_follows hev thrown) fun c =>
      refuse_follows σ.value (.builderNotFound builderName t c)
  · exact .cond (hh.isBuilder builder) (.pure σ.value builder)
      (refuse_follows σ.value (.namedNotBuilder builderName origin))

/-- Finding the builder of an accepted name follows. -/
theorem findAccepted_follows (host : Host) (name : Value) (path : Text) :
    Follows role σ (Option.map σ.value) (findAccepted host ev name path)
      (findAccepted host ev (σ.value name) path) := by
  refine .bind (log_follows hev _ _ _ _ _) fun _ =>
    .bind (findResources_follows path) fun found => ?_
  cases found with
  | nil => exact .bind (log_follows hev _ _ _ _ _) fun _ => .pure (Option.map σ.value) none
  | cons manifest rest =>
    refine .bind (readResource_follows manifest) fun t => ?_
    dsimp only [id_eq]
    cases builderEntry? t with
    | none =>
      exact .bind (wordsMain_follows hev name) fun t =>
        refuse_follows _ (.noBuilderEntry manifest.origin t)
    | some builderName => exact .answer (loadNamed_follows hev name _ builderName) fun _ => rfl

/-- Finding a named builder follows, also for refused names. -/
theorem findNamedBy_follows (host : Host) (name : Value) :
    Follows role σ (Option.map σ.value) (findNamedBy host ev name)
      (findNamedBy host ev (σ.value name)) := by
  have hasked : Follows role σ (Option.map σ.value)
      (namesBuilder ev name >>= fun named =>
        if named then words ev .main name >>= fun t =>
          findAccepted host ev name (Manifest.namedPath t)
        else shownName ev name >>= fun t => refuse (.invalidBuilderName t))
      (namesBuilder ev (σ.value name) >>= fun named =>
        if named then words ev .main (σ.value name) >>= fun t =>
          findAccepted host ev (σ.value name) (Manifest.namedPath t)
        else shownName ev (σ.value name) >>= fun t => refuse (.invalidBuilderName t)) :=
    .bind (namesBuilder_follows hev name) fun _ => .ite Iff.rfl
      (.bind (wordsMain_follows hev name) fun t => findAccepted_follows hev host name _)
      (.bind (shownName_follows hev name) fun t => refuse_follows _ (.invalidBuilderName t))
  cases name with
  | text t =>
    exact .ite Iff.rfl (findAccepted_follows hev host (.text t) _)
      (refuse_follows _ (.invalidBuilderName _))
  | _ => exact hasked

end named

end Action

end EvalPlan

import EvalPlan.Catalog
import EvalPlan.Proofs.Defaults
import EvalPlan.Proofs.Failure

/-!
# Looking builders up by name

What looking a builder up by its short name comes to, at every moment of a history of lookups and of
changes to what they read. `Finds` gives the outcome stage by stage: a name that is refused, a
manifest that is missing, unreadable or without an entry, a class that is unknown or no builder, or
the builder. Each stage reads what is there now; nothing is kept from an earlier lookup
(`findNamed_along`), and a lookup leaves nothing but log entries and the errors it throws.
-/

namespace EvalPlan

open EvalPlan.Action

/-! ## Entries of a manifest -/

/-- The builder entry of a manifest is the last one of its key, unless that is empty. -/
theorem builderEntry?_eq (t : Text) :
    builderEntry? t =
      (Table.lastValue? (Manifest.rows t) Manifest.builderKey).filter fun name =>
        !name.isEmpty := by
  unfold builderEntry?
  rw [Manifest.parse_eq, Table.get?_ofRows]
  cases Table.lastValue? (Manifest.rows t) Manifest.builderKey with
  | none => rfl
  | some name => cases name <;> rfl

/-! ## Outcomes -/

/-- What is noted when a name that was accepted is looked up. -/
def World.seeking (w : World) (host : Host) (name : Text) : List Notice :=
  host.loggers.catalog.leaves .debug "Looking up named builder"
    (some (textsPortrait [("name", name), ("path", Manifest.namedPath name)])) ++
  lookups w (Manifest.namedPath name)

/-- What is noted when no manifest was found. -/
def missingEntry (host : Host) (name : Text) : List Notice :=
  host.loggers.catalog.leaves .debug "Named builder manifest not found"
    (some (textsPortrait [("path", Manifest.namedPath name)]))

/-- The manifest that counts for a name is the first that is found. -/
def World.Manifests (w : World) (name : Text) (manifest : Resource) : Prop :=
  ∃ others, w.resources.find w.files (Manifest.namedPath name) = manifest :: others

/-- The class that the manifest of a name gives: its last entry, if that is not empty. -/
def World.NamesClass (w : World) (manifest : Resource) (builderName : Text) : Prop :=
  ∃ t, manifest.read w.files = .ok t ∧ builderName ≠ [] ∧
    Table.lastValue? (Manifest.rows t) Manifest.builderKey = some builderName

/-- What looking a name up comes to in a world, and what the world is then. -/
inductive Finds (host : Host) (w : World) (name : Text) : Except Value (Option Value) → World → Prop
  /-- The name is refused, and no manifest is looked for. -/
  | refused : isBuilderName name = false →
      Finds host w name (.error (.ref w.heap.size))
        (w.adding (problemObject (.invalidBuilderName (Json.quoted name))))
  /-- There is no manifest. -/
  | absent : isBuilderName name = true →
      w.resources.find w.files (Manifest.namedPath name) = [] →
      Finds host w name (.ok none) (w.noting (w.seeking host name ++ missingEntry host name))
  /-- The manifest cannot be read. -/
  | unreadable {manifest : Resource} {fault : ResourceFault} : isBuilderName name = true →
      w.Manifests name manifest → manifest.read w.files = .error fault →
      Finds host w name (.error (.ref (w.heap.size + 1)))
        (((w.noting (w.seeking host name)).adding
          (errorObject .general .main (some fault.message))).adding
            (problemObject (.unreadable manifest.origin ⟨.ref w.heap.size, fault.message⟩)))
  /-- The manifest has no entry for the builder, or the last one is empty. -/
  | noEntry {manifest : Resource} {t : Text} : isBuilderName name = true →
      w.Manifests name manifest → manifest.read w.files = .ok t →
      Table.lastValue? (Manifest.rows t) Manifest.builderKey = none ∨
        Table.lastValue? (Manifest.rows t) Manifest.builderKey = some [] →
      Finds host w name (.error (.ref w.heap.size))
        ((w.noting (w.seeking host name)).adding
          (problemObject (.noBuilderEntry manifest.origin name)))
  /-- No class has the name that the manifest gives. -/
  | unknownClass {manifest : Resource} {builderName : Text} : isBuilderName name = true →
      w.Manifests name manifest → w.NamesClass manifest builderName →
      w.types.table.get? builderName = none →
      Finds host w name (.error (.ref (w.heap.size + 1)))
        (((w.noting (w.seeking host name)).adding
          (problemObject (.unknownType (.text builderName) builderName))).adding
            (problemObject (.builderNotFound builderName name
              ⟨.ref w.heap.size, "unknown type " ++ builderName⟩)))
  /-- The class is no builder. -/
  | notBuilder {manifest : Resource} {builderName : Text} {type : Value} :
      isBuilderName name = true →
      w.Manifests name manifest → w.NamesClass manifest builderName →
      w.types.table.get? builderName = some type → w.heap.isBuilder type = false →
      Finds host w name (.error (.ref w.heap.size))
        ((w.noting (w.seeking host name)).adding
          (problemObject (.namedNotBuilder builderName manifest.origin)))
  /-- The class is a builder. -/
  | found {manifest : Resource} {builderName : Text} {builder : Value} :
      isBuilderName name = true →
      w.Manifests name manifest → w.NamesClass manifest builderName →
      w.types.table.get? builderName = some builder → w.heap.isBuilder builder = true →
      Finds host w name (.ok (some builder)) (w.noting (w.seeking host name))

namespace Action

variable {host : Host} (ev : Evaluator) {w : World}

/-- A builder that is no type is refused, with the unknown type as the cause. -/
theorem run_loadNamed_unknown (whole : w.types.broken = none) (name origin : Text)
    {builderName : Text} (unknown : w.types.table.get? builderName = none) :
    ExceptT.run (loadNamed ev (.text name) origin builderName) w =
      (.error (.ref (w.heap.size + 1)),
        (w.adding (problemObject (.unknownType (.text builderName) builderName))).adding
          (problemObject (.builderNotFound builderName name
            ⟨.ref w.heap.size, "unknown type " ++ builderName⟩))) := by
  let missing : Problem := .unknownType (.text builderName) builderName
  -- the error of the lookup in the table is described before it becomes a cause
  have described : ExceptT.run (cause ev (.ref w.heap.size)) (w.adding (problemObject missing)) =
      (.ok ⟨.ref w.heap.size, missing.message⟩, w.adding (problemObject missing)) :=
    run_bind_ok (Heap.describes_problem (World.object?_adding w (problemObject missing)) ev _ rfl)
  have loaded : ExceptT.run (tryCatch (loadExact builderName) fun thrown => do
      let name ← words ev .main (.text name)
      let c ← cause ev thrown
      refuse (.builderNotFound builderName name c)) w =
        (.error (.ref (w.heap.size + 1)), (w.adding (problemObject missing)).adding
          (problemObject (.builderNotFound builderName name ⟨.ref w.heap.size, missing.message⟩))) := by
    rw [run_tryCatch, run_loadExact_unknown whole unknown]
    have worded : ExceptT.run (words ev .main (.text name)) (w.adding (problemObject missing)) =
      (.ok name, w.adding (problemObject missing)) := rfl
    exact (run_bind_ok worded).trans ((run_bind_ok described).trans (by
      simp [refuse, run_bind, World.adding]))
  exact run_bind_error loaded

/-- A type is answered if it is a builder, and refused otherwise. -/
theorem run_loadNamed_known (whole : w.types.broken = none) (name origin : Text)
    {builderName : Text} {type : Value} (known : w.types.table.get? builderName = some type) :
    ExceptT.run (loadNamed ev (.text name) origin builderName) w =
      if w.heap.isBuilder type then (.ok type, w)
      else (.error (.ref w.heap.size), w.adding (problemObject (.namedNotBuilder builderName origin))) := by
  have loaded : ExceptT.run (tryCatch (loadExact builderName) fun thrown => do
      let name ← words ev .main (.text name)
      let c ← cause ev thrown
      refuse (.builderNotFound builderName name c)) w = (.ok type, w) := by
    rw [run_tryCatch, run_loadExact_known whole known]
  unfold loadNamed
  rw [run_bind_ok loaded, run_bind_ok (run_heap w)]
  split <;> rfl

/-- An accepted name is sought among the resources after this was logged. -/
theorem run_findAccepted (intact : w.heap.Intact) (name : Text) :
    ExceptT.run (findAccepted host ev (.text name) (Manifest.namedPath name)) w =
      ExceptT.run (match w.resources.find w.files (Manifest.namedPath name) with
        | [] => do
          log ev host.loggers.catalog .debug "Named builder manifest not found"
            [("path", Value.text (Manifest.namedPath name))]
          return none
        | manifest :: _ => do
          match builderEntry? (← readResource manifest) with
          | none => refuse (.noBuilderEntry manifest.origin (← words ev .main (.text name)))
          | some builderName => return some (← loadNamed ev (.text name) manifest.origin builderName))
        (w.noting (w.seeking host name)) := by
  -- the line of the log and the question to the resources leave one entry each
  have logged := run_log ev intact host.loggers.catalog .debug "Looking up named builder"
    [("name", Value.text name), ("path", Value.text (Manifest.namedPath name))]
  have asked := run_findResources (w.noting (host.loggers.catalog.leaves .debug
    "Looking up named builder" (some (fieldsPortrait w.heap
      [("name", Value.text name), ("path", Value.text (Manifest.namedPath name))]))))
    (Manifest.namedPath name)
  have noted : (w.noting (host.loggers.catalog.leaves .debug "Looking up named builder"
      (some (fieldsPortrait w.heap
        [("name", Value.text name), ("path", Value.text (Manifest.namedPath name))])))).noting
      (lookups w (Manifest.namedPath name)) = w.noting (w.seeking host name) := by
    simp only [World.noting, World.seeking, List.append_assoc]
    rfl
  unfold findAccepted
  rw [run_bind_ok logged, run_bind_ok asked]
  exact congrArg _ noted

end Action

section outcome

variable {host : Host} {ev : Evaluator} {w w' : World} {name : Text}
  {r : Except Value (Option Value)}
  {manifest : Resource}

/-- The class that a manifest gives is unknown, no builder or the answer. -/
theorem finds_of_class (whole : w.types.broken = none) (accepted : isBuilderName name = true)
    (first : w.Manifests name manifest) {builderName : Text}
    (names : w.NamesClass manifest builderName)
    (run : ExceptT.run (do return some (← loadNamed ev (.text name) manifest.origin builderName))
      (w.noting (w.seeking host name)) = (r, w')) : Finds host w name r w' := by
  -- the class has to be known first, and then to be a builder
  cases known : w.types.table.get? builderName with
  | none =>
    have loaded := run_loadNamed_unknown ev (w := w.noting (w.seeking host name)) whole name
      manifest.origin known
    rw [run_bind_error loaded] at run
    cases run
    exact .unknownClass accepted first names known
  | some type =>
    have loaded := run_loadNamed_known ev (w := w.noting (w.seeking host name)) whole name
      manifest.origin known
    cases builds : w.heap.isBuilder type with
    | false =>
      have refused := loaded.trans (if_neg (by simpa [World.noting] using builds))
      rw [run_bind_error refused] at run
      cases run
      exact .notBuilder accepted first names known builds
    | true =>
      have answered := loaded.trans (if_pos builds)
      rw [run_bind_ok answered] at run
      cases run
      exact .found accepted first names known builds

/-- The manifest that counts cannot be read, gives no class or gives one. -/
theorem finds_of_manifest (whole : w.types.broken = none) (accepted : isBuilderName name = true)
    (first : w.Manifests name manifest)
    (run : ExceptT.run (do
      match builderEntry? (← readResource manifest) with
      | none => refuse (.noBuilderEntry manifest.origin (← words ev .main (.text name)))
      | some builderName => return some (← loadNamed ev (.text name) manifest.origin builderName))
      (w.noting (w.seeking host name)) = (r, w')) : Finds host w name r w' := by
  cases read : manifest.read w.files with
  | error fault =>
    rw [run_bind_error (run_readResource_error (w := w.noting (w.seeking host name)) read)] at run
    cases run
    exact .unreadable accepted first read
  | ok t =>
    rw [run_bind_ok (run_readResource_ok (w := w.noting (w.seeking host name)) read),
      builderEntry?_eq] at run
    -- an entry without a value counts as no entry
    cases entry : Table.lastValue? (Manifest.rows t) Manifest.builderKey with
    | none =>
      rw [entry] at run
      cases run
      exact .noEntry accepted first read (.inl entry)
    | some builderName =>
      cases builderName with
      | nil =>
        rw [entry] at run
        cases run
        exact .noEntry accepted first read (.inr entry)
      | cons u rest =>
        rw [entry] at run
        exact finds_of_class whole accepted first ⟨t, read, by simp, entry⟩ run

/-- Looking a name up comes to its outcome. -/
theorem findNamed_finds (intact : w.heap.Intact) (whole : w.types.broken = none)
    (run : ExceptT.run (findNamed host ev name) w = (r, w')) : Finds host w name r w' := by
  unfold findNamed at run
  cases accepted : isBuilderName name with
  | false =>
    rw [accepted] at run
    cases run
    exact .refused accepted
  | true =>
    rw [if_pos accepted, run_findAccepted ev intact name] at run
    -- the first manifest decides, and the others are not read
    cases sought : w.resources.find w.files (Manifest.namedPath name) with
    | nil =>
      have logged := run_log (w := w.noting (w.seeking host name)) ev intact
        host.loggers.catalog .debug "Named builder manifest not found"
        [("path", Value.text (Manifest.namedPath name))]
      simp only [sought] at run
      rw [run_bind_ok logged] at run
      cases run
      have outcome : Finds host w name _ _ := .absent accepted sought
      rwa [World.noting, ← List.append_assoc] at outcome
    | cons manifest others =>
      rw [sought] at run
      exact finds_of_manifest whole accepted ⟨others, sought⟩ run

end outcome

/-! ## Lookups change nothing -/

/-- What a lookup leaves: log entries and the errors it throws, and nothing else. -/
structure World.OnlyLooked (w w' : World) : Prop where
  same : w' = { w with heap := w'.heap, notices := w'.notices }
  gains : w.heap.Gains w'.heap

namespace World.OnlyLooked

variable {w w₁ w₂ : World}

/-- Nothing was done but looking. -/
theorem refl (w : World) : w.OnlyLooked w := ⟨rfl, .refl _⟩

/-- Looking twice is looking. -/
theorem trans (h : w.OnlyLooked w₁) (h' : w₁.OnlyLooked w₂) : w.OnlyLooked w₂ := by
  refine ⟨?_, h.gains.trans h'.gains⟩
  rw [h'.same, h.same]

/-- Notices are all that looking leaves. -/
theorem noting (w : World) (notices : List Notice) : w.OnlyLooked (w.noting notices) :=
  ⟨rfl, .refl _⟩

/-- New objects that cannot be called matter to nothing that is looked at. -/
theorem adding (w : World) {o : Object} (uncallable : ∀ c, o.shape ≠ .callable c) :
    w.OnlyLooked (w.adding o) := ⟨rfl, w.heap.gains_push uncallable⟩

/-- Neither does a refusal. -/
theorem refusing (w : World) (p : Problem) : w.OnlyLooked (w.adding (problemObject p)) :=
  adding w nofun

end World.OnlyLooked

namespace Finds

variable {host : Host} {w w' : World} {name : Text} {r : Except Value (Option Value)}

/-- A lookup changes no state. -/
theorem onlyLooked (h : Finds host w name r w') : w.OnlyLooked w' := by
  have noted : w.OnlyLooked (w.noting (w.seeking host name)) := .noting w _
  cases h with
  | refused => exact .refusing w _
  | absent => exact .noting w _
  | unreadable => exact (noted.trans (.adding _ fun _ h => by cases h)).trans (.refusing _ _)
  | noEntry => exact noted.trans (.refusing _ _)
  | unknownClass => exact (noted.trans (.refusing _ _)).trans (.refusing _ _)
  | notBuilder => exact noted.trans (.refusing _ _)
  | found => exact noted

/-- Whatever class a lookup answers is a builder. -/
theorem isBuilder {builder : Value} (h : Finds host w name (.ok (some builder)) w') :
    w'.heap.isBuilder builder = true := by
  cases h with
  | found _ _ _ _ builds => exact builds

end Finds

/-! ## Histories -/

/-- A change of what lookups read. -/
inductive CatalogChange
  /-- A resource is listed. -/
  | list (resource : ListedResource)
  /-- Something is put at a path. -/
  | write (path : Text) (node : FileNode)
  /-- What lies at a path is taken away. -/
  | delete (path : Text)
  /-- A name stands for a type from now on. -/
  | define (name : Text) (type : Value)

/-- The world after a change. -/
def CatalogChange.apply (w : World) : CatalogChange → World
  | list resource => { w with resources := w.resources.add resource }
  | write path node => { w with files := w.files.write path node }
  | delete path => { w with files := w.files.delete path }
  | define name type => { w with types := { w.types with table := w.types.table.put name type } }

/-- A step of a history: a name is looked up, or what lookups read changes. -/
inductive CatalogStep
  /-- A name is looked up. -/
  | lookup (name : Text)
  /-- What lookups read changes. -/
  | change (c : CatalogChange)

namespace CatalogStep

/-- The change that a step is. -/
def change? : CatalogStep → Option CatalogChange
  | lookup _ => none
  | change c => some c

/-- The world after a step. -/
def after (host : Host) (ev : Evaluator) (w : World) : CatalogStep → World
  | lookup name => (ExceptT.run (findNamed host ev name) w).2
  | change c => c.apply w

end CatalogStep

variable {host : Host} {ev : Evaluator} {w w' : World}

/-- A change of the catalog breaks no types and mends none. -/
theorem CatalogChange.broken_apply (c : CatalogChange) :
    (c.apply w).types.broken = w.types.broken := by
  cases c <;> rfl

/-- It makes no objects. -/
theorem CatalogChange.heap_apply (c : CatalogChange) : (c.apply w).heap = w.heap := by
  cases c <;> rfl

/-- A change is the same for worlds that differ by lookups. -/
theorem World.OnlyLooked.apply (h : w.OnlyLooked w') (c : CatalogChange) :
    (c.apply w).OnlyLooked (c.apply w') := by
  obtain ⟨same, gains⟩ := h
  refine ⟨?_, by rwa [c.heap_apply, c.heap_apply]⟩
  rw [same]
  cases c <;> rfl

/-- The lookups of a history leave no trace in what later lookups read. -/
theorem foldl_after_onlyLooked (host : Host) (ev : Evaluator) (intact : w.heap.Intact)
    (whole : w.types.broken = none) (looked : w.OnlyLooked w') (steps : List CatalogStep) :
    ((steps.filterMap CatalogStep.change?).foldl CatalogChange.apply w).OnlyLooked
      (steps.foldl (CatalogStep.after host ev) w') := by
  -- `w` goes through the changes alone, `w'` through the whole history
  induction steps generalizing w w' with
  | nil => exact looked
  | cons step steps ih =>
    cases step with
    | lookup name =>
      have whole' : w'.types.broken = none := by rw [looked.same]; exact whole
      have outcome : Finds host w' name (ExceptT.run (findNamed host ev name) w').1
          (ExceptT.run (findNamed host ev name) w').2 :=
        findNamed_finds (intact.extends_ looked.gains.kept) whole' rfl
      exact ih intact whole (looked.trans outcome.onlyLooked)
    | change c =>
      have kept : (c.apply w).heap.Intact := by rw [c.heap_apply]; exact intact
      exact ih kept (c.broken_apply.trans whole) (looked.apply c)

/-- Nor do many changes, and types that can be asked for still can after them. -/
theorem foldl_apply (whole : w.types.broken = none) (changes : List CatalogChange) :
    (changes.foldl CatalogChange.apply w).heap = w.heap ∧
      (changes.foldl CatalogChange.apply w).types.broken = none := by
  induction changes generalizing w with
  | nil => exact ⟨rfl, whole⟩
  | cons c changes ih =>
    obtain ⟨heap, broken⟩ := ih (c.broken_apply.trans whole)
    exact ⟨heap.trans c.heap_apply, broken⟩

/-- What holds of looking a name up at a moment of a history. -/
structure LooksUp (host : Host) (ev : Evaluator) (w : World) (steps : List CatalogStep)
    (now : World) (name : Text) : Prop where
  /-- Of the history nothing but the changes counts: earlier lookups left log entries and the errors
  that they threw. -/
  current : ((steps.filterMap CatalogStep.change?).foldl CatalogChange.apply w).OnlyLooked now
  /-- What is a builder does not depend on them. -/
  builders : w.heap.Rooted → ∀ type, w.heap.isType type = true →
    now.heap.isBuilder type = w.heap.isBuilder type
  /-- The outcome is that of what is there now. -/
  outcome : Finds host now name (ExceptT.run (findNamed host ev name) now).1
    (ExceptT.run (findNamed host ev name) now).2
  /-- The lookup changes no state either. -/
  unchanged : now.OnlyLooked (ExceptT.run (findNamed host ev name) now).2
  /-- Whatever class is answered is a builder. -/
  genuine : ∀ builder, (ExceptT.run (findNamed host ev name) now).1 = .ok (some builder) →
    (ExceptT.run (findNamed host ev name) now).2.heap.isBuilder builder = true

/-- At every moment of a history of lookups and changes, looking a name up comes to what the
resources and types say that are there then. -/
theorem findNamed_along (host : Host) (ev : Evaluator) {w : World} (intact : w.heap.Intact)
    (whole : w.types.broken = none) (steps : List CatalogStep) (name : Text) :
    LooksUp host ev w steps (steps.foldl (CatalogStep.after host ev) w) name := by
  have current := foldl_after_onlyLooked host ev intact whole (.refl w) steps
  -- changes add no objects, so all that was added are errors of lookups
  have ⟨heap, broken⟩ := foldl_apply whole (steps.filterMap CatalogStep.change?)
  have gains := heap ▸ current.gains
  generalize steps.foldl (CatalogStep.after host ev) w = now at current gains ⊢
  have wholeNow : now.types.broken = none := by rw [current.same]; exact broken
  have outcome : Finds host now name (ExceptT.run (findNamed host ev name) now).1
      (ExceptT.run (findNamed host ev name) now).2 :=
    findNamed_finds (intact.extends_ gains.kept) wholeNow rfl
  refine ⟨current, fun rooted type known => Heap.isBuilder_eq rooted gains known, outcome,
    outcome.onlyLooked, fun builder answer => ?_⟩
  rw [answer] at outcome
  exact outcome.isBuilder

/-- A history in which a name is looked up in vain, and then two manifests are listed for it. -/
def shelvingSteps : List CatalogStep :=
  [.lookup "csv",
    .change (.list ⟨Manifest.namedPath "csv", "first",
      some ("builder=nowhere.Reader\n" ++ "builder=evalconf.data.CsvDataSourceBuilder")⟩),
    .change (.list ⟨Manifest.namedPath "csv", "second", none⟩)]

/-- The world after that history. -/
def shelvedWorld : World :=
  shelvingSteps.foldl (CatalogStep.after printingHost (evaluator printingHost 0))
    { World.initial Domain.heap with types := ⟨Domain.types, none⟩ }

/-- The name then stands for a builder, the last entry of the first manifest. -/
theorem findNamed_along_shelving :
    ∃ builder w',
      ExceptT.run (findNamed printingHost (evaluator printingHost 0) "csv") shelvedWorld =
        (.ok (some builder), w') ∧ w'.heap.isBuilder builder = true := by
  have looks : LooksUp printingHost (evaluator printingHost 0)
      { World.initial Domain.heap with types := ⟨Domain.types, none⟩ }
      shelvingSteps shelvedWorld "csv" :=
    findNamed_along printingHost (evaluator printingHost 0) (Heap.intact_initial _) rfl
      shelvingSteps "csv"
  have answers : (ExceptT.run (findNamed printingHost (evaluator printingHost 0) "csv")
      shelvedWorld).1.toOption.join.isSome = true := by
    decide +kernel
  obtain ⟨builder, found⟩ := Option.isSome_iff_exists.mp answers
  have answer : (ExceptT.run (findNamed printingHost (evaluator printingHost 0) "csv")
      shelvedWorld).1 = .ok (some builder) := by
    revert found
    generalize (ExceptT.run (findNamed printingHost (evaluator printingHost 0) "csv")
      shelvedWorld).1 = r
    rintro found
    cases r with
    | error _ => cases found
    | ok answer => exact congrArg Except.ok found
  exact ⟨builder, _, pair_eq answer, looks.genuine builder answer⟩

end EvalPlan

import EvalPlan.Engine
import EvalPlan.Proofs.Modules

/-!
# The names of the domain's classes

The application knows the classes of the domain before it loads any module, and imports their
namespaces before those of its settings. Types of modules have a dot in their names. So a short name
of the domain comes to no type of a module, unless a module defines types in the domain's own
namespaces (`builtIn_standsFor`).

`ResolvesTypes` says how type names are resolved altogether.
-/

namespace EvalPlan

open EvalPlan.Action

/-! ## The domain -/

namespace Domain

/-- The name lies in one of the domain's namespaces. -/
def claims (name : Text) : Bool := imports.any fun space => (space ++ [Text.dot]).isPrefixOf name

theorem claims_qualified {space : Text} (h : space ∈ imports) (name : Text) :
    claims (qualified space name) = true :=
  List.any_eq_true.mpr ⟨space, h, List.isPrefixOf_iff_prefix.mpr (List.prefix_append _ _)⟩

/-- Among the domain's own types, the short name of a class stands for the class. -/
theorem standsFor_named {k : Kin} (hk : k ∈ Kin.named) :
    StandsFor types imports k.name (.ref k.ref) := by
  refine standsFor_iff_find?.mpr ⟨k.fullName, ?_, ?_⟩
  · revert k
    decide +kernel
  · cases k with
    | taskBuilder => exact absurd hk (by decide)
    | _ => rfl

/-- The short name of a class has no dot. -/
theorem dot_notMem_name (k : Kin) : Text.dot ∉ k.name := by
  cases k <;> decide

end Domain

theorem dot_mem_qualified (space name : Text) : Text.dot ∈ qualified space name := by
  simp [qualified]

section defineTypes

variable {w : World} (empty : w.types = ⟨[], none⟩)
  (classes : ∀ k ∈ Kin.named, w.heap.isType (.ref k.ref) = true)

/-- Definitions that are accepted are all carried out. -/
theorem run_forM_defineType {rows : List (Text × Value)} (h : ∀ row ∈ rows, w.accepts row = true) :
    ExceptT.run (rows.forM fun row => defineType row.1 row.2) w =
      (.ok ⟨⟩, w.knowing rows) := by
  induction rows generalizing w with
  | nil => rfl
  | cons row rest ih =>
    have first := World.run_defineType_of_accepts (h row List.mem_cons_self)
    exact (run_bind_ok first).trans (ih fun row' hrow' => h row' (List.mem_cons_of_mem _ hrow'))

include empty classes

/-- The domain's types are known before anything else is. -/
theorem run_defineTypes :
    ExceptT.run Domain.defineTypes w = (.ok ⟨⟩, { w with types := ⟨Domain.types, none⟩ }) := by
  have accepted : ∀ row ∈ Domain.types, w.accepts row = true := by
    intro row hrow
    obtain ⟨k, hk, rfl⟩ := List.mem_map.mp hrow
    have filled : Text.isBlankOnly k.fullName = false := by cases k <;> decide
    simp [World.accepts, filled, classes k hk]
  have table : TypeSource.adding ⟨[], none⟩ Domain.types = ⟨Domain.types, none⟩ := rfl
  rw [Domain.defineTypes, run_forM_defineType accepted, World.knowing, empty, table]

end defineTypes

/-! ## Modules beside the domain -/

/-- Rows that lie elsewhere than in the domain's namespaces, but in some namespace, leave what the
short name of a class stands for. -/
theorem builtIn_standsFor {rows : List (Text × Value)} (dotted : ∀ row ∈ rows, Text.dot ∈ row.1)
    (elsewhere : ∀ row ∈ rows, Domain.claims row.1 = false) (extra : List Text) {k : Kin}
    (hk : k ∈ Kin.named) :
    StandsFor (Table.putAll Domain.types rows) (Domain.imports ++ extra) k.name (.ref k.ref) := by
  refine StandsFor.append (StandsFor.of_eq (Domain.standsFor_named hk) fun full hfull => ?_) extra
  -- none of the names that come before the namespaces of the settings is defined by a module
  have absent : ∀ row ∈ rows, row.1 ≠ full := by
    rintro row hrow rfl
    rcases List.mem_cons.mp hfull with short | long
    · exact Domain.dot_notMem_name k (short ▸ dotted row hrow)
    · obtain ⟨space, hspace, long⟩ := List.mem_map.mp long
      have claimed := Domain.claims_qualified hspace k.name
      rw [long, elsewhere row hrow] at claimed
      cases claimed
  have last : Table.lastValue? rows full = none := by
    simpa [Table.lastValue?] using fun name type hrow => absent (name, type) hrow
  rw [Table.get?_putRows, last, Option.none_or]

section engine

variable (host : Host) {ev : Evaluator} (hev : ev.Meets (.keeping fun w w' => w'.types = w.types))

include hev

/-- Starting an engine over directories adds what their modules define, and nothing else if it does
not get so far. -/
theorem createEngine_adds (roots : Option (List Text)) (dirs : List ModuleDir) :
    Adds (createEngine host ev roots dirs) fun w =>
      (imports host ev dirs w).flatMap (Import.defined host ev) := by
  have law := keepsTypes_aloof.toStepwise
  have placed (dirs : World → List Text) : Keeps (fun w w' => w'.types = w.types)
      (modify fun w => { w with resources := .roots (dirs w) }) := fun _ => rfl
  exact (loadModuleDirs_adds host hev dirs).bind_keeps fun _ =>
    law.bind (placed _) fun _ => startEngine_keepsTypes host hev

end engine

/-! ## How type names are resolved -/

/-- How type names are resolved in a world. -/
structure ResolvesNames (host : Host) (ev : Evaluator) (w : World) : Prop where
  /-- A type is answered exactly if it is that of the first defined one of the name itself and the
  name behind each imported namespace. -/
  answers : ∀ imports name type w', ExceptT.run (loadType imports name) w = (.ok type, w') ↔
    StandsFor w.types.table imports name type ∧ w' = w
  /-- An error is thrown exactly if none of them is defined. -/
  throws : ∀ imports name thrown w', ExceptT.run (loadType imports name) w = (.error thrown, w') ↔
    Unknown w.types.table imports name ∧ thrown = .ref w.heap.size ∧
      w' = w.adding (problemObject (.unknownType (.text name) name))
  /-- The error is one about loading types, and holds the name as it was given. -/
  carries : ∀ name h, h = (w.adding (problemObject (.unknownType (.text name) name))).heap →
    h.errorKind? (.ref w.heap.size) = some .typeLoad ∧
      h.text? (.ref w.heap.size) "typeName" = some name
  /-- Namespaces that are imported behind others change nothing for a name that is resolved. -/
  extended : ∀ imports more name type w',
    ExceptT.run (loadType imports name) w = (.ok type, w') →
      ExceptT.run (loadType (imports ++ more) name) w = (.ok type, w')
  /-- An engine that is asked for a type by a text resolves it with the namespaces that it holds. -/
  asked : host.role = .engine → ∀ spaces imports,
    ExceptT.run (property ev .main (.ref host.role.facade) "imports") w = (.ok spaces, w) →
    w.heap.list? spaces = some (imports.map Value.text) → ∀ name,
      ExceptT.run (loadNamedType host ev (.text name)) w = ExceptT.run (loadType imports name) w

theorem resolvesNames (host : Host) (ev : Evaluator) {w : World} (whole : w.types.broken = none) :
    ResolvesNames host ev w where
  answers _ _ _ _ := run_loadType_eq_ok_iff whole
  throws _ _ _ _ := run_loadType_eq_error_iff whole
  carries name h heap := by
    have added : h[w.heap.size]? = some (problemObject (.unknownType (.text name) name)) := by
      rw [heap]
      simp [World.adding]
    have own : (problemObject (.unknownType (.text name) name)).own? "typeName" =
        some (.ordinary (.text name)) := rfl
    refine ⟨?_, ?_⟩
    · simp [Heap.errorKind?, Heap.shape?, Heap.object?, added, problemObject, Object.empty,
        Problem.kind]
    · rw [Heap.text?, Heap.value?, Heap.find?, Heap.slot?_own added own]
      rfl
  extended _ _ _ _ _ h :=
    (run_loadType_eq_ok_iff whole).mpr
    (((run_loadType_eq_ok_iff whole).mp h).imp_left fun h => h.append _)
  asked role _ _ holds listed := run_loadNamedType_text role holds listed

/-- How type names are resolved by an engine of the application. -/
structure ResolvesTypes (host : Host) (ev : Evaluator) : Prop where
  /-- Definitions put the rows that are accepted into the table, one after another. -/
  defined : ∀ (w : World) rows, (w.defining rows).types = w.types.adding (w.definitions rows)
  /-- After any definitions, names are resolved by them. -/
  resolves : ∀ (w : World) rows, w.types.broken = none → ResolvesNames host ev (w.defining rows)
  /-- No script changes which types are known. -/
  kept : ev.Obeys fun w w' => w'.types = w.types
  /-- The short name of each class of the domain stands for the class once an engine was started, or
  failed to start, if no module defines a type in the domain's namespaces. -/
  builtIn : ∀ (w : World) roots dirs, w.types = ⟨[], none⟩ →
    (∀ k ∈ Kin.named, w.heap.isType (.ref k.ref) = true) →
    (∀ i ∈ imports host ev dirs (ExceptT.run Domain.defineTypes w).2, ∀ row ∈ i.defined host ev,
      Domain.claims row.1 = false) →
    ∀ w', w' = (ExceptT.run (do Domain.defineTypes; createEngine host ev roots dirs) w).2 →
      ∀ k ∈ Kin.named, ExceptT.run (loadType host.imports k.name) w' = (.ok (.ref k.ref), w')

/-- An engine whose imports begin with the domain's namespaces resolves type names by the rule, and
the short names of the domain's classes to these. -/
theorem resolvesTypes (host : Host) (n : Nat) {extra : List Text}
    (imported : host.imports = Domain.imports ++ extra) :
    ResolvesTypes host (evaluator host n) where
  defined := World.types_defining
  resolves w rows whole := by
    refine resolvesNames host _ ?_
    rw [World.types_defining]
    exact whole
  kept := (evaluator_keepsTypes host n).obeys
  builtIn w roots dirs empty classes elsewhere w' hw' k hk := by
    have hev := evaluator_keepsTypes host n
    -- the domain's types are known first, and whatever comes of the start only adds rows behind
    -- them
    have known := run_defineTypes empty classes
    rw [known] at elsewhere
    rw [run_bind_ok known] at hw'
    have types := createEngine_adds host hev roots dirs { w with types := ⟨Domain.types, none⟩ }
    rw [← hw'] at types
    have whole : w'.types.broken = none := by rw [types]; rfl
    refine run_loadType_of_standsFor whole ?_
    rw [types, imported]
    -- each of these rows was defined by a module, under the namespace of its file
    refine builtIn_standsFor (fun row hrow => ?_) (fun row hrow => ?_) extra hk
    · obtain ⟨i, -, hrow⟩ := List.mem_flatMap.mp hrow
      obtain ⟨name, hname⟩ := Import.exists_name_of_mem_defined hrow
      rw [hname]
      exact dot_mem_qualified _ _
    · obtain ⟨i, hi, hrow⟩ := List.mem_flatMap.mp hrow
      exact elsewhere i hi row hrow

/-- Modules define another class called `Metric` in a namespace that is imported too, and yet the
name stands for the class of the domain. -/
theorem resolvesTypes_plugins :
    pluginHost.imports = Domain.imports ++ [("plugins.metrics" : Text)] ∧
    ((imports pluginHost (evaluator pluginHost 2) [pluginDir]
      (ExceptT.run Domain.defineTypes pluginWorld).2).flatMap
        (Import.defined pluginHost (evaluator pluginHost 2))).map (·.1) =
          ["plugins.metrics.Metric", "plugins.metrics.Metric", "plugins.metrics.Other"].map
            Text.ofString ∧
    ∃ w', w' = (ExceptT.run (do
        Domain.defineTypes
        createEngine pluginHost (evaluator pluginHost 2) none [pluginDir]) pluginWorld).2 ∧
      ExceptT.run (loadType pluginHost.imports "Metric") w' = (.ok (.ref Kin.metric.ref), w') := by
  have resolved : ResolvesTypes pluginHost (evaluator pluginHost 2) :=
    resolvesTypes pluginHost 2 rfl
  have classes : ∀ k ∈ Kin.named, pluginWorld.heap.isType (.ref k.ref) = true := by decide +kernel
  have elsewhere : ∀ i ∈ imports pluginHost (evaluator pluginHost 2) [pluginDir]
      (ExceptT.run Domain.defineTypes pluginWorld).2,
      ∀ row ∈ i.defined pluginHost (evaluator pluginHost 2), Domain.claims row.1 = false := by
    decide +kernel
  refine ⟨rfl, by decide +kernel, _, rfl, ?_⟩
  exact resolved.builtIn pluginWorld none [pluginDir] rfl classes elsewhere _ rfl .metric
    (by decide)

end EvalPlan

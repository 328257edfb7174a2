import EvalPlan.Proofs.Discovery
import EvalPlan.Proofs.Listing
import Mathlib.Data.List.Pairwise

/-!
# Exports of one name

An export gives its name to its class, and the default export the class's own name. The names of two
exports are the same exactly if the default export is a class with the name of another export
(`Plugin.Collides`). Then the module answers a name twice, and of the two classes the one is loaded
whose export comes later in the order of names. `definesExports` says so of every module, and that
there is no other way in which an exported class gets lost; `collidingPlugin_replaces` is a module
in which one does.
-/

namespace EvalPlan

open EvalPlan.Action

namespace Plugin

variable {h : Heap} {space : Text} {exported : Table Text Value}

/-! ## Names of exports -/

/-- The name that an export gives to its class, if it is a class and gives it a name. -/
def className? (h : Heap) (row : Text × Value) : Option Text :=
  if h.isType row.2 then typeName? h row.1 row.2 else none

/-- An export has a row if it has a name. -/
theorem row?_eq_map (h : Heap) (space : Text) (row : Text × Value) :
    row? h space row = (className? h row).map fun name => (qualified space name, row.2) := by
  unfold row? className?
  split <;> rfl

/-- Different names have different qualified names. -/
theorem qualified_injective (space : Text) : Function.Injective (qualified space) :=
  fun _ _ same => List.append_cancel_left same

/-- A row under a qualified name is that of an export with the name. -/
theorem row?_eq_some_qualified_iff {row : Text × Value} {name : Text} {type : Value} :
    row? h space row = some (qualified space name, type) ↔ className? h row = some name ∧
      row.2 = type := by
  rw [row?_eq_map, Option.map_eq_some_iff]
  constructor
  · rintro ⟨own, named, same⟩
    obtain ⟨full, rfl⟩ := Prod.mk.inj same
    exact ⟨qualified_injective space full ▸ named, rfl⟩
  · rintro ⟨named, rfl⟩
    exact ⟨name, named, rfl⟩

/-- A class has no name exactly if its export has none, or is the default export of a class without
a name. -/
theorem className?_eq_none_iff {label : Text} {type : Value} (isType : h.isType type = true) :
    className? h (label, type) = none ↔
      if label = "default" then
        ∀ name, h.text? type "name" = some name → name = [] ∨ name = "default"
      else label = [] := by
  rw [className?, if_pos isType, Option.eq_none_iff_forall_ne_some]
  simp only [ne_eq, typeName?_eq_some_iff]
  split
  · refine forall_congr' fun name => ?_
    tauto
  next other =>
    constructor
    · intro nameless
      by_contra filled
      exact nameless label ⟨filled, other, rfl⟩
    · rintro rfl name ⟨filled, -, rfl⟩
      exact filled rfl

/-- An export that is not the default one has no other name than its own. -/
theorem label_of_className? {row : Text × Value} {name : Text}
    (named : className? h row = some name) (other : row.1 ≠ "default") : row.1 = name := by
  unfold className? at named
  split at named
  · obtain ⟨-, -, same⟩ := typeName?_eq_some_iff.mp named
    rwa [if_neg other] at same
  · cases named

/-- The default export is a class with the name of another class that is exported. -/
def Collides (h : Heap) (exported : Table Text Value) : Prop :=
  ∃ (label : Text) (own type : Value), label ≠ "default" ∧ (("default" : Text), own) ∈ exported ∧
    (label, type) ∈ exported ∧
    className? h ("default", own) = some label ∧ className? h (label, type) = some label

/-- The exports are listed in the order of their names, each once. -/
def InNameOrder (exported : Table Text Value) : Prop :=
  exported.Pairwise fun row row' => row.1 < row'.1

/-- Putting the labels in order puts them in order. -/
theorem inNameOrder_inNameOrder (labels : List Text) (exported : Table Text Value) :
    InNameOrder (inNameOrder labels exported) := by
  have sorted := Text.sorted_sort labels.eraseDups
  have nodup : (Text.sort labels.eraseDups).Nodup :=
    (Text.sort_perm _).nodup_iff.mpr (Files.nodup_eraseDups _)
  have increasing : (Text.sort labels.eraseDups).Pairwise (· < ·) :=
    (sorted.and nodup).imp fun ⟨le, ne⟩ => by
      by_contra notBefore
      exact ne (List.le_antisymm le (List.not_lt.mp notBefore))
  refine List.pairwise_filterMap.mpr
    (increasing.imp fun {label label'} lt row made row' made' => ?_)
  obtain ⟨_, -, rfl⟩ := Option.map_eq_some_iff.mp made
  obtain ⟨_, -, rfl⟩ := Option.map_eq_some_iff.mp made'
  exact lt

/-- Two exports of one name collide. -/
theorem collides_of_className? {row row' : Text × Value} {name : Text} (mem : row ∈ exported)
    (mem' : row' ∈ exported) (named : className? h row = some name)
    (named' : className? h row' = some name) (apart : row.1 ≠ row'.1) : Collides h exported := by
  obtain ⟨label, type⟩ := row
  obtain ⟨label', type'⟩ := row'
  by_cases default : label = "default"
  · have other : label' ≠ "default" := fun same => apart (default.trans same.symm)
    obtain rfl : label' = name := label_of_className? named' other
    exact ⟨label', type, type', other, default ▸ mem, mem', default ▸ named, named'⟩
  · obtain rfl : label = name := label_of_className? named default
    by_cases default' : label' = "default"
    · exact ⟨label, type', type, default, default' ▸ mem', mem, default' ▸ named', named⟩
    · exact absurd (label_of_className? named' default').symm apart

/-- A module answers no name twice exactly if none of its exports collide. -/
theorem nodup_names_iff (ordered : InNameOrder exported) :
    ((exported.filterMap (row? h space)).map (·.1)).Nodup ↔ ¬ Collides h exported := by
  have names : (exported.filterMap (row? h space)).map (·.1) =
      (exported.filterMap (className? h)).map (qualified space) := by
    rw [List.map_filterMap, List.map_filterMap]
    refine List.filterMap_congr fun row _ => ?_
    rw [row?_eq_map, Option.map_map]
    rfl
  -- the name space is the same for all, so that names differ as they do without it
  rw [names, List.nodup_map_iff (qualified_injective space), List.Nodup, List.pairwise_filterMap]
  constructor
  · rintro apart ⟨label, own, type, other, mem, mem', named, named'⟩
    -- which of two exports comes first does not matter to whether they have the same name
    have symm : Std.Symm fun row row' : Text × Value =>
        ∀ name, className? h row = some name → ∀ name', className? h row' = some name' →
          name ≠ name' :=
      ⟨fun _ _ apart name named name' named' same => apart name' named' name named same.symm⟩
    have distinct : (("default" : Text), own) ≠ (label, type) :=
      fun same => other (Prod.mk.inj same).1.symm
    exact apart.forall mem mem' distinct label named label named' rfl
  · intro settled
    refine List.Pairwise.imp_of_mem (fun {row row'} mem mem' lt name named name' named' same => ?_)
      ordered
    subst same
    refine settled (collides_of_className? mem mem' named named' fun equal => ?_)
    rw [equal] at lt
    exact List.lt_irrefl _ lt

/-! ## Which class is loaded -/

/-- Exports of one name that come later than one are all the same export. -/
theorem eq_of_className? {row row₁ row₂ : Text × Value} {name : Text}
    (ordered : InNameOrder exported)
    (mem₁ : row₁ ∈ exported) (mem₂ : row₂ ∈ exported) (named : className? h row = some name)
    (named₁ : className? h row₁ = some name) (named₂ : className? h row₂ = some name)
    (apart₁ : row.1 ≠ row₁.1) (apart₂ : row.1 ≠ row₂.1) : row₁ = row₂ := by
  have labels : row₁.1 = row₂.1 := by
    by_cases default : row.1 = "default"
    · rw [label_of_className? named₁ fun same => apart₁ (default.trans same.symm),
        label_of_className? named₂ fun same => apart₂ (default.trans same.symm)]
    · -- the first one goes by its label, so that the others do not
      have own := label_of_className? named default
      have default₁ : row₁.1 = "default" := by
        by_contra other
        exact apart₁ (own.trans (label_of_className? named₁ other).symm)
      have default₂ : row₂.1 = "default" := by
        by_contra other
        exact apart₂ (own.trans (label_of_className? named₂ other).symm)
      rw [default₁, default₂]
  by_contra different
  have symm : Std.Symm fun row row' : Text × Value => row.1 ≠ row'.1 := ⟨fun _ _ => Ne.symm⟩
  have distinct : exported.Pairwise fun row row' => row.1 ≠ row'.1 := ordered.imp fun lt equal => by
    rw [equal] at lt
    exact List.lt_irrefl _ lt
  exact distinct.forall mem₁ mem₂ different labels

/-- The class of an export is the last one that is defined under its name exactly if no later export
gives the name to another class. -/
theorem lastValue?_rows_iff {row : Text × Value} {name : Text} (ordered : InNameOrder exported)
    (mem : row ∈ exported) (named : className? h row = some name) :
    Table.lastValue? (exported.filterMap (row? h space)) (qualified space name) = some row.2 ↔
      ∀ row' ∈ exported, row.1 < row'.1 → className? h row' = some name → row'.2 = row.2 := by
  -- the induction is on the exports; the one in question is the first, or one of the others
  induction exported with
  | nil => cases mem
  | cons first rest ih =>
    obtain ⟨before, ordered'⟩ := List.pairwise_cons.mp ordered
    rcases List.mem_cons.mp mem with rfl | behind
    · have made : row? h space row = some (qualified space name, row.2) :=
        row?_eq_some_qualified_iff.mpr ⟨named, rfl⟩
      have later {row' : Text × Value} (mem' : row' ∈ row :: rest) (lt : row.1 < row'.1) :
          row' ∈ rest :=
        (List.mem_cons.mp mem').resolve_left fun same => List.lt_irrefl row.1 (same ▸ lt)
      rw [List.filterMap_cons_some made, Table.lastValue?_cons]
      simp only [beq_self_eq_true, if_true]
      cases last : Table.lastValue? (rest.filterMap (row? h space)) (qualified space name) with
      | none =>
        refine iff_of_true rfl fun row' mem' lt named' => ?_
        have made' : row? h space row' = some (qualified space name, row'.2) :=
          row?_eq_some_qualified_iff.mpr ⟨named', rfl⟩
        have defined := List.mem_filterMap.mpr ⟨row', later mem' lt, made'⟩
        exact absurd rfl (Table.lastValue?_eq_none_iff.mp last _ defined)
      | some type =>
        obtain ⟨row₁, mem₁, made₁⟩ := List.mem_filterMap.mp (Table.mem_of_lastValue? last)
        obtain ⟨named₁, rfl⟩ := row?_eq_some_qualified_iff.mp made₁
        have apart {row' : Text × Value} (mem' : row' ∈ rest) : row.1 ≠ row'.1 := fun same =>
          List.lt_irrefl row.1 (by simpa [← same] using before row' mem')
        rw [Option.some_or, Option.some.injEq]
        constructor
        · intro same row' mem' lt named'
          have one := eq_of_className? ordered' (later mem' lt) mem₁ named named' named₁
            (apart (later mem' lt))
            (apart mem₁)
          rw [one, same]
        · exact fun unchanged => unchanged row₁ (List.mem_cons_of_mem _ mem₁) (before row₁ mem₁)
            named₁
    · have defined : (qualified space name, row.2) ∈ rest.filterMap (row? h space) :=
        List.mem_filterMap.mpr ⟨row, behind, row?_eq_some_qualified_iff.mpr ⟨named, rfl⟩⟩
      have present : Table.lastValue? (rest.filterMap (row? h space)) (qualified space name) ≠
          none := fun last =>
        Table.lastValue?_eq_none_iff.mp last _ defined rfl
      obtain ⟨type, last⟩ := Option.ne_none_iff_exists'.mp present
      have same : Table.lastValue? ((first :: rest).filterMap (row? h space))
        (qualified space name) =
          Table.lastValue? (rest.filterMap (row? h space)) (qualified space name) := by
        cases made : row? h space first with
        | none => rw [List.filterMap_cons_none made]
        | some r => rw [List.filterMap_cons_some made, Table.lastValue?_cons, last, Option.some_or]
      rw [same, ih ordered' behind]
      constructor
      · intro unchanged row' mem' lt
        rcases List.mem_cons.mp mem' with rfl | mem'
        · exact absurd (List.lt_trans lt (before row behind)) (List.lt_irrefl _)
        · exact unchanged row' mem' lt
      · exact fun unchanged row' mem' => unchanged row' (List.mem_cons_of_mem _ mem')

end Plugin

/-! ## Modules that were imported -/

/-- The exports of every module that was imported are listed in the order of their names. -/
def World.InOrder (w : World) : Prop :=
  ∀ file exported, w.modules.get? file = some exported → Plugin.InNameOrder exported

/-- Without modules everything is in order. -/
theorem World.inOrder_initial (h : Heap) : (World.initial h).InOrder := nofun

/-- What leaves the modules alone leaves them in order. -/
theorem World.InOrder.of_modules {w w' : World} (h : w.InOrder) (same : w'.modules = w.modules) :
    w'.InOrder := by
  unfold InOrder
  rw [same]
  exact h

/-- Nothing but importing modules changes which of them are known. -/
theorem keepsModules_aloof : Aloof fun w w' => w'.modules = w.modules where
  refl _ := rfl
  trans h h' := h'.trans h
  onAlloc _ _ _ := rfl
  onChange _ _ _ _ := rfl
  onFrames _ _ := rfl
  onQueue _ _ := rfl
  onJoining _ _ := rfl
  onNote _ _ _ := rfl
  onPassing _ _ _ _ _ _ := rfl
  onImports _ _ _ := rfl
  onEnroll _ _ _ := rfl
  onAttach _ _ _ := rfl

/-- Declaring classes leaves the modules alone. -/
theorem keepsModules_declares : Declares (.keeping fun w w' => w'.modules = w.modules) where
  toStable := keepsModules_aloof.toSteady.stable
  define _ _ _ := rfl
  attach _ _ _ := rfl

/-- So does whatever a script does. -/
theorem evaluator_keepsModules (host : Host) (n : Nat) :
    (evaluator host n).Meets (.keeping fun w w' => w'.modules = w.modules) :=
  (keepsModules_aloof.uniform host).rules.evaluator n

/-- A module lists its exports in the order of their names, whenever it is imported. -/
theorem importModule_inOrder {ev : Evaluator}
    (hev : ev.Meets (.keeping fun w w' => w'.modules = w.modules))
    {w w₁ : World} (inOrder : w.InOrder) {path : Text} {r : Except Value (Table Text Value)}
    (imported : ExceptT.run (importModule ev path) w = (r, w₁)) :
    w₁.InOrder ∧ ∀ exported, r = .ok exported → Plugin.InNameOrder exported := by
  have law := keepsModules_declares
  have crashes {w w₁ : World} {kind : ErrorKind} {message : Text}
    {r : Except Value (Table Text Value)}
      (inOrder : w.InOrder)
      (crashed : ExceptT.run (crash kind message : Action (Table Text Value)) w = (r, w₁)) :
      w₁.InOrder ∧ ∀ exported, r = .ok exported → Plugin.InNameOrder exported := by
    cases crashed
    exact ⟨inOrder, nofun⟩
  unfold importModule at imported
  rw [run_bind_ok (run_get w)] at imported
  dsimp only at imported
  split at imported
  next exported known =>
    cases imported
    refine ⟨inOrder, ?_⟩
    rintro _ ⟨⟩
    exact inOrder _ _ known
  next =>
    split at imported
    next description _ _ =>
      split at imported
      next j _ =>
        -- what is thrown leaves the modules that were imported before
        have kept := describedValue_holds law.toStable hev (ClassKeys.ofTable []) j w
        rw [run_bind] at imported
        cases described : ExceptT.run (describedValue ev (ClassKeys.ofTable []) j) w with
        | mk answer w' =>
          rw [described] at kept imported
          cases answer <;> cases imported <;> exact ⟨inOrder.of_modules kept, nofun⟩
      next =>
        have kept := declare_holds law hev [] (Plugin.declarations description) w
        rw [run_bind] at imported
        cases declared : ExceptT.run (declare ev [] (Plugin.declarations description)) w with
        | mk answer w' =>
          rw [declared] at kept imported
          cases answer with
          | error v =>
            cases imported
            exact ⟨inOrder.of_modules kept, nofun⟩
          | ok exported =>
            cases imported
            have listed :=
              Plugin.inNameOrder_inNameOrder ((Plugin.declarations description).map (·.label))
                exported
            refine ⟨fun file other known => ?_, fun other same => Except.ok.inj same ▸ listed⟩
            by_cases own : w.files.absolute path = file
            · subst own
              rw [Table.get?_put_same] at known
              exact Option.some.inj known ▸ listed
            · rw [Table.get?_put_of_ne _ own] at known
              exact inOrder.of_modules kept file other known
    next =>
      split at imported
      · cases imported
        refine ⟨inOrder, ?_⟩
        rintro _ ⟨⟩
        exact .nil
      · exact crashes inOrder imported
    next => exact crashes inOrder imported

/-! ## Loading a module -/

/-- A module was loaded with a logger that works: what it exports, and the names that were
answered. -/
structure Loaded (host : Host) (ev : Evaluator) (path space : Text) (w : World)
    (exported : Table Text Value) (w₁ : World) (names : List Text) (w' : World) : Prop where
  inOrder : w.InOrder
  imported : ExceptT.run (importModule ev path) w = (.ok exported, w₁)
  works : host.loggers.modules.Works w₁.heap
  loaded : ExceptT.run (loadModule host ev path space) w = (.ok names, w')

/-- A module that is imported defines its rows and notes what it did. -/
theorem run_loadModule_works {host : Host} {ev : Evaluator} {path : Text} (space : Text)
    {w w₁ : World}
    {exported : Table Text Value} (imported : ExceptT.run (importModule ev path) w =
      (.ok exported, w₁))
    (works : host.loggers.modules.Works w₁.heap) :
    ExceptT.run (loadModule host ev path space) w =
      (.ok ((exported.filterMap (Plugin.row? w₁.heap space)).map (·.1)),
        (w₁.knowing (exported.filterMap (Plugin.row? w₁.heap space))).noting
          (Plugin.remarks host.loggers.modules w₁.heap path space exported)) := by
  unfold loadModule
  rw [run_bind_ok imported]
  exact (run_defineExports_works ev works path space exported).1

namespace Loaded

variable {host : Host} {n : Nat} {path space : Text} {w w₁ w' : World} {exported : Table Text Value}
  {names : List Text} (h : Loaded host (evaluator host n) path space w exported w₁ names w')

include h

/-- These are the names that loading it answers. -/
theorem eq_names : names = (exported.filterMap (Plugin.row? w₁.heap space)).map (·.1) :=
  Except.ok.inj (Prod.mk.inj (h.loaded.symm.trans (run_loadModule_works space h.imported h.works))).1

/-- This is the world it leaves. -/
theorem eq_world : w' = (w₁.knowing (exported.filterMap (Plugin.row? w₁.heap space))).noting
    (Plugin.remarks host.loggers.modules w₁.heap path space exported) :=
  (Prod.mk.inj (h.loaded.symm.trans (run_loadModule_works space h.imported h.works))).2

/-- The labels of the module are in order. -/
theorem inNameOrder : w₁.InOrder ∧ Plugin.InNameOrder exported := by
  obtain ⟨inOrder, listed⟩ :=
    importModule_inOrder (evaluator_keepsModules host n) h.inOrder h.imported
  exact ⟨inOrder, listed exported rfl⟩

/-- The class of an export is loaded under its name unless a later export gives the name to another
class. -/
theorem loadable {row : Text × Value} (mem : row ∈ exported) {name : Text}
    (named : Plugin.className? w₁.heap row = some name) : qualified space name ∈ names ∧
      (w'.types.table.get? (qualified space name) = some row.2 ↔
        ∀ row' ∈ exported, row.1 < row'.1 → Plugin.className? w₁.heap row' = some name →
          row'.2 = row.2) := by
  have made : (qualified space name, row.2) ∈ exported.filterMap (Plugin.row? w₁.heap space) :=
    List.mem_filterMap.mpr ⟨row, mem, Plugin.row?_eq_some_qualified_iff.mpr ⟨named, rfl⟩⟩
  refine ⟨h.eq_names ▸ List.mem_map_of_mem made, ?_⟩
  rw [← Plugin.lastValue?_rows_iff h.inNameOrder.2 mem named, h.eq_world]
  show (w₁.types.table.putAll _).get? _ = _ ↔ _
  rw [Table.get?_putRows]
  cases last : Table.lastValue? (exported.filterMap (Plugin.row? w₁.heap space))
    (qualified space name) with
  | none => exact absurd rfl (Table.lastValue?_eq_none_iff.mp last _ made)
  | some type => rw [Option.some_or]

end Loaded

/-- What the exports of a module are defined as. -/
structure DefinesExports (host : Host) (ev : Evaluator) : Prop where
  /-- A module that can be imported is loaded: the classes that it exports under names are defined
  one after another. -/
  loads : ∀ {path space w exported w₁}, ExceptT.run (importModule ev path) w = (.ok exported, w₁) →
    host.loggers.modules.Works w₁.heap →
    ExceptT.run (loadModule host ev path space) w =
      (.ok ((exported.filterMap (Plugin.row? w₁.heap space)).map (·.1)),
        (w₁.knowing (exported.filterMap (Plugin.row? w₁.heap space))).noting
          (Plugin.remarks host.loggers.modules w₁.heap path space exported))
  /-- At first no module was imported, and later each that was lists its exports in order. -/
  ordered : (∀ h, (World.initial h).InOrder) ∧ ∀ {path space w exported w₁ names w'},
    Loaded host ev path space w exported w₁ names w' → w'.InOrder
  /-- No name is answered twice exactly if the default export is no class with the name of another
  one. -/
  distinct : ∀ {path space w exported w₁ names w'},
    Loaded host ev path space w exported w₁ names w' →
    (names.Nodup ↔ ¬ Plugin.Collides w₁.heap exported)
  /-- A class that is exported under a name is answered. It can be loaded under the name exactly if
  no export that comes later in the order of names gives the name to another class. -/
  loadable : ∀ {path space w exported w₁ names w'},
    Loaded host ev path space w exported w₁ names w' →
    ∀ row ∈ exported, ∀ name, Plugin.className? w₁.heap row = some name →
      qualified space name ∈ names ∧
      (w'.types.table.get? (qualified space name) = some row.2 ↔
        ∀ row' ∈ exported, row.1 < row'.1 → Plugin.className? w₁.heap row' = some name →
          row'.2 = row.2)
  /-- So every class that has a name can be loaded where none collide. -/
  apart : ∀ {path space w exported w₁ names w'}, Loaded host ev path space w exported w₁ names w' →
    ¬ Plugin.Collides w₁.heap exported →
      ∀ row ∈ exported, ∀ name, Plugin.className? w₁.heap row = some name →
      w'.types.table.get? (qualified space name) = some row.2
  /-- A class has no name if it is exported without one, or is the default export and has none of
  its own. -/
  nameless : ∀ {h label type}, h.isType type = true → (Plugin.className? h (label, type) = none ↔
    if label = "default" then ∀ name, h.text? type "name" = some name → name = [] ∨ name = "default"
    else label = [])

/-- Exported classes are defined under distinct names, except that the default export may have the
name of another one. -/
theorem definesExports (host : Host) (n : Nat) : DefinesExports host (evaluator host n) where
  loads imported works := run_loadModule_works _ imported works
  ordered := ⟨World.inOrder_initial, fun h => h.inNameOrder.1.of_modules (by rw [h.eq_world]; rfl)⟩
  distinct h := h.eq_names ▸ Plugin.nodup_names_iff h.inNameOrder.2
  loadable h _ mem _ named := h.loadable mem named
  apart h settled row mem name named := by
    refine (h.loadable mem named).2.mpr fun row' mem' lt named' => absurd ?_ settled
    refine Plugin.collides_of_className? mem mem' named named' fun same => ?_
    rw [same] at lt
    exact List.lt_irrefl _ lt
  nameless := Plugin.className?_eq_none_iff

/-- A module that exports a class under a name, and by default another class with this name. -/
def collidingWorld : World :=
  { World.initial Domain.heap with
    files :=
      { nodes :=
          [("/plugins/metrics.js", .module (.object [("exports", .list
            [.list [.text "Metric", .object []],
              .list [.text "default", .object [("name", .text "Metric")]]])]))]
        cwd := "/" } }

/-- Both classes are answered under one name, and the first one is not loaded under it. -/
theorem collidingPlugin_replaces :
    (ExceptT.run (loadModule loaderHost (evaluator loaderHost 2) "/plugins/metrics.js" "plugins")
        collidingWorld).1.toOption = some [↑"plugins.Metric", ↑"plugins.Metric"] ∧
      ((ExceptT.run (importModule (evaluator loaderHost 2) "/plugins/metrics.js")
        collidingWorld).1.toOption.bind
        (·.get? "Metric")).any (fun type =>
          (ExceptT.run (importModule (evaluator loaderHost 2) "/plugins/metrics.js")
              collidingWorld).2.heap.isType type &&
            (ExceptT.run (loadModule loaderHost (evaluator loaderHost 2) "/plugins/metrics.js" "plugins")
              collidingWorld).2.types.table.get? "plugins.Metric" != some type) = true := by
  constructor <;> decide +kernel

end EvalPlan

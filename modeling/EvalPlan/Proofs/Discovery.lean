import EvalPlan.Proofs.Describing
import EvalPlan.Proofs.Modules
import EvalPlan.Proofs.OrderBlind

/-!
# Discovering modules

Loading directories of modules is a fold over what lies in them: directories in the order in which
they are given, the modules of a directory in the order of their names, and the exports of a module
in theirs. A module that cannot be imported is passed over. `DiscoversModules` says so, and that the
order in which files happen to be listed makes no difference.

The fold goes through where the logger works and what failing modules throw can be described
(`Import.Reported`); what was defined before stays defined even if it does not.
-/

namespace EvalPlan

open EvalPlan.Action

/-- The modules of a directory in the order of their names. -/
def Plugin.moduleFiles (f : Files) (dir : ModuleDir) : List (ModuleDir × Text) :=
  if f.isDirectory dir.path then (moduleNames (f.listing dir.path)).map fun file =>
    (dir, file) else []

/-- What importing the file came to can be reported: the logger works afterwards, and what was
thrown, if anything, can be described. -/
def Import.Reported (host : Host) (ev : Evaluator) (i : Import) : Prop :=
  match i.outcome with
  | .ok _ => host.loggers.modules.Works i.world.heap
  | .error thrown => ∃ words w, ExceptT.run (describe ev thrown) i.world = (.ok words, w) ∧
      host.loggers.modules.Works w.heap

/-- Nothing was thrown that is an object. -/
def Import.isPlain (i : Import) : Bool :=
  match i.outcome with
  | .ok _ => true
  | .error thrown => thrown.ref?.isNone

/-- A logger that is no object always works, and what is no object can be described. -/
theorem Import.reported_of_isPlain {host : Host} (direct : host.loggers.modules.reach = .direct)
    (ev : Evaluator) {i : Import} (plain : i.isPlain = true) : i.Reported host ev := by
  unfold isPlain at plain
  unfold Reported
  split at plain
  · exact fun reach => absurd direct reach
  next thrown _ =>
    have describable : Heap.Describable i.world.heap thrown :=
      .inl (Option.isNone_iff_eq_none.mp plain)
    obtain ⟨words, describes⟩ := describable.describes
    exact ⟨words, i.world, describes ev i.world rfl, fun reach => absurd direct reach⟩

/-! ## Exports -/

/-- What a logger leaves of the exports of a module. -/
def Plugin.remarks (l : Logger) (h : Heap) (path space : Text) (exported : List (Text × Value)) :
    List Notice :=
  (exported.filterMap (remark? h path space)).flatMap fun remark =>
    l.leaves remark.1 remark.2.1 (some (fieldsPortrait h remark.2.2))

section exports

variable {host : Host} (ev : Evaluator) {w : World} (works : host.loggers.modules.Works w.heap)
  (path space : Text)

include works

theorem run_defineExport_works (row : Text × Value) :
    ExceptT.run (defineExport host ev path space row) w =
      (.ok ((Plugin.row? w.heap space row).map (·.1)),
        (w.knowing (Plugin.row? w.heap space row).toList).noting
          (Plugin.remarks host.loggers.modules w.heap path space [row])) := by
  rcases run_defineExport host ev path space row w with ⟨silent, rowless, unmarked⟩ | ⟨remark, made,
    logged⟩
  · simp [silent, rowless, unmarked, Plugin.remarks, World.noting, World.knowing]
  · have works' : host.loggers.modules.Works
      (w.knowing (Plugin.row? w.heap space row).toList).heap := works
    rw [logged, run_bind_ok (run_log_works ev works' _ _ _)]
    simp [Plugin.remarks, made]

/-- Where the logger works, each export adds the row it has, and is remarked upon. -/
theorem run_defineExports_works (exported : List (Text × Value)) :
    ExceptT.run (defineExports host ev path space exported) w =
      (.ok ((exported.filterMap (Plugin.row? w.heap space)).map (·.1)),
        (w.knowing (exported.filterMap (Plugin.row? w.heap space))).noting
          (Plugin.remarks host.loggers.modules w.heap path space exported)) ∧
    exportRows host ev path space exported w = exported.filterMap (Plugin.row? w.heap space) := by
  induction exported generalizing w with
  | nil => exact ⟨by simp [defineExports, Plugin.remarks, World.noting, World.knowing], rfl⟩
  | cons row rest ih =>
    -- the first export adds its row and its remark, and the heap stays as it was for the others
    have first := run_defineExport_works ev works path space row
    obtain ⟨others, rows⟩ := ih (w := (w.knowing (Plugin.row? w.heap space row).toList).noting
      (Plugin.remarks host.loggers.modules w.heap path space [row])) works
    have split : (row :: rest).filterMap (Plugin.row? w.heap space) =
        (Plugin.row? w.heap space row).toList ++ rest.filterMap (Plugin.row? w.heap space) := by
      cases h : Plugin.row? w.heap space row <;> simp [h]
    have remarks : Plugin.remarks host.loggers.modules w.heap path space (row :: rest) =
        Plugin.remarks host.loggers.modules w.heap path space [row] ++
          Plugin.remarks host.loggers.modules w.heap path space rest := by
      rw [Plugin.remarks, Plugin.remarks, Plugin.remarks, ← List.flatMap_append,
        ← List.filterMap_append]
      rfl
    refine ⟨?_, ?_⟩
    · have names : (Plugin.row? w.heap space row).toList.map (·.1) =
          ((Plugin.row? w.heap space row).map (·.1)).toList := by
        cases Plugin.row? w.heap space row <;> rfl
      have known (rows rows' : List (Text × Value)) (notices notices' : List Notice) :
          (((w.knowing rows).noting notices).knowing rows').noting notices' =
            (w.knowing (rows ++ rows')).noting (notices ++ notices') := by
        simp [World.knowing, World.noting, TypeSource.adding_append]
      unfold defineExports
      rw [run_bind_ok first, run_bind_ok others, split, remarks, List.map_append, names, ← known]
      rfl
    · rw [exportRows, first, split]
      exact congrArg _ rows

end exports

/-! ## Files and directories -/

/-- Loading modules goes through: it answers the names of what the imports define, which is all that
they export, and the imports are those of the files. -/
structure GoesThrough (host : Host) (ev : Evaluator) (act : Action (List Text)) (w : World)
    (is : List Import) (files : List (ModuleDir × Text)) : Prop where
  run : ∃ w', ExceptT.run act w = (.ok ((is.flatMap Import.rows).map (·.1)), w') ∧
    host.loggers.modules.Works w'.heap
  defined : ∀ i ∈ is, i.defined host ev = i.rows
  files : is.map (fun i => (i.dir, i.file)) = files

/-- Nothing is imported. -/
theorem GoesThrough.nothing {host : Host} {ev : Evaluator} {act : Action (List Text)} {w : World}
    (run : ∃ w', ExceptT.run act w = (.ok [], w') ∧ host.loggers.modules.Works w'.heap) :
    GoesThrough host ev act w [] [] :=
  ⟨run, fun _ hi => absurd hi List.not_mem_nil, rfl⟩

/-- One part of the files is loaded after the other. -/
theorem GoesThrough.append {host : Host} {ev : Evaluator} {first second : Action (List Text)}
    {w : World}
    {is : List Import} {next : World → List Import} {files files' : List (ModuleDir × Text)}
    (h : GoesThrough host ev first w is files)
    (h' : ∀ names w', ExceptT.run first w = (.ok names, w') → host.loggers.modules.Works w'.heap →
      GoesThrough host ev second w' (next w') files') :
    GoesThrough host ev (do
        let names ← first
        let more ← second
        return names ++ more) w
      (is ++ afterwards (ExceptT.run first w) fun _ => next) (files ++ files') := by
  obtain ⟨w₁, run, works⟩ := h.run
  have rest := h' _ w₁ run works
  obtain ⟨w₂, run', works'⟩ := rest.run
  have following : afterwards (ExceptT.run first w) (fun _ => next) = next w₁ := by rw [run]; rfl
  rw [following]
  refine ⟨⟨w₂, ?_, works'⟩, fun i hi => ?_, ?_⟩
  · rw [run_bind_ok run, run_bind_ok run', List.flatMap_append, List.map_append]
    rfl
  · exact (List.mem_append.mp hi).elim (h.defined i) (rest.defined i)
  · rw [List.map_append, h.files, rest.files]

section load

variable {host : Host} {ev : Evaluator} {w : World}

/-- A file is loaded, or passed over, if what importing it comes to can be reported. -/
theorem loadModuleFile_goesThrough {dir : ModuleDir} {file : Text}
    (reported : (Import.ofFile ev dir file w).Reported host ev) :
    GoesThrough host ev (loadModuleFile host ev dir file) w [Import.ofFile ev dir file w]
      [(dir, file)] := by
  have outcome : ExceptT.run (importModule ev (Path.join [dir.path, file])) w =
      ((Import.ofFile ev dir file w).outcome, (Import.ofFile ev dir file w).world) := rfl
  suffices h : (∃ w', ExceptT.run (loadModuleFile host ev dir file) w =
        (.ok ((Import.ofFile ev dir file w).rows.map (·.1)), w') ∧
          host.loggers.modules.Works w'.heap) ∧
      (Import.ofFile ev dir file w).defined host ev = (Import.ofFile ev dir file w).rows from
    ⟨by simpa using h.1, by simpa using h.2, rfl⟩
  unfold Import.Reported at reported
  unfold loadModuleFile Import.rows Import.defined
  rw [run_tryCatch]
  cases result : (Import.ofFile ev dir file w).outcome with
  | ok exported =>
    -- no export throws, so that all of them are defined
    rw [result] at outcome reported
    obtain ⟨run, rows⟩ := run_defineExports_works ev reported
      (Path.join [dir.path, file]) (qualified dir.space (Path.stem file)) exported
    have loaded := (run_bind_ok (f := defineExports host ev (Path.join [dir.path, file])
      (qualified dir.space (Path.stem file))) outcome).trans run
    unfold loadModule
    rw [loaded]
    exact ⟨⟨_, rfl, reported⟩, rows⟩
  | error thrown =>
    -- the failure is described and logged, and nothing is defined
    rw [result] at outcome reported
    obtain ⟨words, w', described, works⟩ := reported
    unfold loadModule
    rw [run_bind_error outcome]
    dsimp only
    rw [run_bind_ok described, run_bind_ok (run_log_works ev works _ _ _)]
    exact ⟨⟨_, rfl, works⟩, rfl⟩

theorem loadModuleFiles_goesThrough {dir : ModuleDir} (files : List Text)
    (works : host.loggers.modules.Works w.heap)
    (reported : ∀ i ∈ fileImports host ev dir files w, i.Reported host ev) :
    GoesThrough host ev (loadModuleFiles host ev dir files) w (fileImports host ev dir files w)
      (files.map fun file => (dir, file)) := by
  induction files generalizing w with
  | nil => exact .nothing ⟨w, rfl, works⟩
  | cons file rest ih =>
    refine (loadModuleFile_goesThrough (reported _ List.mem_cons_self)).append
      fun names w' run works' =>
      ih works' fun i hi => reported i (List.mem_cons_of_mem _ ?_)
    rw [run]
    exact hi

theorem loadModuleDir_goesThrough (dir : ModuleDir) (works : host.loggers.modules.Works w.heap)
    (reported : ∀ i ∈ dirImports host ev dir w, i.Reported host ev) :
    GoesThrough host ev (loadModuleDir host ev dir) w (dirImports host ev dir w)
      (Plugin.moduleFiles w.files dir) := by
  unfold dirImports at reported ⊢
  unfold Plugin.moduleFiles
  cases isDirectory : w.files.isDirectory dir.path with
  | true =>
    simp only [isDirectory, if_true] at reported ⊢
    obtain ⟨⟨w', run, works'⟩, defined, files⟩ := loadModuleFiles_goesThrough _ works reported
    refine ⟨?_, defined, files⟩
    unfold loadModuleDir
    rw [run_bind_ok (run_get w)]
    simp only [Files.contains_of_isDirectory isDirectory, isDirectory, Bool.not_true,
      Bool.false_eq_true, if_false]
    rw [run_bind_ok run]
    exact ⟨_, run_bind_ok (run_log_works ev works' _ _ _), works'⟩
  | false =>
    refine .nothing ?_
    unfold loadModuleDir
    rw [run_bind_ok (run_get w)]
    simp only [isDirectory, Bool.not_false, if_true]
    -- what is no directory is logged, in one of two ways
    split
    · exact ⟨_, run_bind_ok (run_log_works ev works _ _ _), works⟩
    · exact ⟨_, run_bind_ok (run_log_works ev works _ _ _), works⟩

/-- Directories are loaded one after another, over the files that were there at the beginning. -/
theorem loadModuleDirs_goesThrough (hev : ev.Meets .orderBlind) (dirs : List ModuleDir)
    (works : host.loggers.modules.Works w.heap)
    (reported : ∀ i ∈ imports host ev dirs w, i.Reported host ev) :
    GoesThrough host ev (loadModuleDirs host ev dirs) w (imports host ev dirs w)
      (dirs.flatMap (Plugin.moduleFiles w.files)) := by
  induction dirs generalizing w with
  | nil => exact .nothing ⟨w, rfl, works⟩
  | cons dir rest ih =>
    have first := loadModuleDir_goesThrough dir works fun i hi =>
      reported i (List.mem_append_left _ hi)
    refine first.append fun names w' run works' => ?_
    -- no import changes a file, so that the other directories hold what they held
    have files : w'.files = w.files := by
      have blind : OrderBlind (loadModuleDir host ev dir) :=
        loadModuleDir_holds orderBlind_declaring hev OrderBlind.defineType (fun _ _ _ => trivial)
          dir
      have kept := blind.kept w
      rw [run] at kept
      exact kept
    rw [← files]
    refine ih works' fun i hi => reported i (List.mem_append_right _ ?_)
    rw [run]
    exact hi

end load

/-! ## Discovery as a fold -/

theorem Plugin.moduleNames_perm (names : List Text) :
    (moduleNames names).Perm (names.filter isModuleName) :=
  (Text.sort_perm names).filter _

theorem Plugin.sorted_moduleNames (names : List Text) : (moduleNames names).Pairwise (· ≤ ·) :=
  (Text.sorted_sort names).filter _

/-- What a file exports becomes a row exactly if it is a class that has a name. -/
theorem Import.mem_rows_iff {i : Import} {row : Text × Value} :
    row ∈ i.rows ↔ ∃ exported label type name, i.outcome = .ok exported ∧ (label, type) ∈ exported ∧
      i.world.heap.isType type = true ∧ name ≠ [] ∧ name ≠ "default" ∧
      (if label = "default" then i.world.heap.text? type "name" = some name else label = name) ∧
      row = (qualified i.space name, type) := by
  unfold Import.rows
  cases i.outcome with
  | error thrown => simp
  | ok exported =>
    simp only [List.mem_filterMap]
    constructor
    · rintro ⟨⟨label, type⟩, hmem, hrow⟩
      obtain ⟨isType, name, filled, other, named, rfl⟩ := Plugin.row?_eq_some_iff.mp hrow
      exact ⟨exported, label, type, name, rfl, hmem, isType, filled, other, named, rfl⟩
    · rintro ⟨_, label, type, name, ⟨⟩, hmem, isType, filled, other, named, rfl⟩
      exact ⟨(label, type), hmem,
        Plugin.row?_eq_some_iff.mpr ⟨isType, name, filled, other, named, rfl⟩⟩

/-- Types were defined one after another. -/
structure Folds (w w' : World) (rows : List (Text × Value)) : Prop where
  /-- The known types are those from before and the rows, one put after another. -/
  types : w'.types = w.types.adding rows
  /-- What was defined last under a name counts. -/
  latest : ∀ name, w'.types.table.get? name =
    (Table.lastValue? rows name).or (w.types.table.get? name)
  /-- A name keeps the place at which it was first defined. -/
  places : w'.types.table.keys =
    w.types.table.keys ++ ((rows.map (·.1)).removeAll w.types.table.keys).eraseDups

theorem folds_of_types {w w' : World} {rows : List (Text × Value)}
    (h : w'.types = w.types.adding rows) : Folds w w' rows where
  types := h
  latest name := by
    rw [h]
    exact Table.get?_putRows _ _ _
  places := by
    rw [h]
    exact Table.keys_putRows _ _

/-- Loading directories of modules is a fold over what lies in them. -/
structure DiscoversModules (host : Host) (ev : Evaluator) (dirs : List ModuleDir) (w : World) :
    Prop where
  /-- Over files that are listed in another order the same is answered, and the same world is left:
  its types, its notices and everything else. -/
  unordered : ∀ files, w.files.Alike files →
    (ExceptT.run (loadModuleDirs host ev dirs) { w with files }).1 =
        (ExceptT.run (loadModuleDirs host ev dirs) w).1 ∧
      (ExceptT.run (loadModuleDirs host ev dirs) { w with files }).2 =
        { (ExceptT.run (loadModuleDirs host ev dirs) w).2 with files }
  /-- The modules of a directory are the files in it that have the extension of one, in the order of
  their names. -/
  sorted : ∀ dir : ModuleDir, (Plugin.moduleNames (w.files.listing dir.path)).Pairwise (· ≤ ·) ∧
    (Plugin.moduleNames (w.files.listing dir.path)).Perm
      ((w.files.listing dir.path).filter Plugin.isModuleName)
  /-- Whatever is thrown on the way, what was defined until then stays. -/
  stands : Folds w (ExceptT.run (loadModuleDirs host ev dirs) w).2
    ((imports host ev dirs w).flatMap (Import.defined host ev))
  /-- Where the logger works and what is thrown can be described, each module of each directory is
  imported in order, and each contributes what it exports; one that cannot be imported has no
  rows. -/
  folded : host.loggers.modules.Works w.heap →
    (∀ i ∈ imports host ev dirs w, i.Reported host ev) →
    (imports host ev dirs w).map (fun i => (i.dir, i.file)) =
        dirs.flatMap (Plugin.moduleFiles w.files) ∧
      (ExceptT.run (loadModuleDirs host ev dirs) w).1 =
        .ok (((imports host ev dirs w).flatMap Import.rows).map (·.1)) ∧
      Folds w (ExceptT.run (loadModuleDirs host ev dirs) w).2
        ((imports host ev dirs w).flatMap Import.rows)
  /-- A row is a class that a module exports, under the namespace of the file and the name of the
  export, or the own name of the class for a default export. -/
  contributed : ∀ i ∈ imports host ev dirs w, ∀ row, row ∈ i.rows ↔
    ∃ exported label type name, i.outcome = .ok exported ∧ (label, type) ∈ exported ∧
      i.world.heap.isType type = true ∧ name ≠ [] ∧ name ≠ "default" ∧
      (if label = "default" then i.world.heap.text? type "name" = some name else label = name) ∧
      row = (qualified (qualified i.dir.space (Path.stem i.file)) name, type)

/-- Whatever lies in directories of modules, loading them is a fold. -/
theorem discoversModules (host : Host) (n : Nat) (dirs : List ModuleDir) (w : World) :
    DiscoversModules host (evaluator host n) dirs w where
  unordered files alike := Prod.ext_iff.mp
    ((loadModuleDirs_orderBlind host (evaluator_orderBlind host n) dirs).same w files alike)
  sorted dir := ⟨Plugin.sorted_moduleNames _, Plugin.moduleNames_perm _⟩
  stands := folds_of_types (loadModuleDirs_adds host (evaluator_keepsTypes host n) dirs w)
  folded works reported := by
    obtain ⟨⟨w', run, -⟩, defined, files⟩ :=
      loadModuleDirs_goesThrough (evaluator_orderBlind host n) dirs works reported
    have types := (loadModuleDirs_adds host (evaluator_keepsTypes host n) dirs w).trans
      (congrArg w.types.adding (List.flatMap_congr defined))
    exact ⟨files, congrArg Prod.fst run, folds_of_types types⟩
  contributed _ _ _ := Import.mem_rows_iff

/-- A host whose modules are loaded with a logger of their own. -/
def loaderHost : Host :=
  { pluginHost with loggers :=
    { pluginHost.loggers with modules := Logger.printing "ModuleLoader" } }

/-- Of two modules with one stem the second one defines the class of the first again, in its place;
the module that throws is passed over. Listed the other way round, the same files come to the
same. -/
theorem discoversModules_plugins :
    (ExceptT.run (loadModuleDirs loaderHost (evaluator loaderHost 2) [pluginDir]) pluginWorld).1 =
        .ok (["plugins.metrics.Metric", "plugins.metrics.Metric", "plugins.metrics.Other"].map
          Text.ofString) ∧
      (ExceptT.run (loadModuleDirs loaderHost (evaluator loaderHost 2) [pluginDir])
        pluginWorld).2.types.table.keys =
          ["plugins.metrics.Metric", "plugins.metrics.Other"].map Text.ofString ∧
      (ExceptT.run (loadModuleDirs loaderHost (evaluator loaderHost 2) [pluginDir])
        { pluginWorld with files := { pluginFiles with nodes := pluginFiles.nodes.reverse } }).1 =
        .ok (["plugins.metrics.Metric", "plugins.metrics.Metric", "plugins.metrics.Other"].map
          Text.ofString) := by
  have discovers : DiscoversModules loaderHost (evaluator loaderHost 2) [pluginDir] pluginWorld :=
    discoversModules loaderHost 2 [pluginDir] pluginWorld
  -- what the imports throw, if anything, is no object, so it can be reported
  have plain : ∀ i ∈ imports loaderHost (evaluator loaderHost 2) [pluginDir] pluginWorld,
      i.isPlain = true := by decide +kernel
  have names : ((imports loaderHost (evaluator loaderHost 2) [pluginDir] pluginWorld).flatMap
      Import.rows).map (·.1) =
        ["plugins.metrics.Metric", "plugins.metrics.Metric", "plugins.metrics.Other"].map
          Text.ofString := by decide +kernel
  have alike : pluginWorld.files.Alike { pluginFiles with nodes := pluginFiles.nodes.reverse } :=
    Files.alike_of_perm (by decide +kernel) (List.reverse_perm _)
  obtain ⟨-, answered, folds⟩ := discovers.folded (fun reach => absurd rfl reach) fun i hi =>
    Import.reported_of_isPlain rfl _ (plain i hi)
  rw [names] at answered
  refine ⟨answered, ?_, ?_⟩
  · rw [folds.places, names]
    decide +kernel
  · exact (discovers.unordered _ alike).1.trans answered

end EvalPlan

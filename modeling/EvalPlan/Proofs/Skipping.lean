import EvalPlan.Proofs.Discovery

/-!
# Modules that cannot be imported

A module that cannot be imported is passed over: it leaves one entry in the log, and the others
define what they export. To leave the entry, what was thrown has to be put into words, which may
fail in turn. `skipsFailures` says that this is all that can keep a directory from being loaded, or
an engine over directories from being started; `barePlugin_stops` is a module that throws an object
without words.
-/

namespace EvalPlan

open EvalPlan.Action

/-- What was thrown when the file was imported, if anything, can be put into words. -/
def Import.Described (ev : Evaluator) (i : Import) : Prop :=
  ∀ thrown, i.outcome = .error thrown →
    ∃ words w, ExceptT.run (describe ev thrown) i.world = (.ok words, w)

/-- What was thrown when the file was imported cannot be put into words: asking for them throws in
turn. -/
def Import.Fails (ev : Evaluator) (i : Import) (v : Value) (w : World) : Prop :=
  ∃ thrown, i.outcome = .error thrown ∧ ExceptT.run (describe ev thrown) i.world = (.error v, w)

/-- The logger works where it is written to about the file. -/
def Import.Logged (host : Host) (ev : Evaluator) (i : Import) : Prop :=
  match i.outcome with
  | .ok _ => host.loggers.modules.Works i.world.heap
  | .error thrown => ∀ words w, ExceptT.run (describe ev thrown) i.world = (.ok words, w) →
      host.loggers.modules.Works w.heap

/-- The logger works before modules are imported, and where it is written to about any of them. -/
structure Logs (host : Host) (ev : Evaluator) (w : World) (is : List Import) : Prop where
  works : host.loggers.modules.Works w.heap
  logged : ∀ i ∈ is, i.Logged host ev

/-- Where logging works, an import is reported exactly if what it threw can be described. -/
theorem Import.reported_iff {host : Host} {ev : Evaluator} {i : Import}
    (logged : i.Logged host ev) : i.Reported host ev ↔ i.Described ev := by
  unfold Logged at logged
  unfold Reported Described
  cases outcome : i.outcome with
  | ok exported =>
    rw [outcome] at logged
    exact ⟨fun _ => nofun, fun _ => logged⟩
  | error thrown =>
    rw [outcome] at logged
    constructor
    · rintro ⟨words, w, described, -⟩ _ ⟨⟩
      exact ⟨words, w, described⟩
    · intro described
      obtain ⟨words, w, described⟩ := described thrown rfl
      exact ⟨words, w, described, logged words w described⟩

/-! ## Where loading stops -/

/-- Loading modules is through with all of its imports, or it throws what asking for the words of
one throws. -/
def Stops (host : Host) (ev : Evaluator) (act : Action (List Text)) (w : World) (is : List Import) :
    Prop :=
  (∀ i ∈ is, i.Reported host ev) ∨
    ∃ i ∈ is, ∃ v w', i.Fails ev v w' ∧ ExceptT.run act w = (.error v, w')

namespace Stops

variable {host : Host} {ev : Evaluator} {act : Action (List Text)} {w : World} {is : List Import}

/-- Where nothing is imported nothing stops. -/
theorem nothing : Stops host ev act w [] := .inl (List.forall_mem_nil _)

/-- One part of the files is loaded after the other. -/
theorem append {second : Action (List Text)} {next : World → List Import}
    (h : Stops host ev act w is)
    (through : (∀ i ∈ is, i.Reported host ev) → ∃ names w', ExceptT.run act w = (.ok names, w') ∧
      Stops host ev second w' (next w')) :
    Stops host ev (do
        let names ← act
        let more ← second
        return names ++ more) w (is ++ afterwards (ExceptT.run act w) fun _ => next) := by
  rcases h with reported | ⟨i, hi, v, w', fails, stopped⟩
  · obtain ⟨names, w', run, rest⟩ := through reported
    have following : afterwards (ExceptT.run act w) (fun _ => next) = next w' := by rw [run]; rfl
    rw [following]
    rcases rest with reported' | ⟨i, hi, v, w'', fails, stopped⟩
    · exact .inl fun i hi => (List.mem_append.mp hi).elim (reported i) (reported' i)
    · exact .inr ⟨i, List.mem_append_right _ hi, v, w'', fails,
        (run_bind_ok run).trans (run_bind_error stopped)⟩
  · exact .inr ⟨i, List.mem_append_left _ hi, v, w', fails, run_bind_error stopped⟩

/-- What is thrown is thrown on. -/
theorem bind (h : Stops host ev act w is) (f : List Text → Action (List Text)) :
    Stops host ev (act >>= f) w is :=
  h.imp_right fun ⟨i, hi, v, w', fails, stopped⟩ => ⟨i, hi, v, w', fails, run_bind_error stopped⟩

/-- An answer is given exactly if all that was thrown can be put into words. -/
theorem answers_iff (h : Stops host ev act w is) (logged : ∀ i ∈ is, i.Logged host ev)
    (through : (∀ i ∈ is, i.Reported host ev) → ∃ names w', ExceptT.run act w = (.ok names, w')) :
    (∃ names w', ExceptT.run act w = (.ok names, w')) ↔ ∀ i ∈ is, i.Described ev := by
  constructor
  · rintro ⟨names, w', run⟩
    rcases h with reported | ⟨i, hi, v, w', fails, stopped⟩
    · exact fun i hi => (Import.reported_iff (logged i hi)).mp (reported i hi)
    · rw [run] at stopped
      cases stopped
  · exact fun described => through fun i hi =>
      (Import.reported_iff (logged i hi)).mpr (described i hi)

end Stops

section stops

variable {host : Host} {ev : Evaluator} {w : World}

/-- Loading a file stops if its import is not reported. -/
theorem loadModuleFile_stops {dir : ModuleDir} {file : Text}
    (logged : (Import.ofFile ev dir file w).Logged host ev) :
    Stops host ev (loadModuleFile host ev dir file) w [Import.ofFile ev dir file w] := by
  by_cases described : (Import.ofFile ev dir file w).Described ev
  · exact .inl (List.forall_mem_singleton.mpr ((Import.reported_iff logged).mpr described))
  · simp only [Import.Described, not_forall, not_exists] at described
    obtain ⟨thrown, failed, wordless⟩ := described
    cases asked : ExceptT.run (describe ev thrown) (Import.ofFile ev dir file w).world with
    | mk r w' =>
      cases r with
      | ok words => exact absurd asked (wordless words w')
      | error v =>
        have imported : ExceptT.run (importModule ev (Path.join [dir.path, file])) w =
            (.error thrown, (Import.ofFile ev dir file w).world) := Prod.ext failed rfl
        refine .inr ⟨_, List.mem_cons_self, v, w', ⟨thrown, failed, asked⟩, ?_⟩
        unfold loadModuleFile loadModule
        rw [run_tryCatch, run_bind_error imported]
        exact run_bind_error asked

/-- Loading files stops at the first import that is not reported. -/
theorem loadModuleFiles_stops {dir : ModuleDir} (files : List Text)
    (works : host.loggers.modules.Works w.heap)
    (logged : ∀ i ∈ fileImports host ev dir files w, i.Logged host ev) :
    Stops host ev (loadModuleFiles host ev dir files) w (fileImports host ev dir files w) := by
  induction files generalizing w with
  | nil => exact .nothing
  | cons file rest ih =>
    refine (loadModuleFile_stops (logged _ List.mem_cons_self)).append fun reported => ?_
    obtain ⟨w', run, works'⟩ := (loadModuleFile_goesThrough (reported _ List.mem_cons_self)).run
    refine ⟨_, w', run, ih works' fun i hi => logged i (List.mem_cons_of_mem _ ?_)⟩
    rw [run]
    exact hi

/-- So does loading a directory. -/
theorem loadModuleDir_stops (dir : ModuleDir) (works : host.loggers.modules.Works w.heap)
    (logged : ∀ i ∈ dirImports host ev dir w, i.Logged host ev) :
    Stops host ev (loadModuleDir host ev dir) w (dirImports host ev dir w) := by
  unfold dirImports at logged ⊢
  cases isDirectory : w.files.isDirectory dir.path with
  | false => exact .nothing
  | true =>
    simp only [isDirectory, if_true] at logged ⊢
    have stops := (loadModuleFiles_stops (Plugin.moduleNames (w.files.listing dir.path)) works logged).bind
      fun names => do
        log ev host.loggers.modules .info "Modules loaded from directory"
          [("dirPath", Value.text dir.path), ("types", Value.ofNat names.length)]
        return names
    refine stops.imp_right fun ⟨i, hi, v, w', fails, stopped⟩ => ⟨i, hi, v, w', fails, ?_⟩
    unfold loadModuleDir
    rw [run_bind_ok (run_get w)]
    simp only [Files.contains_of_isDirectory isDirectory, isDirectory, Bool.not_true,
      Bool.false_eq_true, if_false]
    exact stopped

/-- So does loading directories. -/
theorem loadModuleDirs_stops (dirs : List ModuleDir) (works : host.loggers.modules.Works w.heap)
    (logged : ∀ i ∈ imports host ev dirs w, i.Logged host ev) :
    Stops host ev (loadModuleDirs host ev dirs) w (imports host ev dirs w) := by
  induction dirs generalizing w with
  | nil => exact .nothing
  | cons dir rest ih =>
    have first := loadModuleDir_stops dir works fun i hi => logged i (List.mem_append_left _ hi)
    refine first.append fun reported => ?_
    obtain ⟨w', run, works'⟩ := (loadModuleDir_goesThrough dir works reported).run
    refine ⟨_, w', run, ih works' fun i hi => logged i (List.mem_append_right _ ?_)⟩
    rw [run]
    exact hi

end stops

/-! ## What loading leaves -/

/-- What a logger leaves of a module that cannot be imported. -/
def Plugin.failure (l : Logger) (h : Heap) (path words : Text) : List Notice :=
  l.leaves .error "Failed to load module"
    (some (fieldsPortrait h [("filePath", Value.text path), ("error", Value.text words)]))

/-- Files of a directory are loaded one after another: one that cannot be imported leaves its entry
in the log and nothing else, and any other one what it exports. -/
inductive Loads (host : Host) (ev : Evaluator) (dir : ModuleDir) : List Text → World → List Text →
    World → Prop
  | nil {w} : Loads host ev dir [] w [] w
  | skips {file rest w w₁ w₂ w' thrown words names} :
      ExceptT.run (importModule ev (Path.join [dir.path, file])) w = (.error thrown, w₁) →
      ExceptT.run (describe ev thrown) w₁ = (.ok words, w₂) →
      Loads host ev dir rest
        (w₂.noting (Plugin.failure host.loggers.modules w₂.heap (Path.join [dir.path, file]) words))
          names w' →
      Loads host ev dir (file :: rest) w names w'
  | defines {file rest w w₁ w' exported rows names} :
      ExceptT.run (importModule ev (Path.join [dir.path, file])) w = (.ok exported, w₁) →
      rows = exported.filterMap (Plugin.row? w₁.heap (qualified dir.space (Path.stem file))) →
      Loads host ev dir rest ((w₁.knowing rows).noting (Plugin.remarks host.loggers.modules w₁.heap
        (Path.join [dir.path, file]) (qualified dir.space (Path.stem file)) exported)) names w' →
      Loads host ev dir (file :: rest) w (rows.map (·.1) ++ names) w'

section loads

variable {host : Host} {ev : Evaluator} {w : World} {dir : ModuleDir}

/-- A file whose import is reported is loaded or skipped, and the rest goes on behind it. -/
theorem loadModuleFile_loads {file : Text}
    (reported : (Import.ofFile ev dir file w).Reported host ev) :
    ∃ names w₁, ExceptT.run (loadModuleFile host ev dir file) w = (.ok names, w₁) ∧
      ∀ {rest more w'}, Loads host ev dir rest w₁ more w' →
        Loads host ev dir (file :: rest) w (names ++ more) w' := by
  have outcome : ExceptT.run (importModule ev (Path.join [dir.path, file])) w =
      ((Import.ofFile ev dir file w).outcome, (Import.ofFile ev dir file w).world) := rfl
  unfold Import.Reported at reported
  unfold loadModuleFile loadModule
  rw [run_tryCatch]
  cases result : (Import.ofFile ev dir file w).outcome with
  | ok exported =>
    rw [result] at outcome reported
    have defined := (run_defineExports_works ev reported (Path.join [dir.path, file])
      (qualified dir.space (Path.stem file)) exported).1
    rw [run_bind_ok outcome, defined]
    exact ⟨_, _, rfl, .defines outcome rfl⟩
  | error thrown =>
    rw [result] at outcome reported
    -- what was thrown is described and logged, and no name comes of the file
    obtain ⟨words, w₂, described, works⟩ := reported
    rw [run_bind_error outcome]
    dsimp only
    rw [run_bind_ok described, run_bind_ok (run_log_works ev works _ _ _)]
    exact ⟨[], _, rfl, .skips outcome described⟩

/-- So all files are, if every import is reported. -/
theorem loadModuleFiles_loads (files : List Text)
    (reported : ∀ i ∈ fileImports host ev dir files w, i.Reported host ev) :
    ∃ names w', ExceptT.run (loadModuleFiles host ev dir files) w = (.ok names, w') ∧
      Loads host ev dir files w names w' := by
  induction files generalizing w with
  | nil => exact ⟨[], w, rfl, .nil⟩
  | cons file rest ih =>
    obtain ⟨names, w₁, first, then_⟩ := loadModuleFile_loads (reported _ List.mem_cons_self)
    obtain ⟨more, w', others, loads⟩ := ih fun i hi =>
      reported i (List.mem_cons_of_mem _ (by rw [first]; exact hi))
    refine ⟨names ++ more, w', ?_, then_ loads⟩
    rw [loadModuleFiles, run_bind_ok first, run_bind_ok others]
    rfl

/-- A directory is loaded file by file, and it is logged how many types that came to. -/
theorem loadModuleDir_loads (works : host.loggers.modules.Works w.heap)
    (isDirectory : w.files.isDirectory dir.path = true)
    (reported : ∀ i ∈ dirImports host ev dir w, i.Reported host ev) :
    ∃ names w₁, Loads host ev dir (Plugin.moduleNames (w.files.listing dir.path)) w names w₁ ∧
      ExceptT.run (loadModuleDir host ev dir) w = (.ok names,
        w₁.noting (host.loggers.modules.leaves .info "Modules loaded from directory"
          (some (fieldsPortrait w₁.heap
            [("dirPath", Value.text dir.path), ("types", Value.ofNat names.length)])))) := by
  have imported : dirImports host ev dir w =
      fileImports host ev dir (Plugin.moduleNames (w.files.listing dir.path)) w := by
    rw [dirImports, isDirectory]
    rfl
  rw [imported] at reported
  obtain ⟨names, w₁, run, loads⟩ := loadModuleFiles_loads _ reported
  obtain ⟨w₁', run', works'⟩ := (loadModuleFiles_goesThrough _ works reported).run
  obtain rfl : w₁ = w₁' := (Prod.mk.inj (run.symm.trans run')).2
  refine ⟨names, w₁, loads, ?_⟩
  unfold loadModuleDir
  rw [run_bind_ok (run_get w)]
  simp only [Files.contains_of_isDirectory isDirectory, isDirectory, Bool.not_true,
    Bool.false_eq_true, if_false]
  rw [run_bind_ok run]
  exact run_bind_ok (run_log_works ev works' _ _ _)

end loads

/-! ## Directories and engines -/

/-- What modules that cannot be imported do to the others. -/
structure SkipsFailures (host : Host) (ev : Evaluator) : Prop where
  /-- A directory is loaded exactly if all that its modules throw can be put into words. -/
  completes : ∀ {dir w}, Logs host ev w (dirImports host ev dir w) →
    ((∃ names w', ExceptT.run (loadModuleDir host ev dir) w = (.ok names, w')) ↔
      ∀ i ∈ dirImports host ev dir w, i.Described ev)
  /-- Then each of its modules that cannot be imported leaves one error in the log, and nothing
  else. -/
  loads : ∀ {dir w}, Logs host ev w (dirImports host ev dir w) →
    w.files.isDirectory dir.path = true →
    (∀ i ∈ dirImports host ev dir w, i.Described ev) →
    ∃ names w₁, Loads host ev dir (Plugin.moduleNames (w.files.listing dir.path)) w names w₁ ∧
      ExceptT.run (loadModuleDir host ev dir) w = (.ok names,
        w₁.noting (host.loggers.modules.leaves .info "Modules loaded from directory"
          (some (fieldsPortrait w₁.heap
            [("dirPath", Value.text dir.path), ("types", Value.ofNat names.length)]))))
  /-- The others leave none. -/
  others : ∀ {h path space row remark}, Plugin.remark? h path space row = some remark →
    remark.1 ≠ .error
  /-- What is defined is what the others export. -/
  defines : ∀ {dir w names w'}, Logs host ev w (dirImports host ev dir w) →
    ExceptT.run (loadModuleDir host ev dir) w = (.ok names, w') →
    names = ((dirImports host ev dir w).flatMap Import.rows).map (·.1) ∧
      w'.types = w.types.adding ((dirImports host ev dir w).flatMap Import.rows)
  /-- Otherwise what asking for the words of one of them throws is thrown, and no more modules are
  imported. -/
  throws : ∀ {dir w v w'}, Logs host ev w (dirImports host ev dir w) →
    ExceptT.run (loadModuleDir host ev dir) w = (.error v, w') →
      ∃ i ∈ dirImports host ev dir w, i.Fails ev v w'
  /-- An engine over directories is started exactly if all that their modules throw can be put into
  words. -/
  starts : ∀ {roots dirs w}, Logs host ev w (imports host ev dirs w) →
    (∀ i ∈ imports host ev dirs w, i.Described ev) →
    ∃ names w₁, ExceptT.run (loadModuleDirs host ev dirs) w = (.ok names, w₁) ∧
      ExceptT.run (createEngine host ev roots dirs) w = ExceptT.run (startEngine host ev)
        { w₁ with resources := .roots ((roots.getD [w₁.files.cwd]).map w₁.files.absolute) }
  /-- It is not created otherwise. -/
  rejected : ∀ {roots dirs w}, Logs host ev w (imports host ev dirs w) →
    (¬ ∀ i ∈ imports host ev dirs w, i.Described ev) →
    ∃ i ∈ imports host ev dirs w, ∃ v w', i.Fails ev v w' ∧
      ExceptT.run (createEngine host ev roots dirs) w = (.error v, w')

/-- Modules that cannot be imported are passed over, unless what they throw cannot be put into
words. -/
theorem skipsFailures (host : Host) (n : Nat) : SkipsFailures host (evaluator host n) where
  -- a directory is gone through unless one of its failures cannot be logged, which is what stops it
  completes {dir w} logs := by
    refine (loadModuleDir_stops dir logs.works logs.logged).answers_iff logs.logged
      fun reported => ?_
    obtain ⟨w', run, -⟩ := (loadModuleDir_goesThrough dir logs.works reported).run
    exact ⟨_, w', run⟩
  loads logs isDirectory described := loadModuleDir_loads logs.works isDirectory fun i hi =>
    (Import.reported_iff (logs.logged i hi)).mpr (described i hi)
  others := Plugin.level_of_remark?
  defines {dir w names w'} logs run := by
    rcases loadModuleDir_stops dir logs.works logs.logged with reported | ⟨i, hi, v, w'', fails,
      stopped⟩
    · obtain ⟨⟨w'', run', -⟩, defined, -⟩ := loadModuleDir_goesThrough dir logs.works reported
      have types := (loadModuleDir_adds host (evaluator_keepsTypes host n) dir w).trans
        (congrArg w.types.adding (List.flatMap_congr defined))
      rw [run] at run' types
      cases run'
      exact ⟨rfl, types⟩
    · rw [run] at stopped
      cases stopped
  throws {dir w v w'} logs run := by
    rcases loadModuleDir_stops dir logs.works logs.logged with reported | ⟨i, hi, u, w'', fails,
      stopped⟩
    · obtain ⟨w'', run', -⟩ := (loadModuleDir_goesThrough dir logs.works reported).run
      rw [run] at run'
      cases run'
    · rw [run] at stopped
      cases stopped
      exact ⟨i, hi, fails⟩
  starts {roots dirs w} logs described := by
    obtain ⟨w₁, run, -⟩ := (loadModuleDirs_goesThrough (evaluator_orderBlind host n) dirs logs.works
      fun i hi =>
      (Import.reported_iff (logs.logged i hi)).mpr (described i hi)).run
    refine ⟨_, w₁, run, ?_⟩
    unfold createEngine
    rw [run_bind_ok run]
    rfl
  rejected {roots dirs w} logs wordless := by
    rcases loadModuleDirs_stops dirs logs.works logs.logged with reported | ⟨i, hi, v, w', fails,
      stopped⟩
    · exact absurd (fun i hi => (Import.reported_iff (logs.logged i hi)).mp (reported i hi))
        wordless
    · refine ⟨i, hi, v, w', fails, ?_⟩
      unfold createEngine
      exact run_bind_error stopped

/-- A directory with a module that throws an object without words, and one that exports a class. -/
def bareWorld : World :=
  { World.initial Domain.heap with
    files :=
      { nodes :=
          [("/plugins/bare.js",
              .module (.object [("exports", .list []), ("throws", .object [("nullobj", .list [])])])),
            ("/plugins/metrics.js", moduleExporting ["Metric"])]
        cwd := "/" } }

/-- The second module can be imported, but loading the directory throws, its class is not defined,
and no engine is created. -/
theorem barePlugin_stops :
    (ExceptT.run (importModule (evaluator loaderHost 2) "/plugins/metrics.js")
        bareWorld).1.toOption.map Table.keys = some [↑"Metric"] ∧
      (ExceptT.run (loadModuleDir loaderHost (evaluator loaderHost 2) pluginDir)
        bareWorld).1.toOption = none ∧
      (ExceptT.run (loadModuleDir loaderHost (evaluator loaderHost 2) pluginDir)
        bareWorld).2.types.table.has
        "plugins.metrics.Metric" = false ∧
      (ExceptT.run (createEngine loaderHost (evaluator loaderHost 2) none [pluginDir])
        bareWorld).1.toOption = none := by
  refine ⟨?_, ?_, ?_, ?_⟩ <;> decide +kernel

end EvalPlan

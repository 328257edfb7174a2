import EvalPlan.Proofs.TypeNames

/-!
# What modules define

Directories of modules are loaded file by file, and each file export by export. An `Import` says of
one file what came of importing it, and in which world; `imports` lists all of them in order. The
types that are known afterwards are those from before and the ones that the imports define, one put
after another, whatever is thrown on the way (`types_loadModuleDirs`).

Where the logger works and what failing modules throw can be described, nothing keeps a file from
being loaded, and each contributes the classes that it exports (`run_loadModuleDirs`).
-/

namespace EvalPlan

open EvalPlan.Action

/-! ## Exports -/

namespace Plugin

/-- The row that an export adds to the known types, if it adds one. -/
def row? (h : Heap) (space : Text) (row : Text × Value) : Option (Text × Value) :=
  if h.isType row.2 then (typeName? h row.1 row.2).map fun name => (qualified space name, row.2)
  else none

/-- An export gives its own label to a class, and the default export the name of the class. -/
theorem typeName?_eq_some_iff {h : Heap} {label : Text} {exported : Value} {name : Text} :
    typeName? h label exported = some name ↔
      name ≠ [] ∧ name ≠ "default" ∧
        (if label = "default" then h.text? exported "name" = some name else label = name) := by
  have picked (own : Text) :
      (if own.isEmpty || own = "default" then none else some own) = some name ↔
      name ≠ [] ∧ name ≠ "default" ∧ own = name := by
    split
    next rejected =>
      refine iff_of_false nofun fun ⟨filled, other, same⟩ => ?_
      simp_all
    next accepted =>
      simp only [Option.some.injEq]
      refine ⟨?_, fun h => h.2.2⟩
      rintro rfl
      simpa using accepted
  unfold typeName?
  rw [picked]
  refine and_congr_right fun filled => and_congr_right fun _ => ?_
  split
  · -- a default export without a name of its own has none
    cases h.text? exported "name" with
    | none => simpa using filled.symm
    | some own => simp
  · rfl

/-- An export adds a row exactly if it is a class that has a name: that of the export, and for a
default export its own. -/
theorem row?_eq_some_iff {h : Heap} {space label : Text} {exported : Value} {row : Text × Value} :
    row? h space (label, exported) = some row ↔
      h.isType exported = true ∧ ∃ name, name ≠ [] ∧ name ≠ "default" ∧
        (if label = "default" then h.text? exported "name" = some name else label = name) ∧
        (qualified space name, exported) = row := by
  unfold row?
  split
  next isType =>
    simp only [Option.map_eq_some_iff, typeName?_eq_some_iff, and_assoc, isType, true_and]
  next notType => simp [notType]

/-- What is logged of an export: nothing of what is no class, a warning of a class without a name,
and of any other class that it was defined. -/
def remark? (h : Heap) (path space : Text) (row : Text × Value) :
    Option (Level × Text × List (Text × Datum)) :=
  if h.isType row.2 then
    match typeName? h row.1 row.2 with
    | none => some (.warn, "Skipping anonymous default export", [("filePath", Value.text path)])
    | some name => some (.debug, "Defined type",
        [("name", Value.text (qualified space name)), ("filePath", Value.text path)])
  else none

/-- None of this is an error. -/
theorem level_of_remark? {h : Heap} {path space : Text} {row : Text × Value}
    {remark : Level × Text × List (Text × Datum)} (made : remark? h path space row = some remark) :
    remark.1 ≠ .error := by
  unfold remark? at made
  split at made
  · split at made <;> cases made <;> nofun
  · cases made

end Plugin

/-- The row of an export is accepted as a definition. -/
theorem World.accepts_row {w : World} {space : Text} {given row : Text × Value}
    (h : Plugin.row? w.heap space given = some row) : w.accepts row = true := by
  obtain ⟨isType, name, -, -, -, rfl⟩ := Plugin.row?_eq_some_iff.mp h
  -- the dot behind the namespace is no blank
  have filled : Text.isBlankOnly (qualified space name) = false := by
    simp [Text.isBlankOnly, qualified, show Text.isBlank Text.dot = false by decide]
  simp [accepts, filled, isType]

/-- An export that is no class is passed over in silence; of any other there is a remark, after its
row, if it has one, was defined. -/
theorem run_defineExport (host : Host) (ev : Evaluator) (path space : Text) (row : Text × Value)
    (w : World) : (ExceptT.run (defineExport host ev path space row) w = (.ok none, w) ∧
      Plugin.row? w.heap space row = none ∧ Plugin.remark? w.heap path space row = none) ∨
    ∃ remark, Plugin.remark? w.heap path space row = some remark ∧
      ExceptT.run (defineExport host ev path space row) w = ExceptT.run (do
        log ev host.loggers.modules remark.1 remark.2.1 remark.2.2
        return (Plugin.row? w.heap space row).map (·.1))
          (w.knowing (Plugin.row? w.heap space row).toList) := by
  obtain ⟨label, exported⟩ := row
  unfold defineExport
  rw [run_bind_ok (run_heap w)]
  cases isType : w.heap.isType exported with
  | false => exact .inl ⟨rfl, by simp [Plugin.row?, isType], by simp [Plugin.remark?, isType]⟩
  | true =>
    refine .inr ?_
    simp only [Bool.not_true, Bool.false_eq_true, if_false]
    cases named : Plugin.typeName? w.heap label exported with
    | none =>
      -- a class without a name is skipped, and this is logged
      have row : Plugin.row? w.heap space (label, exported) =
        none := by simp [Plugin.row?, isType, named]
      let remark : Level × Text × List (Text × Datum) :=
        (.warn, "Skipping anonymous default export", [("filePath", Value.text path)])
      rw [row]
      exact ⟨remark, by simp [Plugin.remark?, isType, named, remark], rfl⟩
    | some name =>
      -- the row is accepted, since its name is not empty and its value is a class
      have row : Plugin.row? w.heap space (label, exported) =
          some (qualified space name, exported) := by
        simp [Plugin.row?, isType, named]
      let remark : Level × Text × List (Text × Datum) := (.debug, "Defined type",
        [("name", Value.text (qualified space name)), ("filePath", Value.text path)])
      rw [row]
      exact ⟨remark, by simp [Plugin.remark?, isType, named, remark],
        run_bind_ok (World.run_defineType_of_accepts (World.accepts_row row))⟩

/-! ## Actions that define types -/

/-- What comes after an action that answers; nothing does after one that throws. -/
def afterwards {α β : Type} (r : Except Value α × World) (next : α → World → List β) : List β :=
  match r with
  | (.ok a, w) => next a w
  | (.error _, _) => []

/-- What is made of later results can be made of each. -/
theorem flatMap_afterwards {α β γ : Type} (r : Except Value α × World) (next : α → World → List β)
    (f : β → List γ) : (afterwards r next).flatMap f = afterwards r fun a w =>
    (next a w).flatMap f := by
  obtain ⟨_ | a, w⟩ := r <;> rfl

/-- The action adds rows to the known types, depending on the world, and changes them in no other
way. -/
def Adds {α : Type} (act : Action α) (rows : World → List (Text × Value)) : Prop :=
  ∀ w, (ExceptT.run act w).2.types = w.types.adding (rows w)

namespace Adds

variable {α β : Type} {x : Action α} {rows : World → List (Text × Value)}

/-- What leaves the types alone adds no rows. -/
theorem of_keeps (h : Keeps (fun w w' => w'.types = w.types) x) : Adds x fun _ => [] := h

/-- One action after the other adds the rows of both. -/
theorem bind {f : α → Action β} {next : α → World → List (Text × Value)} (hx : Adds x rows)
    (hf : ∀ a, Adds (f a) (next a)) :
    Adds (x >>= f) fun w => rows w ++ afterwards (ExceptT.run x w) next := by
  intro w
  have first := hx w
  beta_reduce
  rw [run_bind]
  cases run : ExceptT.run x w with
  | mk r w' =>
    rw [run] at first
    cases r with
    | ok a =>
      -- the second part adds its rows to what the first one left
      have both := hf a w'
      rw [first, ← TypeSource.adding_append] at both
      exact both
    | error v => exact first.trans (congrArg w.types.adding (List.append_nil _).symm)

/-- What comes behind the action adds nothing. -/
theorem bind_keeps {f : α → Action β} (hx : Adds x rows)
    (hf : ∀ a, Keeps (fun w w' => w'.types = w.types) (f a)) : Adds (x >>= f) rows := by
  intro w
  have nothing : afterwards (ExceptT.run x w) (fun _ _ => ([] : List (Text × Value))) = [] := by
    rcases ExceptT.run x w with ⟨_ | a, w'⟩ <;> rfl
  refine (hx.bind (fun a => of_keeps (hf a)) w).trans ?_
  beta_reduce
  rw [nothing, List.append_nil]

/-- What comes before the action adds nothing. -/
theorem keeps_bind {f : α → Action β} {next : α → World → List (Text × Value)}
    (hx : Keeps (fun w w' => w'.types = w.types) x) (hf : ∀ a, Adds (f a) (next a)) :
    Adds (x >>= f) fun w => afterwards (ExceptT.run x w) next :=
  (of_keeps hx).bind hf

/-- What is defined before something is thrown stays defined. -/
theorem tryCatch {f : Value → Action α} (hx : Adds x rows)
    (hf : ∀ v, Keeps (fun w w' => w'.types = w.types) (f v)) : Adds (tryCatch x f) rows := by
  intro w
  have first := hx w
  rw [run_tryCatch]
  cases run : ExceptT.run x w with
  | mk r w' =>
    rw [run] at first
    cases r with
    | ok a => exact first
    -- the handler begins with what was defined so far
    | error v => exact (hf v w').trans first

end Adds

/-! ## Imports -/

section imports

variable (host : Host) (ev : Evaluator)

/-- The rows that exports come to add, in order; nothing is added once something is thrown. -/
def exportRows (path space : Text) : List (Text × Value) → World → List (Text × Value)
  | [], _ => []
  | row :: rest, w =>
    (Plugin.row? w.heap space row).toList ++
      afterwards (ExceptT.run (defineExport host ev path space row) w) fun _ =>
        exportRows path space rest

/-- A file of a directory that is imported. -/
structure Import where
  /-- The directory. -/
  dir : ModuleDir
  /-- The name of the file. -/
  file : Text
  /-- What the file exports, or what was thrown. -/
  outcome : Except Value (Table Text Value)
  /-- The world after it was imported. -/
  world : World

namespace Import

/-- The path of the file. -/
def path (i : Import) : Text := Path.join [i.dir.path, i.file]

/-- The namespace of what the file exports. -/
def space (i : Import) : Text := qualified i.dir.space (Path.stem i.file)

/-- The rows of what the file exports. One that cannot be imported has none. -/
def rows (i : Import) : List (Text × Value) :=
  match i.outcome with
  | .ok exported => exported.filterMap (Plugin.row? i.world.heap i.space)
  | .error _ => []

/-- The rows that the file comes to add. -/
def defined (i : Import) : List (Text × Value) :=
  match i.outcome with
  | .ok exported => exportRows host ev i.path i.space exported i.world
  | .error _ => []

/-- The import of a file in a world. -/
def ofFile (dir : ModuleDir) (file : Text) (w : World) : Import :=
  let (outcome, world) := ExceptT.run (importModule ev (Path.join [dir.path, file])) w
  { dir, file, outcome, world }

end Import

/-- The imports of files of a directory, one after another. -/
def fileImports (dir : ModuleDir) : List Text → World → List Import
  | [], _ => []
  | file :: rest, w =>
    Import.ofFile ev dir file w ::
      afterwards (ExceptT.run (loadModuleFile host ev dir file) w) fun _ => fileImports dir rest

/-- The imports of a directory: those of its modules in the order of their names. -/
def dirImports (dir : ModuleDir) (w : World) : List Import :=
  if w.files.isDirectory dir.path then
    fileImports host ev dir (Plugin.moduleNames (w.files.listing dir.path)) w
  else []

/-- The imports of directories, one after another. -/
def imports : List ModuleDir → World → List Import
  | [], _ => []
  | dir :: rest, w =>
    dirImports host ev dir w ++
      afterwards (ExceptT.run (loadModuleDir host ev dir) w) fun _ => imports rest

variable {host ev}

/-- What comes afterwards comes after a result. -/
theorem mem_afterwards {α β : Type} {r : Except Value α × World} {next : α → World → List β} {b : β}
    (h : b ∈ afterwards r next) : ∃ a w, r = (.ok a, w) ∧ b ∈ next a w := by
  obtain ⟨_ | a, w⟩ := r
  · cases h
  · exact ⟨a, w, rfl, h⟩

/-- What exports define stands under the namespace of their file. -/
theorem exists_name_of_mem_exportRows {path space : Text} {exported : List (Text × Value)}
    {w : World} {row : Text × Value} (h : row ∈ exportRows host ev path space exported w) :
    ∃ name, row.1 = qualified space name := by
  induction exported generalizing w with
  | nil => cases h
  | cons given rest ih =>
    rcases List.mem_append.mp h with h | h
    · obtain ⟨-, name, -, -, -, rfl⟩ := Plugin.row?_eq_some_iff.mp (Option.mem_toList.mp h)
      exact ⟨name, rfl⟩
    · obtain ⟨_, _, -, h⟩ := mem_afterwards h
      exact ih h

/-- All names that an import defines are in its name space. -/
theorem Import.exists_name_of_mem_defined {i : Import} {row : Text × Value}
    (h : row ∈ i.defined host ev) : ∃ name, row.1 = qualified i.space name := by
  unfold Import.defined at h
  split at h
  · exact exists_name_of_mem_exportRows h
  · cases h

end imports

/-! ## The known types afterwards -/

section types

variable (host : Host) {ev : Evaluator} (hev : ev.Meets (.keeping fun w w' => w'.types = w.types))

include hev

/-- Logging leaves the types alone. -/
theorem log_keepsTypes (l : Logger) (level : Level) (message : Text)
    (fields : List (Text × Datum)) :
    Keeps (fun w w' => w'.types = w.types) (log ev l level message fields) :=
  log_holds keepsTypes_aloof.toSteady.stable hev (fun _ _ _ => trivial) _ _ _

/-- An export adds its row, if it has one. -/
theorem defineExport_adds (path space : Text) (row : Text × Value) :
    Adds (defineExport host ev path space row) fun w => (Plugin.row? w.heap space row).toList := by
  intro w
  have law := keepsTypes_aloof.toStepwise
  rcases run_defineExport host ev path space row w with ⟨silent, rowless, -⟩ | ⟨remark, -, logged⟩
  · simp [silent, rowless]
  · -- what is logged of the definition leaves the types
    rw [logged]
    exact law.bind (log_keepsTypes hev _ _ _ _) (fun _ => law.pure _) _

/-- Exports add their rows in order. -/
theorem defineExports_adds (path space : Text) (exported : List (Text × Value)) :
    Adds (defineExports host ev path space exported) (exportRows host ev path space exported) := by
  induction exported with
  | nil => exact fun _ => rfl
  | cons row rest ih =>
    exact (defineExport_adds host hev path space row).bind fun _ =>
      ih.bind_keeps fun _ => keepsTypes_aloof.toStepwise.pure _

/-- Importing a module leaves the types alone. -/
theorem importModule_keepsTypes (path : Text) :
    Keeps (fun w w' => w'.types = w.types) (importModule ev path) :=
  importModule_holds keepsTypes_declaring hev path

/-- A file adds what its import defines. -/
theorem loadModuleFile_adds (dir : ModuleDir) (file : Text) :
    Adds (loadModuleFile host ev dir file) fun w =>
      (Import.ofFile ev dir file w).defined host ev := by
  have law := keepsTypes_aloof.toSteady.stable
  have loaded := (Adds.keeps_bind (importModule_keepsTypes hev (Path.join [dir.path, file]))
    fun exported => defineExports_adds host hev (Path.join [dir.path, file])
      (qualified dir.space (Path.stem file)) exported).tryCatch fun thrown =>
      law.bind (describe_holds law hev thrown) fun error =>
        law.bind (log_holds law hev (l := host.loggers.modules) (fun _ _ _ => trivial) .error
          "Failed to load module"
          [("filePath", Value.text (Path.join [dir.path, file])), ("error", Value.text error)])
          fun _ => law.pure ([] : List Text)
  intro w
  refine (loaded w).trans (congrArg w.types.adding ?_)
  simp only [afterwards, Import.defined, Import.ofFile]
  rcases ExceptT.run (importModule ev (Path.join [dir.path, file]))
    w with ⟨_ | exported, w'⟩ <;> rfl

/-- Files add what their imports define, in order. -/
theorem loadModuleFiles_adds (dir : ModuleDir) (files : List Text) :
    Adds (loadModuleFiles host ev dir files) fun w =>
      (fileImports host ev dir files w).flatMap (Import.defined host ev) := by
  induction files with
  | nil => exact fun _ => rfl
  | cons file rest ih =>
    intro w
    have loaded := (loadModuleFile_adds host hev dir file).bind fun names =>
      ih.bind_keeps fun more => keepsTypes_aloof.toStepwise.pure (names ++ more)
    simp only [fileImports, List.flatMap_cons, flatMap_afterwards]
    exact loaded w

/-- So does a directory. -/
theorem loadModuleDir_adds (dir : ModuleDir) :
    Adds (loadModuleDir host ev dir) fun w =>
      (dirImports host ev dir w).flatMap (Import.defined host ev) := by
  intro w
  have law := keepsTypes_aloof.toStepwise
  unfold loadModuleDir dirImports
  rw [run_bind_ok (run_get w)]
  dsimp only
  cases isDirectory : w.files.isDirectory dir.path with
  | true =>
    simp only [Files.contains_of_isDirectory isDirectory, Bool.not_true, Bool.false_eq_true,
      if_false, if_true]
    exact (loadModuleFiles_adds host hev dir _).bind_keeps
      (fun names => law.bind (log_keepsTypes hev _ _ _ _) fun _ => law.pure names) w
  | false =>
    simp only [Bool.not_false, if_true, Bool.false_eq_true, if_false, List.flatMap_nil]
    split
    · exact law.bind (log_keepsTypes hev _ _ _ _) (fun _ => law.pure _) w
    · exact law.bind (log_keepsTypes hev _ _ _ _) (fun _ => law.pure _) w

/-- The types that are known after directories of modules were loaded: each import adds what it
comes to define, one after another. -/
theorem loadModuleDirs_adds (dirs : List ModuleDir) :
    Adds (loadModuleDirs host ev dirs) fun w =>
      (imports host ev dirs w).flatMap (Import.defined host ev) := by
  induction dirs with
  | nil => exact fun _ => rfl
  | cons dir rest ih =>
    intro w
    have loaded := (loadModuleDir_adds host hev dir).bind fun names =>
      ih.bind_keeps fun more => keepsTypes_aloof.toStepwise.pure (names ++ more)
    simp only [imports, List.flatMap_append, flatMap_afterwards]
    exact loaded w

end types

/-! ## A directory of plugins -/

/-- A module that exports empty classes under names. -/
def moduleExporting (names : List Text) : FileNode :=
  .module (.object [("exports", .list (names.map fun name => .list [.text name, .object []]))])

/-- A directory with two modules of one stem, one that cannot be imported, and a file of another
kind. -/
def pluginFiles : Files where
  nodes :=
    [("/plugins/metrics.mjs", moduleExporting ["Other", "Metric"]),
    ("/plugins/notes.txt", .text []),
      ("/plugins/broken.js", .module
        (.object [("exports", .list []), ("throws", .text "no disk")])),
      ("/plugins/metrics.js", moduleExporting ["Metric"])]
  cwd := "/"

/-- The directory, and its namespace. -/
def pluginDir : ModuleDir := ⟨"/plugins", "plugins"⟩

/-- A host that imports what the modules define. -/
def pluginHost : Host :=
  Host.engineWithBus (Logger.printing "plans") (Domain.imports ++ [("plugins.metrics" : Text)])

/-- A world with the files in which nothing has happened. -/
def pluginWorld : World := { World.initial Domain.heap with files := pluginFiles }

/-- The second module defines the class of the first one again. -/
example : ((imports pluginHost (evaluator pluginHost 2) [pluginDir] pluginWorld).flatMap
    (Import.defined pluginHost (evaluator pluginHost 2))).map (·.1) =
      ["plugins.metrics.Metric", "plugins.metrics.Metric", "plugins.metrics.Other"].map
        Text.ofString := by
  decide +kernel

end EvalPlan

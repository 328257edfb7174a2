import EvalPlan.Declaration
import EvalPlan.Settings
import EvalPlan.Text.Blank

/-!
# Code modules

Modules are files that export classes. Every exported class becomes a type under the namespace of
its file and the name of the export; a default export goes by the name of the class itself, and one
without a name is skipped. The files of a directory are taken in the order of their names, the
exports of a file in the order of theirs. A file that cannot be imported is logged and skipped.
-/

namespace EvalPlan

open Script (ClassKeys)

namespace Plugin

/-- The message of an import that fails by itself. -/
def importFault : Text := "the module cannot be imported"

/-- The extensions of files that can be imported. -/
def importable : List Text := [".js", ".mjs"]

/-- The file may hold a module: its extension counts in either case of letters. -/
def isModuleName (file : Text) : Bool :=
  importable.contains ((Path.extension file).map CodeUnit.toLower)

/-- The names of modules among those of the files in a directory, in the order of their units. -/
def moduleNames (names : List Text) : List Text := (Text.sort names).filter isModuleName

/-- The text is a module that exports nothing. -/
def isEmptyModule (t : Text) : Bool :=
  let body := t.filter fun u => !Text.isBlank u
  body.isEmpty || body == ("export\x7b\x7d;" : Text) || body == ("export\x7b\x7d" : Text)

/-- The own name of an exported class. -/
def ownName (exportName : Text) (spec : Json) : Text :=
  if (spec.get? "anonymous").any Json.isTrue then "default"
  else match (spec.get? "name").bind Json.text? with
    | some name => name
    | none => exportName

/-- The classes that a description of a module exports, in the order in which they are written. -/
def declarations (description : Json) : List Declaration :=
  ((description.get? "exports").getD .null).items.filterMap fun row =>
    match row.items with
    | [name, spec] =>
      let label := Script.textOf name
      some { label, key := none, name := ownName label spec, spec }
    | _ => none

/-- The exports in the order of their names. -/
def inNameOrder (labels : List Text) (exported : Table Text Value) : Table Text Value :=
  (Text.sort labels.eraseDups).filterMap fun label => (exported.get? label).map fun v => (label, v)

/-- The name under which an export becomes a type, if it has one. -/
def typeName? (h : Heap) (label : Text) (exported : Value) : Option Text :=
  let name := if label = "default" then (h.text? exported "name").getD [] else label
  if name.isEmpty || name = "default" then none else some name

end Plugin

namespace Action

/-- Imports a module; answers its exports in the order of their names. A module that was imported
before is not imported again. -/
def importModule (ev : Evaluator) (path : Text) : Action (Table Text Value) := do
  let w ← get
  let file := w.files.absolute path
  match w.modules.get? file with
  -- an earlier import answers the same classes
  | some exported => return exported
  | none =>
    match w.files.nodeAt file, Plugin.importable.contains (Path.extension (Path.basename file)) with
    | some (.module description), true => do
      let ds := Plugin.declarations description
      match description.get? "throws" with
      | some j => do
        let thrown ← describedValue ev (ClassKeys.ofTable []) j
        throw thrown
      | none => do
        let known ← declare ev [] ds
        let exported := Plugin.inNameOrder (ds.map (·.label)) known
        modify fun w => { w with modules := w.modules.put file exported }
        return exported
    | some (.text t), true => if Plugin.isEmptyModule t then return [] else crash .general Plugin.importFault
    | _, _ => crash .general Plugin.importFault

/-- Defines the type that an export makes, if it makes one; answers its full name. -/
def defineExport (host : Host) (ev : Evaluator) (path space : Text) (row : Text × Value) :
    Action (Option Text) := do
  let (label, exported) := row
  let h ← heap
  if !h.isType exported then return none
  else
    match Plugin.typeName? h label exported with
    | none => do
      log ev host.loggers.modules .warn "Skipping anonymous default export" [("filePath", Value.text path)]
      return none
    | some name => do
      let full := qualified space name
      defineType full exported
      log ev host.loggers.modules .debug "Defined type"
        [("name", Value.text full), ("filePath", Value.text path)]
      return some full

/-- Defines the types that exports make; answers their full names. -/
def defineExports (host : Host) (ev : Evaluator) (path space : Text) : List (Text × Value) →
    Action (List Text)
  | [] => return []
  | row :: rest => do
    let name ← defineExport host ev path space row
    let names ← defineExports host ev path space rest
    return name.toList ++ names

/-- Imports a module and defines the types it exports; answers their full names. -/
def loadModule (host : Host) (ev : Evaluator) (path space : Text) : Action (List Text) := do
  let exported ← importModule ev path
  defineExports host ev path space exported

/-- Imports one file of a directory; a failure is logged. -/
def loadModuleFile (host : Host) (ev : Evaluator) (dir : ModuleDir) (file : Text) :
    Action (List Text) := do
  let path := Path.join [dir.path, file]
  -- types that were defined before the failure stay defined
  tryCatch (loadModule host ev path (qualified dir.space (Path.stem file))) fun thrown => do
    let error ← describe ev thrown
    log ev host.loggers.modules .error "Failed to load module"
      [("filePath", Value.text path), ("error", Value.text error)]
    return []

/-- Imports files of a directory in order. -/
def loadModuleFiles (host : Host) (ev : Evaluator) (dir : ModuleDir) :
    List Text → Action (List Text)
  | [] => return []
  | file :: rest => do
    let names ← loadModuleFile host ev dir file
    let more ← loadModuleFiles host ev dir rest
    return names ++ more

/-- Imports the modules of a directory; answers the full names of their types. -/
def loadModuleDir (host : Host) (ev : Evaluator) (dir : ModuleDir) : Action (List Text) := do
  let files := (← get).files
  let place : List (Text × Datum) := [("dirPath", Value.text dir.path)]
  if !files.contains dir.path then
    log ev host.loggers.modules .warn "Module directory does not exist" place
    return []
  else if !files.isDirectory dir.path then
    log ev host.loggers.modules .warn "Module path is not a directory" place
    return []
  else
    let names ← loadModuleFiles host ev dir (Plugin.moduleNames (files.listing dir.path))
    log ev host.loggers.modules .info "Modules loaded from directory"
      [("dirPath", Value.text dir.path), ("types", Value.ofNat names.length)]
    return names

/-- Imports the modules of directories in order. -/
def loadModuleDirs (host : Host) (ev : Evaluator) : List ModuleDir → Action (List Text)
  | [] => return []
  | dir :: rest => do
    let names ← loadModuleDir host ev dir
    let more ← loadModuleDirs host ev rest
    return names ++ more

end Action

end EvalPlan

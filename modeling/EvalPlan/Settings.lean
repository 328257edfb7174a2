import EvalPlan.Files
import EvalPlan.Log
import EvalPlan.Yaml

/-!
# Engine settings

The settings of the command: the least level that is logged, the directories that manifests are
searched in, the directories whose modules define types, and the namespaces that scripts may leave
out. They come from a YAML file; paths in it start from the directory that holds it, and keys that
are left out take their defaults. A file is taken as a whole or not at all.
-/

namespace EvalPlan

/-- A directory of code modules and the namespace of the types they define. -/
structure ModuleDir where
  /-- The directory. -/
  path : Text
  /-- The namespace. -/
  space : Text
deriving DecidableEq

/-- The settings of the command. -/
structure Settings where
  /-- What the logger writes. -/
  threshold : Threshold
  /-- The directories that manifests are searched in. -/
  roots : List Text
  /-- The directories whose modules define types. -/
  moduleDirs : List ModuleDir
  /-- The namespaces that scripts may leave out. -/
  imports : List Text
deriving DecidableEq

namespace Settings

/-- Why a settings file is refused. -/
inductive Fault
  /-- There is no file. -/
  | notFound (path : Text)
  /-- The file cannot be read. -/
  | unreadable (fault : ReadFault)
  /-- The file is no YAML. -/
  | notYaml
  /-- The file holds no mapping. -/
  | notMapping
  /-- The log level is none. -/
  | unknownLevel (given : Text)
  /-- What is given as the log level has no text. -/
  | levelWithoutText
  /-- A key that takes a list of texts holds something else. -/
  | notTexts (key : Text)
  /-- The module directories are no list. -/
  | notModuleList
  /-- A module directory has no path. -/
  | moduleWithoutPath (index : Nat)
  /-- A module directory has no namespace. -/
  | moduleWithoutSpace (index : Nat)

/-- The message of a fault. -/
def Fault.message : Fault → Text
  | notFound path => "Engine config file not found: " ++ path
  | unreadable fault => fault.message
  | notYaml => "the file is not valid YAML"
  | notMapping => "Invalid engine config format: expected a mapping"
  | unknownLevel given => "Invalid engine config: unknown log level '" ++ given ++ "'"
  | levelWithoutText => "the log level has no text"
  | notTexts key => "Invalid engine config: '" ++ key ++ "' must be a list of strings"
  | notModuleList => "Invalid engine config: 'moduleDirs' must be a list"
  | moduleWithoutPath index =>
    "Invalid module directory at index " ++ Text.ofNat index ++ ": missing or invalid 'path'"
  | moduleWithoutSpace index =>
    "Invalid module directory at index " ++ Text.ofNat index ++ ": missing or invalid 'namespace'"

/-- The kind of error that reports a fault. -/
def Fault.kind : Fault → ErrorKind
  | notYaml => .yaml
  | levelWithoutText => .type
  | _ => .general

/-- The settings that hold where a directory's file says nothing. -/
def default (baseDir : Text) : Settings :=
  { threshold := .from .info
    roots := [Path.resolve baseDir ["..", "resources"]]
    moduleDirs := []
    imports := [] }

mutual

/-- The text of a configured value within a message. An object that has `toString` under its keys
has none. -/
def words : Json → Option Text
  | .null => some "null"
  | .bool true => some "true"
  | .bool false => some "false"
  | .number x => some (Decimal.text x)
  | .text t => some t
  | .list xs => (wordsOfItems xs).map (Text.join ",")
  | .object ms => if ms.any (·.1 == ("toString" : Text)) then none else some "[object Object]"

/-- The texts of the items of a list; null is left empty. -/
def wordsOfItems : List Json → Option (List Text)
  | [] => some []
  | .null :: xs => (wordsOfItems xs).map ([] :: ·)
  | x :: xs => do return (← words x) :: (← wordsOfItems xs)

end

/-- Null counts as left out. -/
def present? (raw : Json) (key : Text) : Option Json :=
  match raw.get? key with
  | some .null => none
  | v => v

/-- The threshold that is configured. Here null is not left out. -/
def readThreshold (raw : Json) (fallback : Threshold) : Except Fault Threshold :=
  match raw.get? "logLevel" with
  | none => .ok fallback
  | some v =>
    match v.text?.bind Threshold.ofName? with
    | some threshold => .ok threshold
    | none =>
      match words v with
      | some given => .error (.unknownLevel given)
      | none => .error .levelWithoutText

/-- The texts that are configured under a key, if it is there. -/
def readTexts (raw : Json) (key : Text) : Except Fault (Option (List Text)) :=
  match present? raw key with
  | none => .ok none
  | some (.list xs) =>
    match xs.mapM Json.text? with
    | some texts => .ok (some texts)
    | none => .error (.notTexts key)
  | some _ => .error (.notTexts key)

/-- One configured module directory. -/
def readModuleDir (baseDir : Text) (index : Nat) (entry : Json) : Except Fault ModuleDir :=
  match (entry.get? "path").bind Json.text? with
  | none => .error (.moduleWithoutPath index)
  | some path =>
    match (entry.get? "namespace").bind Json.text? with
    | none => .error (.moduleWithoutSpace index)
    | some space =>
      -- an empty path is a path, but an empty namespace is none
      if space.isEmpty then .error (.moduleWithoutSpace index)
      else .ok ⟨Path.resolve baseDir [path], space⟩

/-- The configured module directories from an index on. -/
def readModuleDirsFrom (baseDir : Text) : Nat → List Json → Except Fault (List ModuleDir)
  | _, [] => .ok []
  | index, entry :: rest => do
    let dir ← readModuleDir baseDir index entry
    let dirs ← readModuleDirsFrom baseDir (index + 1) rest
    .ok (dir :: dirs)

/-- The configured module directories. -/
def readModuleDirs (baseDir : Text) (raw : Json) : Except Fault (List ModuleDir) :=
  match present? raw "moduleDirs" with
  | none => .ok []
  | some (.list xs) => readModuleDirsFrom baseDir 0 xs
  | some _ => .error .notModuleList

/-- The settings of a configured value in a file of a directory. -/
def ofJson (baseDir : Text) (parsed : Json) : Except Fault Settings :=
  let fallback := default baseDir
  match parsed with
  -- a file without content counts as one that leaves everything out
  | .null => .ok fallback
  | .object _ => do
    let threshold ← readThreshold parsed fallback.threshold
    let roots ← readTexts parsed "resourceRoots"
    let moduleDirs ← readModuleDirs baseDir parsed
    let imports ← readTexts parsed "imports"
    .ok { threshold
          roots := match roots with
            | some paths => paths.map fun path => Path.resolve baseDir [path]
            | none => fallback.roots
          moduleDirs
          imports := imports.getD fallback.imports }
  | _ => .error .notMapping

/-- The directory of a settings file. -/
def baseDir (files : Files) (path : Text) : Text := Path.parent (files.absolute path)

/-- Loads a settings file, given what a text holds if it is YAML. -/
def loadBy (read : Text → Option Json) (files : Files) (path : Text) : Except Fault Settings :=
  if !files.contains path then .error (.notFound path)
  else
    match files.readText path with
    | .error fault => .error (.unreadable fault)
    | .ok text =>
      match read text with
      | none => .error .notYaml
      | some parsed => ofJson (baseDir files path) parsed

/-- Loads a settings file. -/
def load (files : Files) (path : Text) : Except Fault Settings := loadBy Yaml.read files path

/-- Loads a settings file, given what a text holds; where it is missing or refused, the defaults
hold, together with the fault. -/
def loadOrDefaultBy (read : Text → Option Json) (files : Files) (path : Text) :
    Settings × Option Fault :=
  match loadBy read files path with
  | .ok settings => (settings, none)
  | .error fault => (default (baseDir files path), some fault)

/-- Loads a settings file; where it is missing or refused, the defaults hold, together with the
fault. -/
def loadOrDefault (files : Files) (path : Text) : Settings × Option Fault :=
  loadOrDefaultBy Yaml.read files path

/-- The settings under the keys of a settings file. -/
def members (s : Settings) : List (Text × Json) :=
  let texts (ts : List Text) : Json := .list (ts.map Json.text)
  [("logLevel", .text s.threshold.name), ("resourceRoots", texts s.roots),
    ("moduleDirs", .list (s.moduleDirs.map fun dir =>
      .object [("path", .text dir.path), ("namespace", .text dir.space)])),
    ("imports", texts s.imports)]

end Settings

end EvalPlan

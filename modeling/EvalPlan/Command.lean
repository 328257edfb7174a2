import EvalPlan.Engine
import EvalPlan.Report

/-!
# The command

Loads one configuration script and prints the report of its run. The settings come from a file;
a missing or refused one is replaced by the defaults. Either the whole report is printed or one
line that says what failed.
-/

namespace EvalPlan

/-- What the command is called with. -/
structure Invocation where
  /-- The script, if one is given. -/
  script : Option Text
  /-- The settings file, if one is given. -/
  config : Option Text
  /-- The log level, if one is given. -/
  level : Option Text

namespace Command

open EvalPlan.Action

/-- The directory of the application. -/
def appRoot : Text := "/app"

/-- The script that is run when none is given. -/
def defaultScript : Text := Path.join [appRoot, "scripts", "baseline.eval.js"]

/-- The settings file that is used when none is given. -/
def defaultConfig : Text := Path.join [appRoot, "config", "engine.yml"]

/-- The name of the component that the command's logger writes for. -/
def component : Text := "evalconf"

/-- Loads the settings, given what a text holds if it is YAML, and warns where the defaults are
used. -/
def loadSettings (read : Text → Option Json) (ev : Evaluator) (boot : Logger) (path : Text) :
    Action Settings := do
  let (settings, fault) := Settings.loadOrDefaultBy read (← get).files path
  match fault with
  | none => return settings
  | some fault => do
    log ev boot .warn "Failed to load engine config, using defaults"
      [("filePath", Value.text path), ("error", Value.text fault.message)]
    return settings

/-- What is logged: the given level if it is one, else the configured one. -/
def chooseThreshold (ev : Evaluator) (boot : Logger) (configured : Threshold)
    (given : Option Text) : Action Threshold := do
  match given with
  | none => return configured
  | some name =>
    match Threshold.ofName? name with
    | some threshold => return threshold
    | none => do
      log ev boot .warn "Ignoring unknown EVALCONF_LOG_LEVEL" [("value", Value.text name)]
      return configured

/-- Prints lines of the report. -/
def printLines : List Text → Action Unit
  | [] => return
  | t :: rest => do
    note (.line .report [.text t])
    printLines rest

/-- Loads a script and answers the lines of the report of its run. -/
def report (host : Host) (ev : Evaluator) (script : Text) : Action (List Text) := do
  let environment ← awaiting ev (load host ev (.file script))
  Report.lines ev environment

/-- Loads a script and prints the report of its run. -/
def runScript (host : Host) (ev : Evaluator) (script : Text) : Action Unit := do
  printLines (← report host ev script)

/-- The thrown value is an error of the engine. -/
def isEngineError (h : Heap) (thrown : Value) : Bool :=
  h.inherits thrown (Realm.main.template .refusal)

/-- The line for an error of the engine. -/
def fatalLine (ev : Evaluator) (thrown : Value) : Action Text := do
  let code ← words ev .main (← property ev .main thrown "code")
  let message ← words ev .main (← property ev .main thrown "message")
  return "[FATAL] " ++ code ++ ": " ++ message

/-- Runs a script; an error of the engine is printed. Answers the exit code. -/
def runReporting (host : Host) (ev : Evaluator) (script : Text) : Action Nat :=
  tryCatch
    (do
      runScript host ev script
      return 0)
    fun thrown => do
      -- anything else is a failure of the command itself
      if isEngineError (← Action.heap) thrown then
        note (.line (.level .error) [.text (← fatalLine ev thrown)])
        return 1
      else throw thrown

/-- Loads the settings and decides what is logged. -/
def configure (read : Text → Option Json) (ev : Evaluator) (invocation : Invocation) :
    Action (Settings × Logger) := do
  let boot := Logger.printing component
  let settings ← loadSettings read ev boot (invocation.config.getD defaultConfig)
  let threshold ← chooseThreshold ev boot settings.threshold invocation.level
  return (settings, Logger.console component threshold)

/-- Starts the engine. The domain's classes are the engine's types beside those of modules, and the
domain's namespaces need not be written. -/
def prepare (host : Host) (ev : Evaluator) (settings : Settings) : Action Unit := do
  Domain.defineTypes
  createEngine host ev (some settings.roots) settings.moduleDirs
  let _ ← subscribe "run:completed" (.logFinish host.loggers.engine.expose)

/-- Starts the engine and runs the script. -/
def start (host : Host) (ev : Evaluator) (settings : Settings) (script : Text) : Action Nat := do
  prepare host ev settings
  runReporting host ev script

/-- Prints a failure that is nobody's. Answers the exit code. -/
def reportUnexpected (ev : Evaluator) (thrown : Value) : Action Nat := do
  -- continuations that wait are carried out before the failure is printed
  runRound ev
  note (.line (.level .error) [.text "[FATAL] Unexpected failure:", (← Action.heap).portrait thrown])
  return 1

/-- The evaluator before an engine is there. -/
def early : Evaluator := (Host.engineWithBus (Logger.printing component) []).evaluator

/-- The engine of the command. -/
def engine (settings : Settings) (logger : Logger) : Host :=
  Host.engineWithBus logger (Domain.imports ++ settings.imports)

/-- Runs the command, given what a text holds if it is YAML. What fails outside a script is printed
too. Answers the exit code. -/
def run (read : Text → Option Json) (invocation : Invocation) : Action Nat := do
  let (settings, logger) ← configure read early invocation
  let host := engine settings logger
  let ev := host.evaluator
  let code ← tryCatch (start host ev settings (invocation.script.getD defaultScript))
    (reportUnexpected ev)
  settle ev
  return code

/-- The exit code and the notices that the command leaves over some files, given what a text holds
if it is YAML. -/
def mainBy (read : Text → Option Json) (files : Files) (invocation : Invocation) :
    Nat × List Notice :=
  let world := { World.initial Domain.heap with files }
  match (run read invocation).run world with
  | (.ok code, world) => (code, world.notices)
  | (.error _, world) => (1, world.notices)

/-- The exit code and the notices that the command leaves over some files. -/
def main (files : Files) (invocation : Invocation) : Nat × List Notice :=
  mainBy Yaml.read files invocation

end Command

end EvalPlan

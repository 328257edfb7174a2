import EvalPlan.Command
import EvalPlan.FileTree
import EvalPlan.Json.Reader

/-!
# The program

Runs the command over files that are described on standard input: a JSON object whose `files` are
pairs of a path and a file, and whose `config` and `level`, if there, name the settings file and the
log level. The first argument names the script. Lines of the report, and log entries that ask for
no attention, go to standard output; the others go to standard error.
-/

namespace EvalPlan

/-- What a printed line says: texts as they are and everything else as a tree. -/
def printedText (arguments : List Portrait) : Text :=
  Text.join " " (arguments.map fun p =>
    match p with
    | .text t => t
    | p => (p.toTree []).write)

/-- The invocation and the files that a request describes. -/
def readRequest (script : Option Text) (request : Json) : Script.Reading (Invocation × Files) := do
  let keys : Script.ClassKeys := fun key => (Table.get? Domain.classes key).getD .undefined
  let files ← Files.writeAll ⟨[], "/"⟩ keys ((request.get? "files").getD .null).items
  return ({ script
            config := (request.get? "config").bind Json.text?
            level := (request.get? "level").bind Json.text? }, files)

/-- Prints a notice, if it is a line. -/
def printNotice (n : Notice) : IO Unit :=
  match n with
  | .line (.level .warn) arguments => IO.eprintln (printedText arguments).toString
  | .line (.level .error) arguments => IO.eprintln (printedText arguments).toString
  | .line _ arguments => IO.println (printedText arguments).toString
  | _ => pure ()

end EvalPlan

open EvalPlan

/-- Runs the command and exits with its code. -/
def main (arguments : List String) : IO UInt32 := do
  let input ← (← IO.getStdin).getLine
  match Json.read (Text.ofString input) with
  | none => do
    IO.eprintln "the request is no JSON"
    return 2
  | some request =>
    match readRequest (arguments.head?.map Text.ofString) request with
    | .error message => do
      IO.eprintln (Text.toString message)
      return 2
    | .ok (invocation, files) => do
      let (code, notices) := Command.main files invocation
      notices.forM printNotice
      return code.toUInt32

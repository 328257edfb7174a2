import EvalPlan.Files
import EvalPlan.Script.Reader
import EvalPlan.Text.Base64
import EvalPlan.Text.Utf8

/-!
# Described files

Files are described by JSON trees: by their text, their bytes in base 64, a value whose JSON text
they hold, a program, a module, or as a directory or a file that may not be read.
-/

namespace EvalPlan

/-- The file that a tree describes. -/
def FileNode.ofJson (keys : Script.ClassKeys) (spec : Json) : Script.Reading FileNode :=
  match spec with
  | .object ((form, v) :: _) =>
    if form = "text" then .ok (.text (v.text?.getD []))
    else if form = "json" then .ok (.text v.write)
    else if form = "base64" then .ok (.text (Text.Utf8.decode (Text.Base64.decode (v.text?.getD []))))
    else if form = "dir" then .ok .directory
    else if form = "unreadable" then .ok .sealed
    else if form = "module" then .ok (.module v)
    else if form = "program" then return .script (← Script.Program.ofJson keys v)
    else .error ("bad file " ++ spec.write)
  | _ => .error ("bad file " ++ spec.write)

/-- The files with one more, described as a pair of its path and itself. -/
def Files.writeDescribed (files : Files) (keys : Script.ClassKeys) (entry : Json) :
    Script.Reading Files :=
  match entry.items with
  | [path, spec] => return files.write (path.text?.getD []) (← FileNode.ofJson keys spec)
  | _ => .error ("bad file " ++ entry.write)

/-- The files with those of a list added in order. -/
def Files.writeAll (files : Files) (keys : Script.ClassKeys) : List Json → Script.Reading Files
  | [] => .ok files
  | entry :: rest => do
    let files ← files.writeDescribed keys entry
    files.writeAll keys rest

end EvalPlan

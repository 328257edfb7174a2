import EvalPlan.Json
import EvalPlan.Path
import EvalPlan.Script.Program
import EvalPlan.Table

/-!
# Files

A tree of files, listed by their absolute paths. Directories exist when something lies or lay below
them, or when they are listed themselves.
-/

namespace EvalPlan

/-- What lies at a path. -/
inductive FileNode
  /-- A file that holds a text. -/
  | text (t : Text)
  /-- A file that holds a script. -/
  | script (program : Script.Program)
  /-- A file that holds a code module, by its description. -/
  | module (description : Json)
  /-- A file that may not be read. -/
  | sealed
  /-- A directory. -/
  | directory

/-- The files by absolute path, together with the directory that relative paths start from. -/
structure Files where
  /-- What lies at each listed path. -/
  nodes : Table Text FileNode
  /-- The working directory. -/
  cwd : Text

/-- Why a file cannot be read. -/
inductive ReadFault
  /-- Nothing lies at the path. -/
  | missing (path : Text)
  /-- A directory lies at the path. -/
  | directory
  /-- The file may not be read. -/
  | denied (path : Text)

namespace ReadFault

/-- The message of a fault. -/
def message : ReadFault → Text
  | missing path => "ENOENT: no such file or directory, open '" ++ path ++ "'"
  | directory => "EISDIR: illegal operation on a directory, read"
  | denied path => "EACCES: permission denied, open '" ++ path ++ "'"

/-- The system's code of a fault. -/
def code : ReadFault → Text
  | missing _ => "ENOENT"
  | directory => "EISDIR"
  | denied _ => "EACCES"

end ReadFault

namespace Files

/-- The absolute form of a path. -/
def absolute (f : Files) (path : Text) : Text := Path.resolve f.cwd [path]

/-- One path lies below another. -/
def isBelow (dir path : Text) : Bool :=
  -- the root ends in a slash already
  let stem := if dir = "/" then dir else dir ++ [Text.slash]
  stem.isPrefixOf path && stem.length < path.length

/-- What lies at an absolute path in its shortest form. -/
def nodeAt (f : Files) (p : Text) : Option FileNode :=
  match f.nodes.get? p with
  | some node => some node
  | none =>
    -- a directory exists where something lies below it
    if p = "/" || p = f.cwd || isBelow p f.cwd || f.nodes.any (fun row => isBelow p row.1) then
      some .directory
    else none

/-- What lies at a path. A path that ends in a slash leads to a directory only. -/
def lookup (f : Files) (path : Text) : Option FileNode :=
  match path.getLast?, f.nodeAt (f.absolute path) with
  | none, _ => none
  | _, some .directory => some .directory
  | some last, node => if last = Text.slash then none else node

/-- Something lies at a path. -/
def contains (f : Files) (path : Text) : Bool := (f.lookup path).isSome

/-- A directory lies at a path. -/
def isDirectory (f : Files) (path : Text) : Bool :=
  match f.lookup path with
  | some .directory => true
  | _ => false

/-- A file lies at a path. -/
def isFile (f : Files) (path : Text) : Bool := f.contains path && !f.isDirectory path

/-- The name under which a path shows in the listing of a directory. -/
def entryName? (dir path : Text) : Option Text :=
  if isBelow dir path then
    (Path.segments path)[(Path.segments dir).length]?
  else none

/-- The names in a directory, each once, in no useful order. -/
def listing (f : Files) (path : Text) : List Text :=
  let dir := f.absolute path
  (f.nodes.filterMap fun row => entryName? dir row.1).eraseDups

/-- Reads a file, whatever it holds. -/
def read (f : Files) (path : Text) : Except ReadFault FileNode :=
  match f.lookup path with
  | none => .error (.missing path)
  | some .directory => .error .directory
  | some .sealed => .error (.denied path)
  | some node => .ok node

/-- Reads the text of a file; scripts and modules are texts of no further interest here. -/
def readText (f : Files) (path : Text) : Except ReadFault Text :=
  (f.read path).map fun node =>
    match node with
    | .text t => t
    | _ => []

/-- The directories above an absolute path. -/
def ancestors (p : Text) : List Text :=
  let segs := Path.segments p
  (List.range segs.length).map fun n => Path.ofSegments (segs.take n)

/-- Puts a file at a path. The directories that it lies in are there from then on. -/
def write (f : Files) (path : Text) (node : FileNode) : Files :=
  let p := f.absolute path
  let missing := (ancestors p).filter fun dir => (f.nodes.get? dir).isNone
  { f with nodes := (missing.foldl (fun nodes dir => Table.put nodes dir .directory) f.nodes).put p node }

/-- Takes the file at a path away. -/
def delete (f : Files) (path : Text) : Files :=
  { f with nodes := f.nodes.erase (f.absolute path) }

end Files

end EvalPlan

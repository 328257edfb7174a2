import EvalPlan.Files

/-!
# Resources

Manifests are found by logical paths. Resources are either listed, each with the origin it is known
by, or searched below a sequence of root directories; a resource that several roots hold is found
once in each, in the order of the roots.
-/

namespace EvalPlan

/-- A resource that is listed. -/
structure ListedResource where
  /-- Its logical path. -/
  path : Text
  /-- What it is known by. -/
  origin : Text
  /-- What it holds; none when it may not be read. -/
  content : Option Text

/-- Where resources come from. -/
inductive Resources
  /-- A list of them. -/
  | listed (entries : List ListedResource)
  /-- Directories in the order in which they are searched. -/
  | roots (dirs : List Text)

/-- Where the content of a found resource is. -/
inductive ResourceBody
  /-- Here. -/
  | content (t : Text)
  /-- Out of reach. -/
  | denied
  /-- In a file. -/
  | file (path : Text)

/-- A resource that was found. -/
structure Resource where
  /-- What it is known by. -/
  origin : Text
  /-- Where its content is. -/
  body : ResourceBody

/-- Why the content of a resource cannot be had. -/
inductive ResourceFault
  /-- It may not be read. -/
  | denied
  /-- Its file cannot be read. -/
  | file (fault : ReadFault)

/-- The message of a fault. -/
def ResourceFault.message : ResourceFault → Text
  | .denied => "permission denied"
  | .file fault => fault.message

namespace Resources

/-- The file that a logical path leads to below a root. -/
def filePath (root path : Text) : Text := Path.join (root :: Path.segments path)

/-- The resources at a logical path. -/
def find (r : Resources) (files : Files) (path : Text) : List Resource :=
  match r with
  | .listed entries =>
    (entries.filter (·.path == path)).map fun e =>
      { origin := e.origin
        body := match e.content with
          | some t => .content t
          | none => .denied }
  | .roots dirs =>
    ((dirs.map fun root => filePath root path).filter files.isFile).map fun p => ⟨p, .file p⟩

/-- Lists one more resource. -/
def add (r : Resources) (e : ListedResource) : Resources :=
  match r with
  | .listed entries => .listed (entries ++ [e])
  | .roots dirs => .roots dirs

end Resources

/-- The content of a found resource. -/
def Resource.read (r : Resource) (files : Files) : Except ResourceFault Text :=
  match r.body with
  | .content t => .ok t
  | .denied => .error .denied
  | .file path =>
    match files.readText path with
    | .ok t => .ok t
    | .error fault => .error (.file fault)

end EvalPlan

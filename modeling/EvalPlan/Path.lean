import EvalPlan.Text

/-!
# Paths

Paths with `/` between segments. All operations are lexical: they look at the text of a path and
never at what it leads to.
-/

namespace EvalPlan.Path

/-- The path starts at the root. -/
def isAbsolute (p : Text) : Bool :=
  match p with
  | [] => false
  | u :: _ => u = Text.slash

/-- The segments of a path that are not empty. -/
def segments (p : Text) : List Text := (p.splitOn Text.slash).filter (!·.isEmpty)

/-- Adds a segment to a stack of clean ones: `.` stays where it is and `..` takes the last one
away. Above the root there is nothing; elsewhere the `..` is kept. -/
def push (absolute : Bool) (stack : List Text) (segment : Text) : List Text :=
  if segment = "." || segment.isEmpty then stack
  else if segment = ".." then
    match stack with
    | [] => if absolute then [] else [segment]
    | top :: rest => if top = ".." then segment :: stack else rest
  else segment :: stack

/-- The segments that remain after `.` and `..` are carried out. -/
def clean (absolute : Bool) (segs : List Text) : List Text :=
  (segs.foldl (push absolute) []).reverse

/-- The path in its shortest form; a slash at the end is kept. -/
def normalize (p : Text) : Text :=
  let absolute := isAbsolute p
  let body := Text.join [Text.slash] (clean absolute (segments p))
  let trailing : Text := if p.getLast? = some Text.slash then [Text.slash] else []
  if body.isEmpty then if absolute then "/" else "." ++ trailing
  else (if absolute then [Text.slash] else []) ++ body ++ trailing

/-- The parts one below another, in the shortest form. -/
def join (parts : List Text) : Text :=
  let filled := parts.filter (!·.isEmpty)
  if filled.isEmpty then "." else normalize (Text.join [Text.slash] filled)

/-- The absolute path of clean segments. -/
def ofSegments (segs : List Text) : Text := Text.slash :: Text.join [Text.slash] segs

/-- Goes from an absolute path along another one. -/
def follow (base part : Text) : Text :=
  if isAbsolute part then part else base ++ [Text.slash] ++ part

/-- The absolute path, in the shortest form, that is reached from a directory along the parts. -/
def resolve (base : Text) (parts : List Text) : Text :=
  ofSegments (clean true (segments (parts.foldl follow base)))

/-- The directory that holds an absolute path in its shortest form. -/
def parent (p : Text) : Text := ofSegments (segments p).dropLast

/-- The last segment of a path. -/
def basename (p : Text) : Text := ((segments p).getLast?).getD []

/-- The extension of a file name with its dot; a dot at the beginning opens none. -/
def extension (name : Text) : Text :=
  let tail := (name.reverse.takeWhile (· ≠ Text.dot)).reverse
  let front := name.length - tail.length
  if front ≤ 1 || name = ".." then [] else Text.dot :: tail

/-- The file name without its extension. -/
def stem (name : Text) : Text := name.take (name.length - (extension name).length)

end EvalPlan.Path

import EvalPlan.Table
import EvalPlan.Manifest.Escape
import EvalPlan.Manifest.Line

/-!
# Builder manifests

Manifests name builders in property files. Each logical line is one entry: its key ends at the
first unescaped blank, `=` or `:`, and one `=` or `:` with the blanks around it separates the key
from the value. Keys are listed in the order in which they first come, each with its last value.

Two kinds of manifest have fixed logical paths: the one that maps type names to builder names, and
one for each builder that scripts know by a short name.
-/

namespace EvalPlan.Manifest

/-- A unit that ends a key. -/
def isSeparator (u : CodeUnit) : Bool := u = Text.equals || u = Text.colon || isGap u

/-- The raw key of a line and what follows it. An escape never ends a key. -/
def splitKey : Text → Text × Text
  | [] => ([], [])
  | [u] => if isSeparator u then ([], [u]) else ([u], [])
  | u :: v :: rest =>
    if u = Text.backslash then
      let (key, tail) := splitKey rest
      (u :: v :: key, tail)
    else if isSeparator u then ([], u :: v :: rest)
    else
      let (key, tail) := splitKey (v :: rest)
      (u :: key, tail)

/-- What follows the separator: blanks, at most one `=` or `:`, and blanks again. -/
def skipSeparator (t : Text) : Text :=
  match t.dropWhile isGap with
  | [] => []
  | u :: rest => if u = Text.equals || u = Text.colon then rest.dropWhile isGap else u :: rest

/-- The value without the blanks at its end. The first of them stays where a backslash stands
right before it. -/
def trimValue (t : Text) : Text :=
  let body := Text.dropEndWhile isGap t
  if body.getLast? = some Text.backslash then t.take (body.length + 1) else body

/-- One entry of a manifest. -/
structure Entry where
  /-- The key with its escapes resolved. -/
  key : Text
  /-- The value with its escapes resolved. -/
  value : Text
deriving DecidableEq

/-- The entry of a logical line. -/
def Entry.ofLine (line : Text) : Entry :=
  let (key, tail) := splitKey line
  { key := unescape key, value := unescape (trimValue (skipSeparator tail)) }

/-- The entries of a text in the order of their lines; those with an empty key do not count. -/
def entries (t : Text) : List Entry :=
  ((logicalLines t).map Entry.ofLine).filter (!·.key.isEmpty)

/-- The table that a text describes. -/
def parse (t : Text) : Table Text Text :=
  (entries t).foldl (fun table e => table.put e.key e.value) []

/-! ### Logical paths -/

/-- Where the manifest lies that maps type names to builder names. -/
def buildersPath : Text := "eval-config/builders.properties"

/-- Where the manifest of a named builder lies. -/
def namedPath (name : Text) : Text := "eval-config/methods/" ++ name ++ ".properties"

/-- The key of the builder's type name in the manifest of a named builder. -/
def builderKey : Text := "builder"

end EvalPlan.Manifest

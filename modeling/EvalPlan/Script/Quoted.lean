import EvalPlan.Json.Reader
import EvalPlan.Script.Program
import EvalPlan.Text.Blank

/-!
# Programs in plain text

A text that is not written as a program is one only when it is blank, an empty block, or a single
value or name. What a value or a name stands for is then the completion value.
-/

namespace EvalPlan.Script

mutual

/-- The expression for the value that a tree describes. -/
def Expr.ofData : Json → Expr
  | .null => .const .null
  | .bool b => .const (.bool b)
  | .number x => .const (.number x)
  | .text t => .const (.text t)
  | .list items => .list (dataItems items)
  | .object members => .record (dataMembers members)

/-- The expressions for the items of a list. -/
def dataItems : List Json → List Expr
  | [] => []
  | j :: rest => .ofData j :: dataItems rest

/-- The expressions for the members of an object. -/
def dataMembers : List (Text × Json) → List (Text × Expr)
  | [] => []
  | (name, j) :: rest => (name, .ofData j) :: dataMembers rest

end

/-- The text between two equal quotation marks, if it holds neither marks nor escapes. -/
def quotedBody? (t : Text) : Option Text :=
  match t with
  | [] => none
  | mark :: rest =>
    if mark = Text.quote || mark = Text.apostrophe then
      let body := rest.takeWhile fun u => u != mark && u != Text.backslash && u != Text.lineFeed
      if rest.drop body.length = [mark] then some body else none
    else none

/-- A digit follows a leading zero. -/
def hasLeadingZero (t : Text) : Bool :=
  t.head? == some Text.zero && (t.drop 1).head?.any CodeUnit.isDigit

/-- The words that are no names. -/
def reservedWords : List Text :=
  List.map Text.ofString
    ["break", "case", "catch", "class", "const", "continue", "debugger", "default", "delete", "do", "else",
      "enum", "export", "extends", "finally", "for", "function", "if", "import", "in", "instanceof", "new",
      "return", "super", "switch", "this", "throw", "try", "typeof", "var", "void", "while", "with"]

/-- A unit that a name can begin with. -/
def isNameStart (u : CodeUnit) : Bool :=
  (65 ≤ u && u ≤ 90) || (97 ≤ u && u ≤ 122) || u = 36 || u = 95

/-- The text is a name. -/
def isName (t : Text) : Bool :=
  t.head?.any isNameStart && (t.all fun u => isNameStart u || CodeUnit.isDigit u) && !reservedWords.contains t

/-- The expression that a text is. -/
def Expr.ofText? (t : Text) : Option Expr :=
  match Json.read t with
  | some (.object _) => none
  | some j => if hasLeadingZero t then none else some (.ofData j)
  | none =>
    match quotedBody? t with
    | some body => some (.const (.text body))
    | none => if isName t then some (.variable t) else none

/-- The text is a block without statements. -/
def isEmptyBlock (t : Text) : Bool :=
  t.head? == some 123 && t.getLast? == some 125 && (Text.trim (t.drop 1).dropLast).isEmpty

/-- The program that a text is. -/
def Program.ofText (t : Text) : Program :=
  let body := t.trim
  if body.isEmpty || isEmptyBlock body then .block [] none
  else
    let statement := if body.getLast? = some 59 then Text.trim body.dropLast else body
    match Expr.ofText? statement with
    | some e => .block [] (some e)
    | none => .invalid t

end EvalPlan.Script

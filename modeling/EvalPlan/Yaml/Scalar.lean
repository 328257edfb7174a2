import EvalPlan.Json
import EvalPlan.Decimal.Numeral

/-!
# YAML scalars

Plain scalars by their meaning: null, truth values, integers and decimals of the core schema; all
else is text. Quoted scalars are always text.

A scalar may go on over several lines. The blanks around a line end do not count; one line end is
a blank, and each further one is a line feed.
-/

namespace EvalPlan.Yaml

/-! ### Plain scalars -/

/-- The digits of a base behind a mark such as `0x`. -/
def basedNumber (base : Nat) (mark : CodeUnit) (t : Text) : Option Float :=
  match t with
  | 48 :: m :: digits => if m = mark then (Decimal.readBase base digits).map Float.ofNat else none
  | _ => none

/-- The number that a plain scalar is. -/
def number? (t : Text) : Option Float :=
  let signed (body : Text) : Option Float :=
    if body = ".inf" || body = ".Inf" || body = ".INF" then some (1.0 / 0.0)
    else match Decimal.scanLiteral body with
      | some (l, []) => some l.toFloat
      | _ => none
  match t with
  | [] => none
  | u :: rest =>
    if u = Text.hyphen then (signed rest).map (- ·)
    else if u = 43 then signed rest
    else if t = ".nan" || t = ".NaN" || t = ".NAN" then some (0.0 / 0.0)
    else (signed t <|> basedNumber 16 120 t <|> basedNumber 8 111 t)

/-- The value of a plain scalar. -/
def plain (t : Text) : Json :=
  if t.isEmpty || t = "~" || t = "null" || t = "Null" || t = "NULL" then .null
  else if t = "true" || t = "True" || t = "TRUE" then .bool true
  else if t = "false" || t = "False" || t = "FALSE" then .bool false
  else match number? t with
    | some x => .number x
    | none => .text t

/-- A mark that no plain scalar can begin with. -/
def isReserved (u : CodeUnit) : Bool :=
  u = Text.tab || u = Text.comma || u = 37 || u = 124 || u = 62 || u = 64 || u = 96

/-! ### Lines -/

/-- A blank within a line. -/
def isBlank (u : CodeUnit) : Bool := u = Text.space || u = Text.tab

/-- The text without blanks at its beginning. -/
def trimStart (t : Text) : Text := t.dropWhile isBlank

/-- A line without what stands before its line feed and does not count. -/
def trimEnd (t : Text) : Text :=
  Text.dropEndWhile isBlank (if t.getLast? = some Text.carriageReturn then t.dropLast else t)

/-- The lines behind the first one; the gap is what an end of line counts so far. -/
def foldLines (gap : Text) : List Text → Text
  | [] => []
  | [last] => gap ++ trimStart last
  | line :: rest =>
    let content := trimStart (trimEnd line)
    if !content.isEmpty then gap ++ content ++ foldLines [Text.space] rest
    else if gap = [Text.lineFeed] then Text.lineFeed :: foldLines gap rest
    else foldLines [Text.lineFeed] rest

/-- What a text of one or more lines says. -/
def fold (t : Text) : Text :=
  match t.splitOn Text.lineFeed with
  | first :: second :: rest => trimEnd first ++ foldLines [Text.space] (second :: rest)
  | _ => t

/-! ### Quoted scalars -/

/-- Two apostrophes stand for one. -/
def mergeApostrophes : Text → Text
  | [] => []
  | [u] => [u]
  | u :: v :: rest =>
    if u = Text.apostrophe && v = Text.apostrophe then u :: mergeApostrophes rest
    else u :: mergeApostrophes (v :: rest)

/-- The unit that a one-letter escape stands for. -/
def escapeUnit? (e : CodeUnit) : Option CodeUnit :=
  [(48, 0), (97, 7), (98, 8), (116, 9), (9, 9), (110, 10), (118, 11), (102, 12), (114, 13), (101, 27),
    (32, 32), (34, 34), (47, 47), (92, 92), (78, 0x85), (95, 0xA0), (76, 0x2028), (80, 0x2029)].lookup e

/-- The number of hexadecimal digits behind an escape letter. -/
def escapeDigits? (e : CodeUnit) : Option Nat := [(120, 2), (117, 4), (85, 8)].lookup e

/-- The units of the character that hexadecimal digits denote. -/
def escapedUnits? (digits : Text) : Option Text :=
  match Decimal.readBase 16 digits with
  | some code =>
    if code < 0x10000 then some [code.toUInt16]
    else if code < 0x110000 then some (CodeUnit.ofChar (Char.ofNat code))
    else none
  | none => none

/-- The line ends and blanks at the beginning of a text: the number of line ends, and the rest. -/
def skipLineEnds : Text → Nat × Text
  | [] => (0, [])
  | u :: rest =>
    if isBlank u then skipLineEnds rest
    else if u = Text.lineFeed then
      let (n, rest) := skipLineEnds rest
      (n + 1, rest)
    else if u = Text.carriageReturn && rest.head? == some Text.lineFeed then skipLineEnds rest
    else (0, u :: rest)

/-- A line ends here. -/
def atLineEnd (t : Text) : Bool :=
  t.head? == some Text.lineFeed || [Text.carriageReturn, Text.lineFeed].isPrefixOf t

/-- What a double-quoted scalar says, from behind its opening mark up to the last unit, which closes
it. The number bounds the units. -/
def unescape : Nat → Text → Option Text
  | 0, _ => none
  | _, [] => some []
  | _, [_] => some []
  | n + 1, u :: v :: rest =>
    if u = Text.carriageReturn && v = Text.lineFeed then unescape n (v :: rest)
    else if u = Text.lineFeed then
      let (ends, rest) := skipLineEnds (v :: rest)
      let gap : Text := if ends = 0 then [Text.space] else List.replicate ends Text.lineFeed
      (unescape n rest).map fun t => gap ++ t
    else if u = Text.backslash then
      match escapeUnit? v, escapeDigits? v with
      | some w, _ => (unescape n rest).map fun t => w :: t
      | none, some k =>
        match escapedUnits? (rest.take k), unescape n (rest.drop k) with
        | some units, some t => if rest.length < k then none else some (units ++ t)
        | _, _ => none
      | none, none =>
        if atLineEnd (v :: rest) then
          unescape n (trimStart (if v = Text.lineFeed then rest else rest.drop 1))
        else none
    else if isBlank u then
      let gap := (u :: v :: rest).takeWhile isBlank
      let behind := (u :: v :: rest).dropWhile isBlank
      (unescape n behind).map fun t => if atLineEnd behind then t else gap ++ t
    else (unescape n (v :: rest)).map fun t => u :: t

/-- What a quoted scalar with its marks says; one that is not closed says nothing. -/
def quoted? (t : Text) : Option Text :=
  match t with
  | 39 :: rest =>
    if rest.getLast? = some Text.apostrophe then some (mergeApostrophes (fold rest.dropLast)) else none
  | 34 :: rest => if rest.getLast? = some Text.quote then unescape (rest.length + 1) rest else none
  | _ => none

/-! ### Scalars as keys -/

/-- The text under which an object holds what stands under a key. -/
def keyText : Json → Text
  | .text t => t
  | .number x => Decimal.text x
  | .bool true => "true"
  | .bool false => "false"
  | .null => []
  | .list _ => "[ ]"
  | .object _ => "\x7b \x7d"

/-- Two keys are the same scalar. Numbers are compared by value, and what is no number differs from
itself. -/
def sameKey : Json → Json → Bool
  | .null, .null => true
  | .bool a, .bool b => a == b
  | .number x, .number y => x == y
  | .text s, .text t => s == t
  | _, _ => false

end EvalPlan.Yaml

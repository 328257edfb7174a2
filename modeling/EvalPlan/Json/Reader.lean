import EvalPlan.Json
import EvalPlan.Decimal.Numeral

/-!
# Reading JSON text

A reader for JSON text. Each function takes the text from where it stands and answers the value
together with what follows it. The depth of nesting is bounded by the length of the text.
-/

namespace EvalPlan.Json

/-- The text without leading blanks. -/
def skipBlanks (t : Text) : Text := t.dropWhile fun u => u = 32 || u = 9 || u = 10 || u = 13

/-- The units of a quoted text behind its opening mark, and what follows the closing mark. -/
def readQuoted : Text → Option (Text × Text)
  | [] => none
  | 34 :: rest => some ([], rest)
  | 92 :: 117 :: a :: b :: c :: d :: rest => do
    let n := (← a.hexValue?) * 4096 + (← b.hexValue?) * 256 + (← c.hexValue?) * 16 + (← d.hexValue?)
    let (t, rest) ← readQuoted rest
    some (n.toUInt16 :: t, rest)
  | 92 :: e :: rest => do
    let u ← if e = 110 then some 10 else if e = 116 then some 9 else if e = 114 then some 13
      else if e = 98 then some 8 else if e = 102 then some 12
      else if e = 34 || e = 92 || e = 47 then some e else none
    let (t, rest) ← readQuoted rest
    some (u :: t, rest)
  | u :: rest =>
    if u < 32 || u = 92 then none
    else do
      let (t, rest) ← readQuoted rest
      some (u :: t, rest)

/-- The rest of a text behind a word it begins with. -/
def expect? (word t : Text) : Option Text :=
  if word.isPrefixOf t then some (t.drop word.length) else none

/-- A number and what follows it. -/
def readNumber (t : Text) : Option (Json × Text) :=
  let (negative, body) := match t with
    | 45 :: rest => (true, rest)
    | _ => (false, t)
  (Decimal.scanLiteral body).map fun (l, rest) =>
    (.number (if negative then - l.toFloat else l.toFloat), rest)

mutual

/-- A value and what follows it. -/
def readValue : Nat → Text → Option (Json × Text)
  | 0, _ => none
  | n + 1, t =>
    match skipBlanks t with
    | 34 :: rest => (readQuoted rest).map fun (s, rest) => (.text s, rest)
    | 91 :: rest =>
      match skipBlanks rest with
      | 93 :: rest => some (.list [], rest)
      | rest => (readItems n rest).map fun (xs, rest) => (.list xs, rest)
    | 123 :: rest =>
      match skipBlanks rest with
      | 125 :: rest => some (.object [], rest)
      | rest => (readMembers n rest).map fun (ms, rest) => (.object ms, rest)
    | t =>
      ((expect? "null" t).map (Json.null, ·))
        <|> ((expect? "true" t).map (Json.bool true, ·))
        <|> ((expect? "false" t).map (Json.bool false, ·))
        <|> readNumber t

/-- The items of a list up to its closing bracket. -/
def readItems : Nat → Text → Option (List Json × Text)
  | 0, _ => none
  | n + 1, t => do
    let (x, rest) ← readValue n t
    match skipBlanks rest with
    | 44 :: rest =>
      let (xs, rest) ← readItems n rest
      some (x :: xs, rest)
    | 93 :: rest => some ([x], rest)
    | _ => none

/-- The members of an object up to its closing brace. -/
def readMembers : Nat → Text → Option (List (Text × Json) × Text)
  | 0, _ => none
  | n + 1, t => do
    let rest ← expect? [34] (skipBlanks t)
    let (key, rest) ← readQuoted rest
    let rest ← expect? [58] (skipBlanks rest)
    let (x, rest) ← readValue n rest
    match skipBlanks rest with
    | 44 :: rest =>
      let (ms, rest) ← readMembers n rest
      some ((key, x) :: ms, rest)
    | 125 :: rest => some ([(key, x)], rest)
    | _ => none

end

/-- The value that a whole text denotes. -/
def read (t : Text) : Option Json :=
  match readValue (t.length + 1) t with
  | some (j, rest) => if (skipBlanks rest).isEmpty then some j else none
  | none => none

end EvalPlan.Json

import EvalPlan.Yaml.Scalar

/-!
# YAML tokens

The marks and scalars that a text consists of. Every unit of the text belongs to exactly one token,
so that a token's place is the sum of the lengths before it.

Where a line is indented decides whether a scalar goes on in it: a scanner carries the least
indentation of the lines that belong to the innermost block, and how many brackets are open.
-/

namespace EvalPlan.Yaml

/-- What a token is. -/
inductive Kind
  /-- A document begins here. -/
  | opening
  /-- The open brackets end here, because a line is not indented enough. -/
  | breach
  /-- A plain scalar. -/
  | plain
  /-- A quoted scalar with its marks. -/
  | quoted
  /-- The line `---`. -/
  | documentStart
  /-- The line `...`. -/
  | documentEnd
  /-- The end of a line. -/
  | newline
  /-- The dash before an item. -/
  | dash
  /-- The mark before a key. -/
  | query
  /-- The colon before a value. -/
  | colon
  /-- An opening brace. -/
  | mapOpen
  /-- A closing brace. -/
  | mapClose
  /-- An opening bracket. -/
  | listOpen
  /-- A closing bracket. -/
  | listClose
  /-- A comma. -/
  | comma
  /-- Blanks. -/
  | space
  /-- A comment. -/
  | comment
  /-- A directive. -/
  | directive
  /-- The mark of byte order. -/
  | byteOrderMark
  /-- A form that this reader does not know. -/
  | foreign
deriving DecidableEq, Inhabited

/-- A token. -/
structure Token where
  /-- What it is. -/
  kind : Kind
  /-- Its units. -/
  text : Text

/-- A gap, or the end of the text, stands here. -/
def isGap (u : Option CodeUnit) : Bool :=
  match u with
  | none => true
  | some u => isBlank u || u = Text.lineFeed || u = Text.carriageReturn

/-- A unit that opens, closes or separates within brackets. -/
def isFlowMark (u : CodeUnit) : Bool := u = Text.comma || u = 91 || u = 93 || u = 123 || u = 125

/-- The unit exists and opens, closes or separates within brackets. -/
def isFlowMark? (u : Option CodeUnit) : Bool := u.any isFlowMark

/-- A text that is being taken apart. -/
structure Scanner where
  /-- The text. -/
  buffer : Array CodeUnit
  /-- The place that was reached. -/
  place : Nat
  /-- The least indentation of further lines of the innermost block. -/
  least : Nat
  /-- The indentation of the line, with the marks that open blocks in it. -/
  indent : Nat
  /-- The number of open brackets. -/
  depth : Nat
  /-- What was scanned last can be a key whose colon touches its value. -/
  afterKey : Bool
  /-- The tokens so far, the last one first. -/
  tokens : List Token

/-- Where in a text a scanner stands. -/
inductive Phase
  /-- Outside of documents. -/
  | stream
  /-- Behind the indentation of a line. -/
  | document
  /-- Within brackets. -/
  | flow
deriving DecidableEq

namespace Scanner

/-- The unit at a distance from the place that was reached. -/
def ahead (s : Scanner) (n : Nat) : Option CodeUnit := s.buffer[s.place + n]?

/-- The units between two places. -/
def slice (s : Scanner) (first last : Nat) : Text := (s.buffer.extract first last).toList

/-- What a token of these units is, where units alone decide it. -/
def kindOf (t : Text) : Kind :=
  if t = "---" then .documentStart
  else if t = "..." then .documentEnd
  else match t with
    | [] => .newline
    | u :: rest =>
      if u = Text.lineFeed || u = Text.carriageReturn then .newline
      else if isBlank u then .space
      else if u = Text.hash then .comment
      else if u = 37 then .directive
      else if u = Text.quote || u = Text.apostrophe then .quoted
      else if u = Text.byteOrderMark then .byteOrderMark
      else if !rest.isEmpty then .foreign
      else if u = Text.hyphen then .dash
      else if u = 63 then .query
      else if u = Text.colon then .colon
      else if u = 123 then .mapOpen
      else if u = 125 then .mapClose
      else if u = 91 then .listOpen
      else if u = 93 then .listClose
      else if u = Text.comma then .comma
      else .foreign

/-- Adds a token. -/
def emit (s : Scanner) (kind : Kind) (t : Text) : Scanner :=
  { s with place := s.place + t.length, tokens := ⟨kind, t⟩ :: s.tokens }

/-- Takes a number of units as a token, if they are any. -/
def take (s : Scanner) (n : Nat) : Scanner :=
  let t := s.slice s.place (s.place + n)
  if t.isEmpty then s else s.emit (kindOf t) t

/-- The number of units from a place on that satisfy a test; the first number bounds them. -/
def runLength (buffer : Array CodeUnit) (p : CodeUnit → Bool) : Nat → Nat → Nat
  | 0, _ => 0
  | n + 1, i => if buffer[i]?.any p then runLength buffer p n (i + 1) + 1 else 0

/-- The number of units ahead that satisfy a test. -/
def run (s : Scanner) (p : CodeUnit → Bool) : Nat := runLength s.buffer p (s.buffer.size - s.place) s.place

/-- Takes blanks, with or without tabs; answers how many. -/
def takeBlanks (s : Scanner) (tabs : Bool) : Nat × Scanner :=
  let n := s.run fun u => u = Text.space || (tabs && u = Text.tab)
  (n, s.take n)

/-- The number of units up to the end of the line. -/
def lineLength (s : Scanner) : Nat :=
  let n := s.run (· ≠ Text.lineFeed)
  if 0 < n && s.ahead n == some Text.lineFeed && s.ahead (n - 1) == some Text.carriageReturn then n - 1
  else n

/-- Takes the end of a line, if it stands here; says whether it did. -/
def takeLineEnd (s : Scanner) : Bool × Scanner :=
  if s.ahead 0 == some Text.lineFeed then (true, s.take 1)
  else if s.ahead 0 == some Text.carriageReturn && s.ahead 1 == some Text.lineFeed then (true, s.take 2)
  else (false, s)

/-- The unit at a distance, if it belongs to the line. -/
def inLine (s : Scanner) (n : Nat) : Option CodeUnit := if n < s.lineLength then s.ahead n else none

/-- The marker `---` or `...` stands at a place with a gap behind it. -/
def isMarkerAt (s : Scanner) (i : Nat) : Bool :=
  let t := s.slice i (i + 3)
  (t = "---" || t = "...") && isGap s.buffer[i + 3]?

/-- The place from which a scalar goes on in the line that begins at a place, if it does. -/
def continued? (s : Scanner) (i : Nat) : Option Nat :=
  if 0 < s.least then
    let n := runLength s.buffer (· = Text.space) (s.buffer.size - i) i
    let u := s.buffer[i + n]?
    if u == some Text.carriageReturn && s.buffer[i + n + 1]? == some Text.lineFeed then some (i + n + 1)
    else if u == some Text.lineFeed || s.least ≤ n then some (i + n)
    else none
  else if s.isMarkerAt i then none
  else some i

/-! ### Marks -/

/-- Takes the marks that open blocks; answers how many units they are. The first number bounds
them. -/
def takeIndicators : Nat → Scanner → Nat × Scanner
  | 0, s => (0, s)
  | n + 1, s =>
    match s.ahead 0 with
    | some u =>
      if u = Text.hyphen || u = 63 || u = Text.colon then
        if isGap (s.ahead 1) || (0 < s.depth && isFlowMark? (s.ahead 1)) then
          let s := if s.depth = 0 then { s with least := s.indent + 1 } else { s with afterKey := false }
          let (blanks, s) := (s.take 1).takeBlanks true
          let (more, s) := takeIndicators n s
          (1 + blanks + more, s)
        else (0, s)
      else (0, s)
    | none => (0, s)

/-- Takes the marks at the beginning of a line that open blocks, each of which moves the
indentation. The number bounds them. -/
def takeBlockMarks : Nat → Scanner → Scanner
  | 0, s => s
  | n + 1, s =>
    match s.ahead 0 with
    | some u =>
      if (u = Text.hyphen || u = 63 || u = Text.colon) && isGap (s.ahead 1) then
        let (blanks, next) := (s.take 1).takeBlanks true
        takeBlockMarks n { next with least := s.indent + 1, indent := s.indent + 1 + blanks }
      else s
    | none => s

/-- Scans the beginning of a line. -/
def lineStart (s : Scanner) : Scanner × Phase :=
  if s.isMarkerAt s.place then
    let isStart := s.ahead 0 == some Text.hyphen
    ({ s.take 3 with indent := 0, least := 0 }, if isStart then .document else .stream)
  else
    let (n, s) := s.takeBlanks false
    let least := if n < s.least && !isGap (s.ahead 1) then n else s.least
    (takeBlockMarks s.buffer.size { s with indent := n, least }, .document)

/-! ### Scalars -/

/-- The place behind the mark that closes an apostrophe's text, from a place within it on. -/
def closingApostrophe (buffer : Array CodeUnit) : Nat → Nat → Option Nat
  | 0, _ => none
  | n + 1, i =>
    match buffer[i]? with
    | none => none
    | some u =>
      if u = Text.apostrophe then
        if buffer[i + 1]? == some Text.apostrophe then closingApostrophe buffer n (i + 2) else some i
      else closingApostrophe buffer n (i + 1)

/-- The place of the mark that closes a quotation, from a place within it on; `escaped` says that
the unit before it is a backslash that counts. -/
def closingQuote (buffer : Array CodeUnit) : Nat → Bool → Nat → Option Nat
  | 0, _, _ => none
  | n + 1, escaped, i =>
    match buffer[i]? with
    | none => none
    | some u =>
      if u = Text.quote && !escaped then some i
      else closingQuote buffer n (u = Text.backslash && !escaped) (i + 1)

/-- The first line end between two places behind which the scalar does not go on. -/
def firstBreach (s : Scanner) (last : Nat) : Nat → Nat → Option Nat
  | 0, _ => none
  | n + 1, i =>
    if last ≤ i then none
    else if s.buffer[i]? == some Text.lineFeed then
      match s.continued? (i + 1) with
      | none => some i
      | some next => firstBreach s last n next
    else firstBreach s last n (i + 1)

/-- The place behind a quoted scalar. One that reaches a line that is not indented enough ends
before it, and one that is not closed ends with the text. -/
def quotedEnd (s : Scanner) : Nat :=
  let size := s.buffer.size
  let closing := if s.ahead 0 == some Text.apostrophe then closingApostrophe s.buffer size (s.place + 1)
    else closingQuote s.buffer size false (s.place + 1)
  match closing with
  | none => size
  | some mark =>
    match s.firstBreach mark size s.place with
    | none => mark + 1
    | some i => if s.buffer[i - 1]? == some Text.carriageReturn then i - 1 else i

/-- Scans a quoted scalar. -/
def takeQuoted (s : Scanner) : Scanner := s.emit .quoted (s.slice s.place s.quotedEnd)

/-- The place behind a plain scalar, from a place within it on; `last` is the place behind the last
unit that belongs to it. The first number bounds the units. -/
def plainEnd (s : Scanner) : Nat → Nat → Nat → Nat
  | 0, last, _ => last
  | n + 1, last, i =>
    let inFlow := 0 < s.depth
    match s.buffer[i]? with
    | none => last
    | some u =>
      let next := s.buffer[i + 1]?
      if u = Text.colon then
        if isGap next || (inFlow && isFlowMark? next) then last else plainEnd s n (i + 1) (i + 1)
      else if isGap (some u) then
        let isReturn := u = Text.carriageReturn
        let pair := isReturn && next == some Text.lineFeed
        let i := if pair then i + 1 else i
        let last := if isReturn && !pair then i + 1 else last
        let next := s.buffer[i + 1]?
        if next == some Text.hash || (inFlow && isFlowMark? next) then last
        else if pair || u = Text.lineFeed then
          match s.continued? (i + 1) with
          | none => last
          | some start => plainEnd s n last (max i (start - 2) + 1)
        else plainEnd s n last (i + 1)
      else if inFlow && isFlowMark u then last
      else plainEnd s n (i + 1) (i + 1)

/-- Scans a plain scalar, which may be empty. -/
def takePlain (s : Scanner) : Scanner :=
  s.emit .plain (s.slice s.place (plainEnd s s.buffer.size s.place s.place))

/-! ### Phases -/

/-- Scans outside of documents: directives, comments, or the beginning of a document. -/
def stream (s : Scanner) : Scanner × Phase :=
  let s := if s.ahead 0 == some Text.byteOrderMark then s.take 1 else s
  if s.ahead 0 == some 37 then ((s.take s.lineLength).takeLineEnd.2, .stream)
  else
    let blanks := s.run isBlank
    let u := s.inLine blanks
    if u.isNone || u == some Text.hash then
      let s := (s.takeBlanks true).2
      ((s.take s.lineLength).takeLineEnd.2, .stream)
    else (s.emit .opening []).lineStart

/-- Scans within a document. -/
def document (s : Scanner) : Scanner × Phase :=
  let s := (s.takeBlanks true).2
  let (_, s) := takeIndicators s.buffer.size s
  match s.inLine 0 with
  | none => s.takeLineEnd.2.lineStart
  | some u =>
    if u = Text.hash then (s.take s.lineLength).takeLineEnd.2.lineStart
    else if u = 91 || u = 123 then ({ s.take 1 with afterKey := false, depth := 1 }, .flow)
    else if u = 93 || u = 125 then (s.take 1, .document)
    else if u = Text.quote || u = Text.apostrophe then (s.takeQuoted, .document)
    else if u = 42 || u = 38 || u = 33 || u = 124 || u = 62 then (s.emit .foreign [u], .document)
    else (s.takePlain, .document)

/-- Takes line ends and blanks; answers the indentation of the line that was begun, if one was. The
number bounds the line ends. -/
def takeGaps : Nat → Option Nat → Scanner → Option Nat × Scanner
  | 0, indent, s => (indent, s)
  | n + 1, indent, s =>
    match s.takeLineEnd with
    | (true, s) =>
      let (blanks, s) := s.takeBlanks false
      takeGaps n (some blanks) { (s.takeBlanks true).2 with indent := blanks }
    | (false, s) =>
      match s.takeBlanks true with
      | (0, s) => (indent, s)
      | (_, s) => takeGaps n indent s

/-- Takes commas with the blanks behind them; the number bounds them. -/
def takeCommas : Nat → Scanner → Scanner
  | 0, s => s
  | n + 1, s =>
    if s.inLine 0 == some Text.comma then
      takeCommas n { ((s.take 1).takeBlanks true).2 with afterKey := false }
    else s

/-- The line within brackets is not indented enough. Only the bracket that closes the outermost
one may stand right below the block. -/
def isBreach (s : Scanner) (indent : Option Nat) : Bool :=
  match indent with
  | none => false
  | some n =>
    let u := s.inLine 0
    ((n < s.least && u != some Text.hash) || (n = 0 && s.isMarkerAt s.place))
      && !(n + 1 = s.least && s.depth = 1 && (u == some 93 || u == some 125))

/-- Scans within brackets. -/
def flow (s : Scanner) : Scanner × Phase :=
  let (indent, s) := takeGaps (s.buffer.size + 1) none s
  if s.isBreach indent then ({ s with depth := 0 }.emit .breach []).lineStart
  else
    let s := takeCommas s.buffer.size s
    let (_, s) := takeIndicators s.buffer.size s
    match s.inLine 0 with
    | none => (s, .flow)
    | some u =>
      if u = Text.hash then (s.take s.lineLength, .flow)
      else if u = 91 || u = 123 then ({ s.take 1 with afterKey := false, depth := s.depth + 1 }, .flow)
      else if u = 93 || u = 125 then
        ({ s.take 1 with afterKey := true, depth := s.depth - 1 }, if s.depth ≤ 1 then .document else .flow)
      else if u = Text.quote || u = Text.apostrophe then ({ s.takeQuoted with afterKey := true }, .flow)
      else if u = 42 || u = 38 || u = 33 then (s.emit .foreign [u], .flow)
      else if u = Text.colon && (s.afterKey || isGap (s.ahead 1) || s.ahead 1 == some Text.comma) then
        ({ ((s.take 1).takeBlanks true).2 with afterKey := false }, .flow)
      else ({ s with afterKey := false }.takePlain, .flow)

/-- Scans from a phase to the end of the text; the number bounds the steps. -/
def scan : Nat → Phase → Scanner → Scanner
  | 0, _, s => s
  | n + 1, phase, s =>
    if s.buffer.size ≤ s.place then s
    else
      let (s, phase) := match phase with
        | .stream => s.stream
        | .document => s.document
        | .flow => s.flow
      scan n phase s

end Scanner

/-- The tokens of a text. -/
def tokens (t : Text) : List Token :=
  let s : Scanner :=
    { buffer := t.toArray, place := 0, least := 0, indent := 0, depth := 0, afterKey := false, tokens := [] }
  (s.scan (4 * t.length + 8) .stream).tokens.reverse

end EvalPlan.Yaml

import EvalPlan.Table
import EvalPlan.Yaml.Tree

/-!
# YAML documents

A reader for the part of YAML that configuration files use: block mappings and sequences, flow
collections, comments, plain and quoted scalars, and one document with an optional `---` before it.

The tree of a text is read as a value. Reading fails where a token stands that does not belong
there: a comment without a gap before it, a tab where a block is indented, a key that goes on over
lines, an item that is not in the column of its block. A mapping whose key comes twice fails too;
two keys are the same when they are the same scalar, whatever their texts are.
-/

namespace EvalPlan.Yaml

/-! ### What stands around the parts of a tree -/

/-- Where tokens stand that surround a part. -/
structure Site where
  /-- Within brackets. -/
  flow : Bool
  /-- The mark that may come among them. -/
  indicator : Kind
  /-- The part that comes next. -/
  next : Option Tree
  /-- The place where they begin. -/
  place : Nat
  /-- The indentation of the collection. -/
  indent : Nat
  /-- They begin where a line begins. -/
  atLineStart : Bool

/-- What the tokens around a part are. -/
structure Surroundings where
  /-- The comma among them. -/
  comma : Bool
  /-- The mark among them. -/
  found : Option Mark
  /-- A line ends among them. -/
  hasLineEnd : Bool
  /-- A comment is among them. -/
  hasComment : Bool
  /-- The place behind them. -/
  stop : Nat
  /-- Nothing but gaps came since the line began. -/
  atLineStart : Bool
  /-- A gap stands at the end. -/
  hasGap : Bool
  /-- The blanks with a tab that stand at the end. -/
  tab : Option Mark

/-- The surroundings before the first token. -/
def Site.empty (s : Site) : Surroundings :=
  { comma := false, found := none, hasLineEnd := false, hasComment := false, stop := s.place
    atLineStart := s.atLineStart, hasGap := s.atLineStart, tab := none }

/-- The next part is a collection in brackets. -/
def Site.beforeFlow (s : Site) : Bool :=
  match s.next with
  | some (.flow _ _ _) => true
  | _ => false

/-- The surroundings with one token more, if it may stand there. -/
def Site.add (s : Site) (r : Surroundings) (m : Mark) : Option Surroundings :=
  if r.tab.isSome && r.atLineStart && m.kind ≠ .comment && m.kind ≠ .newline then none
  else
    let r := { r with tab := none, stop := m.place + m.text.length }
    if m.kind = .space then
      let counts := !s.flow && !(s.indicator = .documentStart && s.beforeFlow) && m.text.contains Text.tab
      some { r with hasGap := true, tab := if counts then some m else none }
    else if m.kind = .comment then
      if r.hasGap then some { r with hasComment := true, atLineStart := false } else none
    else if m.kind = .newline then
      some { r with atLineStart := true, hasLineEnd := true, hasGap := true }
    else if m.kind = s.indicator then
      if r.found.isSome then none
      else
        some { r with
          found := some m, hasGap := false
          atLineStart := s.indicator = .dash || s.indicator = .query }
    else if m.kind = .comma && s.flow && !r.comma then
      some { r with comma := true, atLineStart := false, hasGap := false }
    else none

/-- What tokens are, if they may stand where they are. Blanks with a tab must not indent a block. -/
def Site.read (s : Site) (ms : List Mark) : Option Surroundings := do
  let r ← ms.foldlM s.add s.empty
  match r.tab with
  | some tab =>
    if (r.atLineStart && tab.indent ≤ s.indent) || s.next.any Tree.isBlock then none else some r
  | none => some r

/-- The place behind tokens at the end of a part, if nothing but gaps and comments are there. -/
def readTail (needsGap : Bool) : Bool → Nat → List Mark → Option Nat
  | _, place, [] => some place
  | hasGap, place, m :: rest =>
    let next := place + m.text.length
    if m.kind = .space || m.kind = .newline then readTail needsGap true next rest
    else if m.kind = .comment && (hasGap || !needsGap) then readTail needsGap hasGap next rest
    else none

/-- The blanks, comments and line ends at the end of tokens, and what stands before them, the last
one first. -/
def splitGaps (ms : List Mark) : List Mark × List Mark :=
  ms.reverse.span fun m => m.kind = .space || m.kind = .comment || m.kind = .newline

/-- The place of a part that is left out: behind the last mark before it and the blanks there. -/
def missingPlace (place : Nat) (before : List Mark) : Nat :=
  let (gaps, kept) := splitGaps before
  let length (ms : List Mark) : Nat := ms.foldl (fun n m => n + m.text.length) 0
  let start := place - length gaps
  if kept.isEmpty then start else start + length (gaps.reverse.takeWhile fun m => m.kind = .space)

/-- The place behind a part that is left out. -/
def missingStop (r : Surroundings) (before : List Mark) : Nat :=
  if r.hasComment then r.stop else missingPlace r.stop before

/-! ### Values -/

/-- A line ends within a part. The number bounds the nesting. -/
def hasLineEnd : Nat → Tree → Bool
  | 0, _ => true
  | n + 1, t =>
    let any (ms : List Mark) : Bool := ms.any fun m => m.kind = .newline
    match t with
    | .scalar token tail => token.text.contains Text.lineFeed || any (tail.getD [])
    | .flow _ items _ => items.any fun item =>
      any item.start || any (item.between.getD []) || item.key.any (hasLineEnd n)
        || item.value.any (hasLineEnd n)
    | _ => true

/-- How far a key may be from its colon. -/
def keyLimit : Nat := 1024

/-- The value of a scalar and the place behind it. -/
def scalarValue (token : Mark) (tail : Option (List Mark)) : Option (Json × Nat) := do
  let v ← if token.kind = .quoted then (quoted? token.text).map Json.text
    else if token.text.head?.any isReserved then none
    else some (plain (fold token.text))
  let stop ← readTail true false (token.place + token.text.length) (tail.getD [])
  some (v, stop)

/-- The rows of a mapping so far, with the place behind them and that behind what follows the last
one. -/
structure Rows where
  /-- The rows, the last one first. -/
  rows : List (Json × Json)
  /-- The place behind the rows. -/
  place : Nat
  /-- The place behind comments that follow the rows. -/
  commentStop : Option Nat

/-- The rows with one more; a key may come only once. -/
def Rows.add (r : Rows) (key value : Json) (place : Nat) : Option Rows :=
  if r.rows.any fun row => sameKey row.1 key then none
  else some { r with rows := (key, value) :: r.rows, place }

/-- The object of rows. Where keys have the same text, the last one counts. -/
def Rows.toJson (r : Rows) : Json :=
  .object (r.rows.reverse.foldl (fun (o : Table Text Json) row => o.put (keyText row.1) row.2) [])

/-- The value of a part that may be left out, and the place behind it. -/
def valueOr (value : Tree → Option (Json × Nat)) (r : Surroundings) (before : List Mark) (t : Option Tree) :
    Option (Json × Nat) :=
  match t with
  | some t => value t
  | none => some (.null, missingStop r before)

/-- One row of a mapping of a block. -/
def blockRow (n : Nat) (value : Tree → Option (Json × Nat)) (indent : Nat) (r : Rows) (item : Item) :
    Option Rows := do
  let before ← Site.read ⟨false, .query, item.key, r.place, indent, true⟩ item.start
  let between ← match before.found, item.between with
    | none, none => return { r with commentStop := some before.stop }
    | none, some between =>
      if item.key.any (fun key => key.indent ≠ indent || hasLineEnd n key) then none else some between
    | some mark, between => if mark.indent = indent then some (between.getD []) else none
  let (key, stop) ← valueOr value before item.start item.key
  let behind ← Site.read ⟨false, .colon, item.value, stop, indent, item.key.isNone⟩ between
  match behind.found with
  | none => if before.found.isNone then none else r.add key .null behind.stop
  | some colon =>
    let isMapping := match item.value with
      | some (.mapping _ _ _) => true
      | _ => false
    if before.found.isNone && ((isMapping && !behind.hasLineEnd) || before.stop + keyLimit < colon.place) then none
    else
      let (v, stop) ← valueOr value behind between item.value
      r.add key v stop

/-- The items of a sequence of a block, with the place behind them and behind comments. -/
def blockItem (value : Tree → Option (Json × Nat)) (indent : Nat) (r : List Json × Nat × Option Nat)
    (item : Item) : Option (List Json × Nat × Option Nat) := do
  let (xs, place, commentStop) := r
  let before ← Site.read ⟨false, .dash, item.value, place, indent, true⟩ item.start
  match before.found, item.value with
  | none, none => some (xs, place, some before.stop)
  | none, some _ => none
  | some _, v =>
    let (x, stop) ← valueOr value before item.start v
    some (x :: xs, stop, commentStop)

/-- The items of a collection in brackets so far. -/
structure FlowItems where
  /-- The rows of a mapping. -/
  rows : Rows
  /-- The items of a list, the last one first. -/
  items : List Json
  /-- How many items were read. -/
  count : Nat

/-- A pair of a collection in brackets: its key, its value and the place behind it. -/
def flowPair (n : Nat) (value : Tree → Option (Json × Nat)) (isMap : Bool) (before : Surroundings) (item : Item) :
    Option (Json × Json × Nat) := do
  let (key, stop) ← valueOr value before item.start item.key
  let between := item.between.getD []
  let behind ← Site.read ⟨true, .colon, item.value, stop, 0, false⟩ between
  let implicit := !isMap && before.found.isNone
  match behind.found with
  | some colon =>
    let broken := item.key.any (hasLineEnd n)
      || (between.takeWhile fun m => m.kind ≠ .colon).any fun m => m.kind = .newline
    if implicit && (broken || before.stop + keyLimit < colon.place) then none
    else
      let (v, stop) ← valueOr value behind between item.value
      some (key, v, stop)
  | none =>
    if item.value.isSome || (implicit && item.key.any (hasLineEnd n)) then none
    else some (key, .null, behind.stop)

/-- One item of a collection in brackets. -/
def flowItem (n : Nat) (value : Tree → Option (Json × Nat)) (isMap : Bool) (total : Nat) (r : FlowItems)
    (item : Item) : Option FlowItems := do
  let next := match item.key with
    | some key => some key
    | none => item.value
  let before ← Site.read ⟨true, .query, next, r.rows.place, 0, false⟩ item.start
  let isVoid := before.found.isNone && item.between.isNone && item.value.isNone
  if isVoid then
    if (r.count = 0 && before.comma) || (0 < r.count && r.count + 1 < total) || (r.count = 0 && 1 < total) then none
    else some { r with rows := { r.rows with place := before.stop }, count := r.count + 1 }
  else if before.comma = (r.count = 0) || item.key.any Tree.isBlock || item.value.any Tree.isBlock then none
  else if !isMap && item.between.isNone && before.found.isNone then
    let (x, stop) ← valueOr value before item.start item.value
    some { r with items := x :: r.items, rows := { r.rows with place := stop }, count := r.count + 1 }
  else
    let (key, v, stop) ← flowPair n value isMap before item
    if isMap then
      let rows ← r.rows.add key v stop
      some { r with rows, count := r.count + 1 }
    else
      some { r with
        items := .object [(keyText key, v)] :: r.items
        rows := { r.rows with place := stop }
        count := r.count + 1 }

/-- The value of a part and the place behind it; the number bounds the nesting. -/
def value : Nat → Tree → Option (Json × Nat)
  | 0, _ => none
  | n + 1, t =>
    match t with
    | .scalar token tail => scalarValue token tail
    | .mapping indent place items => do
      let r ← items.reverse.foldlM (blockRow n (value n) indent) ⟨[], place, none⟩
      if r.commentStop.any (· < r.place) then none else some (r.toJson, r.commentStop.getD r.place)
    | .sequence indent place items => do
      let (xs, place, commentStop) ← items.reverse.foldlM (blockItem (value n) indent) ([], place, none)
      some (.list xs.reverse, commentStop.getD place)
    | .flow bracket items tail => do
      let isMap := bracket.kind = .mapOpen
      let r ← items.reverse.foldlM (flowItem n (value n) isMap items.length)
        ⟨⟨[], bracket.place + 1, none⟩, [], 0⟩
      match tail with
      | [] => none
      | closing :: tail =>
        if closing.kind = (if isMap then .mapClose else .listClose) then
          let stop ← readTail true false (closing.place + 1) tail
          some (if isMap then r.rows.toJson else .list r.items.reverse, stop)
        else none

/-! ### Documents -/

/-- The value of a document. A block cannot begin in the line of the marker. -/
def Document.value (n : Nat) (d : Document) : Option Json := do
  let before ← Site.read ⟨false, .documentStart, d.content, d.place, 0, true⟩ d.start
  if before.found.isSome && !before.hasLineEnd && d.content.any Tree.isBlock then none
  else
    let (v, stop) ← valueOr (Yaml.value n) before d.start d.content
    let _ ← readTail false false stop d.tail
    some v

/-- The value of a text. -/
def read (t : Text) : Option Json := do
  let ts := tokens t
  let b ← Builder.empty.addAll ts
  if b.endings.all fun tail => (readTail true false 0 tail).isSome then
    match b.documents with
    | [] => if b.directives then none else some .null
    | [d] =>
      if b.directives && !d.start.any (fun m => m.kind = .documentStart) then none
      else d.value (ts.length + 1)
    | _ => none
  else none

end EvalPlan.Yaml

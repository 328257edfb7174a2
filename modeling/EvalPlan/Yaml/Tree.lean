import EvalPlan.Yaml.Token

/-!
# YAML trees

What the tokens of a text form: scalars, mappings and sequences of blocks, and collections in
brackets, each with the tokens that stand around its parts. Whether these tokens are allowed where
they stand is decided when a tree is read as a value.

A tree is built by a stack of unfinished parts. Each token either belongs to the part on top, or
finishes it, or begins a new one; the indentation of its line decides which.
-/

namespace EvalPlan.Yaml

/-- A token that stands around a part of a tree, with its place and the indentation of its line. -/
structure Mark where
  /-- What it is. -/
  kind : Kind
  /-- The indentation. -/
  indent : Nat
  /-- The place. -/
  place : Nat
  /-- Its units. -/
  text : Text
deriving Inhabited

mutual

/-- A part of a document. The items of a collection are listed with the last one first. -/
inductive Tree
  /-- A scalar, with what stands behind it in its line, if anything does. -/
  | scalar (token : Mark) (tail : Option (List Mark))
  /-- A mapping of a block. -/
  | mapping (indent place : Nat) (items : List Item)
  /-- A sequence of a block. -/
  | sequence (indent place : Nat) (items : List Item)
  /-- A collection in brackets, with the closing one and what stands behind it. -/
  | flow (bracket : Mark) (items : List Item) (tail : List Mark)

/-- An item: what stands before its key, whether the key is marked, the key, what stands between it
and its value, and the value. -/
inductive Item
  /-- An item. -/
  | mk (start : List Mark) (marked : Bool) (key : Option Tree) (between : Option (List Mark))
      (value : Option Tree)

end

namespace Item

/-- An item of which only the beginning is there. -/
def opened (start : List Mark) : Item := ⟨start, false, none, none, none⟩

/-- An item with its key. -/
def keyed (start : List Mark) (key : Tree) : Item := ⟨start, false, some key, some [], none⟩

/-- An item whose key is left out, with the colon. -/
def unkeyed (start : List Mark) (colon : Mark) : Item := ⟨start, false, none, some [colon], none⟩

/-- What stands before the key. -/
def start : Item → List Mark
  | mk start _ _ _ _ => start

/-- The key is marked. -/
def marked : Item → Bool
  | mk _ marked _ _ _ => marked

/-- The key. -/
def key : Item → Option Tree
  | mk _ _ key _ _ => key

/-- What stands between key and value. -/
def between : Item → Option (List Mark)
  | mk _ _ _ between _ => between

/-- The value. -/
def value : Item → Option Tree
  | mk _ _ _ _ value => value

/-- The item with a token more before its key. -/
def addStart (item : Item) (m : Mark) : Item :=
  ⟨item.start ++ [m], item.marked, item.key, item.between, item.value⟩

/-- The item with a token more behind its key. -/
def addBetween (item : Item) (m : Mark) : Item :=
  ⟨item.start, item.marked, item.key, some (item.between.getD [] ++ [m]), item.value⟩

/-- The item with its value. -/
def setValue (item : Item) (value : Tree) : Item :=
  ⟨item.start, item.marked, item.key, item.between, some value⟩

/-- The item with its key. -/
def setKey (item : Item) (key : Tree) : Item := ⟨item.start, item.marked, some key, some [], item.value⟩

/-- The item with a colon in place of its key. -/
def setColon (item : Item) (colon : Mark) : Item :=
  ⟨item.start, item.marked, none, some [colon], item.value⟩

/-- The item has neither key nor value, and nothing but gaps and comments before them. -/
def isVoid (item : Item) (indent : Nat) : Bool :=
  item.between.isNone && item.value.isNone && !item.start.isEmpty
    && (item.start.all fun m => m.kind = .space || m.kind = .comment || m.kind = .newline)
    && (indent = 0 || item.start.all fun m => m.kind ≠ .comment || m.indent < indent)

end Item

namespace Tree

/-- The indentation of the line that a part begins in. -/
def indent : Tree → Nat
  | scalar token _ => token.indent
  | mapping indent _ _ => indent
  | sequence indent _ _ => indent
  | flow bracket _ _ => bracket.indent

/-- The part is a mapping or sequence of a block. -/
def isBlock : Tree → Bool
  | mapping _ _ _ => true
  | sequence _ _ _ => true
  | _ => false

/-- The tokens behind the part in its line. -/
def tail? : Tree → Option (List Mark)
  | scalar _ tail => tail
  | flow _ _ tail => some tail
  | _ => none

/-- The part with tokens more behind it. -/
def addTail (t : Tree) (ms : List Mark) : Tree :=
  match t with
  | scalar token tail => scalar token (some (tail.getD [] ++ ms))
  | flow bracket items tail => flow bracket items (tail ++ ms)
  | t => t

/-- The value of an item in a list that has no colon stands in the place of a key until the list is
finished. -/
def settleItem (item : Item) : Item :=
  match item.between, item.value with
  | some between, none =>
    if (item.start.any (·.kind = .query)) || between.any (·.kind = .colon) then item
    else
      match item.key with
      | none => ⟨item.start ++ between, item.marked, none, none, none⟩
      | some key =>
        if key.isBlock then ⟨item.start ++ between, item.marked, none, none, some key⟩
        else ⟨item.start, item.marked, none, none, some (key.addTail between)⟩
  | _, _ => item

/-- A collection in brackets that is finished. -/
def settle (t : Tree) : Tree :=
  match t with
  | flow bracket items tail =>
    if bracket.kind = .listOpen then flow bracket (items.map settleItem) tail else t
  | t => t

end Tree

/-- An unfinished part. -/
inductive Frame
  /-- A document: what stands before its content, the content, and what stands behind it. -/
  | document (place : Nat) (start : List Mark) (content : Option Tree) (tail : List Mark)
  /-- The line that ends a document. -/
  | ending (tail : List Mark)
  /-- A part of a document. -/
  | part (t : Tree)

/-- A document. -/
structure Document where
  /-- Its place. -/
  place : Nat
  /-- What stands before its content. -/
  start : List Mark
  /-- Its content. -/
  content : Option Tree
  /-- What stands behind it. -/
  tail : List Mark

/-- A stack of unfinished parts, with what was finished so far. -/
structure Builder where
  /-- The unfinished parts, the innermost first. -/
  stack : List Frame
  /-- Nothing but blanks and marks that open blocks came in the line so far. -/
  atLineStart : Bool
  /-- The indentation of the line. -/
  indent : Nat
  /-- The line holds a key. -/
  onKeyLine : Bool
  /-- The place of the next token. -/
  place : Nat
  /-- The documents, the last one first. -/
  documents : List Document
  /-- A directive came. -/
  directives : Bool
  /-- What stands behind the lines that end documents. -/
  endings : List (List Mark)

namespace Builder

/-- The builder before the first token. -/
def empty : Builder :=
  { stack := [], atLineStart := true, indent := 0, onKeyLine := false, place := 0, documents := []
    directives := false, endings := [] }

/-- The builder with another part on top of the rest of the stack. -/
def withTop (b : Builder) (t : Tree) (rest : List Frame) : Builder := { b with stack := .part t :: rest }

/-- The builder with a part begun. -/
def push (b : Builder) (t : Tree) : Builder := { b with stack := .part t :: b.stack }

/-- A block without the last item where that holds nothing, and what that item holds. -/
def splitVoid (t : Tree) : Tree × Option (List Mark) :=
  match t with
  | .mapping indent place (last :: items) =>
    if last.isVoid indent then (.mapping indent place items, some last.start) else (t, none)
  | .sequence indent place (last :: items) =>
    if last.isVoid indent then (.sequence indent place items, some last.start) else (t, none)
  | t => (t, none)

/-- Puts a finished part into the part below it. -/
def attach (b : Builder) (t : Tree) (below : List Frame) : Option Builder :=
  let t := t.settle
  let (settled, rest) := splitVoid t
  match below with
  | .document place start _ tail :: below =>
    some { b with stack := .document place start (some settled) (rest.getD tail) :: below }
  | .part (.mapping indent place (last :: items)) :: below =>
    if last.value.isSome then
      some { b.withTop (.mapping indent place (.keyed [] t :: last :: items)) below with onKeyLine := true }
    else if last.between.isSome then
      let more : List Item := (rest.map Item.opened).toList
      some (b.withTop (.mapping indent place (more ++ last.setValue settled :: items)) below)
    else
      some { b.withTop (.mapping indent place (last.setKey t :: items)) below with onKeyLine := !last.marked }
  | .part (.sequence indent place (last :: items)) :: below =>
    let more : List Item := (rest.map Item.opened).toList
    if last.value.isSome then
      some (b.withTop (.sequence indent place (more ++ ⟨[], false, none, none, some settled⟩ :: last :: items)) below)
    else some (b.withTop (.sequence indent place (more ++ last.setValue settled :: items)) below)
  | .part (.flow bracket items tail) :: below =>
    match items with
    | [] => some (b.withTop (.flow bracket [.keyed [] t] tail) below)
    | last :: items =>
      if last.value.isSome then some (b.withTop (.flow bracket (.keyed [] t :: last :: items) tail) below)
      else if last.between.isSome then
        some (b.withTop (.flow bracket (last.setValue t :: items) tail) below)
      else some (b.withTop (.flow bracket (last.setKey t :: items) tail) below)
  | _ => none

/-- Finishes the part on top. -/
def pop (b : Builder) : Option Builder :=
  match b.stack with
  | [] => none
  | .document place start content tail :: rest =>
    some { b with stack := rest, documents := ⟨place, start, content, tail⟩ :: b.documents }
  | .ending tail :: rest => some { b with stack := rest, endings := tail :: b.endings }
  | .part t :: rest => b.attach t rest

/-- Finishes all parts; the number bounds them. -/
def popAll : Nat → Builder → Option Builder
  | 0, b => some b
  | n + 1, b => if b.stack.isEmpty then some b else b.pop.bind (popAll n)

/-- Finishes the brackets that a line ends which is not indented enough. -/
def popFlow : Nat → Builder → Option Builder
  | 0, _ => none
  | n + 1, b => do
    let b ← b.pop
    match b.stack with
    | .part (.flow _ _ _) :: _ => popFlow n b
    | _ => some b

/-- A value that begins with a token. -/
def begun? (m : Mark) : Option Tree :=
  match m.kind with
  | .plain => some (.scalar m none)
  | .quoted => some (.scalar m none)
  | .mapOpen => some (.flow m [] [])
  | .listOpen => some (.flow m [] [])
  | .dash => some (.sequence m.indent m.place [.opened [m]])
  | .query => some (.mapping m.indent m.place [⟨[m], true, none, none, none⟩])
  | .colon => some (.mapping m.indent m.place [.unkeyed [] m])
  | _ => none

/-- The builder after a value began with a token; a mark of a mapping makes the line hold a key. -/
def begin (b : Builder) (m : Mark) (t : Tree) : Builder :=
  { b.push t with onKeyLine := b.onKeyLine || m.kind = .query || m.kind = .colon }

/-- What a token does. -/
inductive Outcome
  /-- It belongs to what the builder now holds. -/
  | taken (b : Builder)
  /-- It belongs to what remains when the part on top is finished. -/
  | finishes (b : Builder)
  /-- It cannot stand here. -/
  | refused

/-- A token outside of documents. -/
def outside (b : Builder) (m : Mark) : Outcome :=
  match m.kind with
  | .directive => .taken { b with directives := true }
  | .byteOrderMark => .taken b
  | .space => .taken b
  | .comment => .taken b
  | .newline => .taken b
  | .opening => .taken { b with stack := [.document m.place [] none []] }
  | .documentStart => .taken { b with stack := [.document m.place [m] none []] }
  | _ => .refused

/-- The token finishes a part when it comes behind it in its line. -/
def endsPart (k : Kind) : Bool :=
  k = .comma || k = .documentStart || k = .documentEnd || k = .listClose || k = .mapClose || k = .colon

/-- A token behind a finished part in its line. -/
def behind (b : Builder) (m : Mark) (withTail : Builder) : Outcome :=
  if endsPart m.kind then .finishes b
  else if m.kind = .newline then
    match { withTail with onKeyLine := false }.pop with
    | some b => .taken b
    | none => .refused
  else .taken withTail

/-- A token at a document. -/
def atDocument (b : Builder) (m : Mark) (place : Nat) (start : List Mark) (content : Option Tree)
    (tail : List Mark) (rest : List Frame) : Outcome :=
  if content.isSome then
    b.behind m { b with stack := .document place start content (tail ++ [m]) :: rest }
  else if m.kind = .space || m.kind = .comment || m.kind = .newline then
    .taken { b with stack := .document place (start ++ [m]) content tail :: rest }
  else if m.kind = .documentStart then
    if start.all fun m => m.kind = .space || m.kind = .comment || m.kind = .newline then
      .taken { b with stack := .document place (start ++ [m]) content tail :: rest }
    else .finishes b
  else
    match begun? m with
    | some t => .taken (b.begin m t)
    | none => .refused

/-- A token at a scalar. A colon makes the scalar the first key of a mapping. -/
def atScalar (b : Builder) (m token : Mark) (tail : Option (List Mark)) (rest : List Frame) : Outcome :=
  if m.kind = .colon then
    let item : Item := ⟨[], false, some (.scalar token none), some (tail.getD [] ++ [m]), none⟩
    .taken { b.withTop (.mapping token.indent token.place [item]) rest with onKeyLine := true }
  else b.behind m (b.withTop (.scalar token (some (tail.getD [] ++ [m]))) rest)

/-- The items of a block after a comment that is indented more than the block came behind a value:
the comment belongs to that value. -/
def commentBehind? (indent : Nat) (m : Mark) (last : Item) (items : List Item) : Option (List Item) :=
  if m.kind = .comment && indent < m.indent && last.start.all fun m => m.kind = .newline || m.kind = .space then
    match items with
    | previous :: items =>
      match previous.value with
      | some v =>
        if v.tail?.isSome then some (previous.setValue (v.addTail (last.start ++ [m])) :: items) else none
      | none => none
    | [] => none
  else none

/-- The items of a block after a line end. -/
def lineEndItems (m : Mark) (last : Item) (items : List Item) : List Item :=
  match last.value with
  | some v =>
    if (v.tail?.bind List.getLast?).any (·.kind = .comment) then last.setValue (v.addTail [m]) :: items
    else .opened [m] :: last :: items
  | none => (if last.between.isSome then last.addBetween m else last.addStart m) :: items

/-- The items of a block after blanks or a comment. -/
def gapItems (indent : Nat) (m : Mark) (last : Item) (items : List Item) : List Item :=
  if last.value.isSome then .opened [m] :: last :: items
  else if last.between.isSome then last.addBetween m :: items
  else (commentBehind? indent m last items).getD (last.addStart m :: items)

/-- The places of the line ends behind a key that do not belong to its value; a comment that is
indented more than the block does. -/
def looseLineEnds (indent : Nat) : Nat → List Nat → List Mark → List Nat
  | _, acc, [] => acc
  | i, acc, m :: rest =>
    looseLineEnds indent (i + 1)
      (if m.kind = .newline then acc ++ [i]
        else if m.kind = .space then acc
        else if m.kind = .comment then if indent < m.indent then [] else acc
        else []) rest

/-- An item without value, without the empty lines before the next item, and these. -/
def splitLoose (indent : Nat) (last : Item) : Item × List Mark :=
  match last.between with
  | none => (last, [])
  | some between =>
    match looseLineEnds indent 0 [] between with
    | _ :: second :: _ =>
      (⟨last.start, last.marked, last.key, some (between.take second), last.value⟩, between.drop second)
    | _ => (last, [])

/-- A colon in a mapping of a block. -/
def colonInMapping (b : Builder) (m : Mark) (place : Nat) (next : Bool) (start : List Mark)
    (indent : Nat) (last : Item) (items : List Item) (rest : List Frame) : Builder :=
  let inner (start : List Mark) : Builder :=
    (b.withTop (.mapping indent place (last :: items)) rest).push
      (.mapping m.indent m.place [.unkeyed start m])
  let same (items : List Item) : Builder := b.withTop (.mapping indent place items) rest
  let hasColon := (last.between.getD []).any (·.kind = .colon)
  let hasLineEnd := (last.between.getD []).any (·.kind = .newline)
  if last.marked then
    if last.between.isNone then
      if last.start.any (·.kind = .newline) then same (last.setColon m :: items)
      else inner []
    else if last.value.isSome then same (.unkeyed [] m :: last :: items)
    else if hasColon then inner start
    else
      match last.key with
      | some key =>
        if !key.isBlock && !hasLineEnd then
          let kept : Item := ⟨last.start, true, none, none, none⟩
          let item : Item := ⟨[], false, some key, some (last.between.getD [] ++ [m]), none⟩
          (b.withTop (.mapping indent place (kept :: items)) rest).push (.mapping m.indent m.place [item])
        else same (⟨last.start, true, some key, some (last.between.getD [] ++ start ++ [m]), none⟩ :: items)
      | none => same (⟨last.start, true, none, some (last.between.getD [] ++ start ++ [m]), none⟩ :: items)
  else if last.between.isNone then same (last.setColon m :: items)
  else if last.value.isSome || next then same (.unkeyed start m :: last :: items)
  else if hasColon then inner []
  else same (last.addBetween m :: items)

/-- A token at a mapping of a block. -/
def atMapping (b : Builder) (m : Mark) (indent place : Nat) (last : Item) (items : List Item)
    (rest : List Frame) : Outcome :=
  let same (items : List Item) : Builder := b.withTop (.mapping indent place items) rest
  if m.kind = .newline then .taken { same (lineEndItems m last items) with onKeyLine := false }
  else if m.kind = .space || m.kind = .comment then .taken (same (gapItems indent m last items))
  else if b.indent < indent then .finishes b
  else
    let atIndent := !b.onKeyLine && b.indent = indent
    let next := atIndent && (last.between.isSome || last.marked) && m.kind ≠ .dash
    let (last, start) := if next && last.value.isNone then splitLoose indent last else (last, [])
    match m.kind with
    | .query =>
      if last.between.isNone && !last.marked then
        .taken { same (⟨last.start ++ [m], true, last.key, none, last.value⟩ :: items) with onKeyLine := true }
      else if next || last.value.isSome then
        .taken { same (⟨start ++ [m], true, none, none, none⟩ :: last :: items) with onKeyLine := true }
      else
        .taken { (same (last :: items)).push (.mapping m.indent m.place [⟨[m], true, none, none, none⟩]) with
          onKeyLine := true }
    | .colon => .taken { b.colonInMapping m place next start indent last items rest with onKeyLine := true }
    | _ =>
      match begun? m with
      | none => .finishes (same (last :: items))
      | some t =>
        if m.kind = .plain || m.kind = .quoted then
          if next || last.value.isSome then
            .taken { same (.keyed start t :: last :: items) with onKeyLine := true }
          else if last.between.isSome then .taken ((same (last :: items)).push t)
          else .taken { same (last.setKey t :: items) with onKeyLine := true }
        else if m.kind = .dash then
          if !last.marked && last.between.isSome && !(last.between.getD []).any (·.kind = .newline) then .refused
          else .taken ((same (last :: items)).push t)
        else if atIndent then .taken ((same (.opened start :: last :: items)).push t)
        else .taken ((same (last :: items)).push t)

/-- A token at a sequence of a block. -/
def atSequence (b : Builder) (m : Mark) (indent place : Nat) (last : Item) (items : List Item)
    (rest : List Frame) : Outcome :=
  let same (items : List Item) : Builder := b.withTop (.sequence indent place items) rest
  if m.kind = .newline then
    .taken (same (lineEndItems m ⟨last.start, last.marked, last.key, none, last.value⟩ items))
  else if m.kind = .space || m.kind = .comment then .taken (same (gapItems indent m last items))
  else if m.kind = .dash && b.indent = indent then
    if last.value.isSome || last.start.any (·.kind = .dash) then
      .taken (same (.opened [m] :: last :: items))
    else .taken (same (last.addStart m :: items))
  else if indent < b.indent then
    match begun? m with
    | some t => .taken (b.begin m t)
    | none => .finishes b
  else .finishes b

/-- A token within brackets. -/
def inFlow (b : Builder) (m bracket : Mark) (items : List Item) (rest : List Frame) : Outcome :=
  let same (items : List Item) : Outcome := .taken (b.withTop (.flow bracket items []) rest)
  let fresh (item : Item) : Outcome := same (item :: items)
  match m.kind, items with
  | .comma, last :: others => if last.between.isSome then fresh (.opened [m]) else same (last.addStart m :: others)
  | .comma, [] => fresh (.opened [m])
  | .query, last :: others => if last.between.isSome then fresh (.opened [m]) else same (last.addStart m :: others)
  | .query, [] => fresh (.opened [m])
  | .colon, last :: others =>
    if last.value.isSome then fresh (.unkeyed [] m)
    else if last.between.isSome then same (last.addBetween m :: others)
    else same (last.setColon m :: others)
  | .colon, [] => fresh (.unkeyed [] m)
  | .mapClose, _ => .taken (b.withTop (.flow bracket items [m]) rest)
  | .listClose, _ => .taken (b.withTop (.flow bracket items [m]) rest)
  | k, _ =>
    if k = .space || k = .comment || k = .newline then
      match items with
      | last :: others =>
        if last.value.isSome then fresh (.opened [m])
        else if last.between.isSome then same (last.addBetween m :: others)
        else same (last.addStart m :: others)
      | [] => fresh (.opened [m])
    else
      match begun? m with
      | none => .finishes b
      | some t =>
        if k = .plain || k = .quoted then
          match items with
          | last :: others =>
            if last.value.isSome then fresh (.keyed [] t)
            else if last.between.isSome then .taken (b.push t)
            else same (last.setKey t :: others)
          | [] => fresh (.keyed [] t)
        else .taken (b.push t)

/-- A token behind a closing bracket. -/
def behindFlow (b : Builder) (m bracket : Mark) (items : List Item) (tail : List Mark)
    (rest : List Frame) : Outcome :=
  let more := b.withTop (.flow bracket items (tail ++ [m])) rest
  match rest with
  | .part (.mapping indent _ (last :: _)) :: _ =>
    if (m.kind = .colon && indent = bracket.indent) || (m.kind = .newline && last.between.isNone) then
      .finishes b
    else if m.kind = .colon then becomesKey
    else b.behind m more
  | .part (.flow _ _ _) :: _ => b.behind m more
  | _ => if m.kind = .colon then becomesKey else b.behind m more
where
  /-- The collection is the first key of a mapping. -/
  becomesKey : Outcome :=
    let key := (Tree.flow bracket items (tail.take 1)).settle
    let item : Item := ⟨[], false, some key, some (tail.drop 1 ++ [m]), none⟩
    .taken { b.withTop (.mapping bracket.indent bracket.place [item]) rest with onKeyLine := true }

/-- What a token does at the part on top. -/
def outcome (b : Builder) (m : Mark) : Outcome :=
  match b.stack with
  | [] => b.outside m
  | .document place start content tail :: rest => b.atDocument m place start content tail rest
  | .ending tail :: rest =>
    if m.kind = .opening then .taken b
    else
      let b := { b with stack := .ending (tail ++ [m]) :: rest }
      if m.kind = .newline then
        match b.pop with
        | some b => .taken b
        | none => .refused
      else .taken b
  | .part (.scalar token tail) :: rest => b.atScalar m token tail rest
  | .part (.mapping indent place (last :: items)) :: rest => b.atMapping m indent place last items rest
  | .part (.sequence indent place (last :: items)) :: rest => b.atSequence m indent place last items rest
  | .part (.flow bracket items []) :: rest => b.inFlow m bracket items rest
  | .part (.flow bracket items tail) :: rest => b.behindFlow m bracket items tail rest
  | .part _ :: _ => .refused

/-- Gives a token to the parts on the stack until one takes it; the number bounds the parts. -/
def step : Nat → Builder → Mark → Option Builder
  | 0, _, _ => none
  | n + 1, b, m =>
    match b.stack, m.kind with
    | .part (.flow _ _ _) :: _, .breach => popFlow (b.stack.length + 1) b
    | _, _ =>
      match b.outcome m with
      | .taken b => some b
      | .refused => none
      | .finishes b => b.pop.bind fun b => step n b m

/-- The line that ends a document finishes everything before it. -/
def endDocument (b : Builder) : Option Builder :=
  match b.stack with
  | .ending _ :: _ => step (b.stack.length + 1) b ⟨.documentEnd, b.indent, b.place, "..."⟩
  | _ => (popAll (b.stack.length + 1) b).map fun b => { b with stack := [.ending []] }

/-- The builder after a token. -/
def add (b : Builder) (t : Token) : Option Builder :=
  let m : Mark := ⟨t.kind, b.indent, b.place, t.text⟩
  let after := if t.kind = .documentEnd then b.endDocument else step (2 * b.stack.length + 4) b m
  after.map fun b =>
    let place := b.place + t.text.length
    match t.kind with
    | .newline => { b with atLineStart := true, indent := 0, place }
    | .space =>
      if b.atLineStart && t.text.head? == some Text.space then { b with indent := b.indent + t.text.length, place }
      else { b with place }
    | .query => if b.atLineStart then { b with indent := b.indent + 1, place } else { b with place }
    | .colon => if b.atLineStart then { b with indent := b.indent + 1, place } else { b with place }
    | .dash => if b.atLineStart then { b with indent := b.indent + 1, place } else { b with place }
    | .opening => b
    | .breach => b
    | _ => { b with atLineStart := false, place }

/-- The builder after tokens. -/
def addAll : Builder → List Token → Option Builder
  | b, [] => popAll (b.stack.length + 1) b
  | b, t :: rest => if t.kind = .foreign then none else (b.add t).bind fun b => addAll b rest

end Builder

end EvalPlan.Yaml

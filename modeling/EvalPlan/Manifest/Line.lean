import EvalPlan.Text

/-!
# Lines of a manifest

A manifest is read by logical lines. Natural lines end in a line feed, a carriage return or both in
that order. Blanks at the beginning of a natural line do not count; blank lines and comments are
skipped, unless they continue an entry. A natural line that ends in an odd number of backslashes is
continued by the next one, the last backslash being dropped.
-/

namespace EvalPlan.Manifest

/-- The blanks of a manifest. -/
def isGap (u : CodeUnit) : Bool := u = Text.space || u = Text.tab || u = Text.formFeed

/-- Puts a unit in front of the first line. -/
def consLine (u : CodeUnit) : List Text → List Text
  | [] => [[u]]
  | line :: rest => (u :: line) :: rest

/-- Cuts a text into natural lines; behind the last terminator stands one more. -/
def naturalLines : Text → List Text
  | [] => [[]]
  | [u] => if u = Text.lineFeed || u = Text.carriageReturn then [[], []] else [[u]]
  | u :: v :: rest =>
    if u = Text.carriageReturn && v = Text.lineFeed then [] :: naturalLines rest
    else if u = Text.lineFeed || u = Text.carriageReturn then [] :: naturalLines (v :: rest)
    else consLine u (naturalLines (v :: rest))

/-- The number of backslashes at the end of a line. -/
def trailingBackslashes (line : Text) : Nat :=
  (line.reverse.takeWhile (· = Text.backslash)).length

/-- The line goes on in the next one. -/
def isContinued (line : Text) : Bool := trailingBackslashes line % 2 = 1

/-- A stripped line that holds no entry. -/
def isSkipped (stripped : Text) : Bool :=
  match stripped with
  | [] => true
  | u :: _ => u = Text.hash || u = Text.bang

/-- A natural line without the blanks at its beginning. -/
def strip (line : Text) : Text := line.dropWhile isGap

/-- Joins natural lines into logical ones; `pending` is the entry that waits to be continued. -/
def joinLines : Option Text → List Text → List Text
  | none, [] => []
  | some pending, [] => [pending]
  | none, natural :: rest =>
    let line := strip natural
    if isSkipped line then joinLines none rest
    else if isContinued line then joinLines (some line.dropLast) rest
    else line :: joinLines none rest
  | some pending, natural :: rest =>
    let line := pending ++ strip natural
    if isContinued line then joinLines (some line.dropLast) rest
    else line :: joinLines none rest

/-- The logical lines of a text. -/
def logicalLines (t : Text) : List Text := joinLines none (naturalLines t)

end EvalPlan.Manifest

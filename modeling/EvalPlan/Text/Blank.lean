import EvalPlan.Text

/-!
# White space

The units that count as blank when a text is trimmed: the characters with the White_Space
property, except the next-line control, and the byte order mark.
-/

namespace EvalPlan.Text

/-- A unit that trimming removes. -/
def isBlank (u : CodeUnit) : Bool :=
  (9 ≤ u && u ≤ 13) || u = 0x20 || u = 0xA0 || u = 0x1680 || (0x2000 ≤ u && u ≤ 0x200A)
    || u = 0x2028 || u = 0x2029 || u = 0x202F || u = 0x205F || u = 0x3000 || u = byteOrderMark

/-- The text without the blanks at either end. -/
def trim (t : Text) : Text := dropEndWhile isBlank (t.dropWhile isBlank)

/-- Every unit of the text is blank. -/
def isBlankOnly (t : Text) : Bool := t.all isBlank

end EvalPlan.Text

/-!
# Text

Texts are sequences of UTF-16 code units, so that a text may hold half of a surrogate pair and
still be compared, cut and written out exactly. String literals stand for their code units.

This file holds the conversion from characters, the code units with a name, and the cutting and
joining operations the rest of the library uses.
-/

namespace EvalPlan

/-- One UTF-16 code unit. -/
abbrev CodeUnit := UInt16

/-- A text is the list of its code units. -/
abbrev Text := List CodeUnit

/-- The units of a character: one in the basic plane, else a surrogate pair. -/
def CodeUnit.ofChar (c : Char) : List CodeUnit :=
  let n := c.toNat
  if n < 0x10000 then [n.toUInt16]
  else [(0xD800 + (n - 0x10000) / 0x400).toUInt16, (0xDC00 + (n - 0x10000) % 0x400).toUInt16]

namespace CodeUnit

/-- The first half of a surrogate pair. -/
def isHighSurrogate (u : CodeUnit) : Bool := 0xD800 ≤ u && u ≤ 0xDBFF

/-- The second half of a surrogate pair. -/
def isLowSurrogate (u : CodeUnit) : Bool := 0xDC00 ≤ u && u ≤ 0xDFFF

/-- The character that a surrogate pair stands for. -/
def pairChar (high low : CodeUnit) : Char :=
  Char.ofNat (0x10000 + (high.toNat - 0xD800) * 0x400 + (low.toNat - 0xDC00))

/-- A decimal digit. -/
def isDigit (u : CodeUnit) : Bool := 48 ≤ u && u ≤ 57

/-- The value of a hexadecimal digit of either case. -/
def hexValue? (u : CodeUnit) : Option Nat :=
  if 48 ≤ u && u ≤ 57 then some (u.toNat - 48)
  else if 97 ≤ u && u ≤ 102 then some (u.toNat - 87)
  else if 65 ≤ u && u ≤ 70 then some (u.toNat - 55)
  else none

/-- The lower-case letter of an upper-case letter of the basic alphabet. -/
def toLower (u : CodeUnit) : CodeUnit := if 65 ≤ u && u ≤ 90 then u + 32 else u

end CodeUnit

namespace Text

/-- The code units of a string. -/
def ofString (s : String) : Text := s.toList.flatMap CodeUnit.ofChar

instance : Coe String Text := ⟨ofString⟩

/-! ### Units with a name -/

/-- Horizontal tabulation. -/
def tab : CodeUnit := 9
/-- Line feed. -/
def lineFeed : CodeUnit := 10
/-- Form feed. -/
def formFeed : CodeUnit := 12
/-- Carriage return. -/
def carriageReturn : CodeUnit := 13
/-- The blank. -/
def space : CodeUnit := 32
/-- Exclamation mark. -/
def bang : CodeUnit := 33
/-- Double quotation mark. -/
def quote : CodeUnit := 34
/-- Number sign. -/
def hash : CodeUnit := 35
/-- Apostrophe, the single quotation mark. -/
def apostrophe : CodeUnit := 39
/-- Comma. -/
def comma : CodeUnit := 44
/-- Hyphen, also the minus sign. -/
def hyphen : CodeUnit := 45
/-- Full stop. -/
def dot : CodeUnit := 46
/-- Slash, the separator of path segments. -/
def slash : CodeUnit := 47
/-- Digit zero. -/
def zero : CodeUnit := 48
/-- Colon. -/
def colon : CodeUnit := 58
/-- Equals sign. -/
def equals : CodeUnit := 61
/-- Backslash. -/
def backslash : CodeUnit := 92
/-- Opening brace. -/
def openBrace : Text := [123]
/-- Closing brace. -/
def closeBrace : Text := [125]
/-- The mark of byte order, which counts as white space. -/
def byteOrderMark : CodeUnit := 0xFEFF
/-- What stands for bytes that encode nothing. -/
def replacement : CodeUnit := 0xFFFD

/-! ### Reading back -/

/-- The characters of a text; a lone half of a pair is read as the replacement character. -/
def toChars : Text → List Char
  | [] => []
  | [u] => [if u.isHighSurrogate || u.isLowSurrogate then Char.ofNat 0xFFFD else Char.ofNat u.toNat]
  | u :: v :: rest =>
    if u.isHighSurrogate && v.isLowSurrogate then CodeUnit.pairChar u v :: toChars rest
    else
      (if u.isHighSurrogate || u.isLowSurrogate then Char.ofNat 0xFFFD else Char.ofNat u.toNat)
        :: toChars (v :: rest)

/-- The string of a text. -/
def toString (t : Text) : String := String.ofList t.toChars

/-- Every surrogate of the text has its partner. -/
def wellFormed : Text → Bool
  | [] => true
  | [u] => !(u.isHighSurrogate || u.isLowSurrogate)
  | u :: v :: rest =>
    if u.isHighSurrogate then v.isLowSurrogate && wellFormed rest
    else !u.isLowSurrogate && wellFormed (v :: rest)

/-! ### Cutting and joining -/

/-- The characters of a text, each as a text of its own; a lone half of a pair is one of its own. -/
def characters : Text → List Text
  | [] => []
  | [u] => [[u]]
  | u :: v :: rest =>
    if u.isHighSurrogate && v.isLowSurrogate then [u, v] :: characters rest
    else [u] :: characters (v :: rest)

/-- The texts one after another with a separator between neighbours. -/
abbrev join (sep : Text) (ts : List Text) : Text := sep.intercalate ts

/-- The text without the units at its end that satisfy the test. -/
def dropEndWhile (p : CodeUnit → Bool) (t : Text) : Text := (t.reverse.dropWhile p).reverse

/-- The text ends in the given one. -/
def endsWith (t tail : Text) : Bool := tail.isSuffixOf t

/-- The order of texts by code units. -/
def before : Text → Text → Bool
  | _, [] => false
  | [], _ :: _ => true
  | a :: as, b :: bs => if a = b then before as bs else a < b

/-- Adds a text to an ordered list of texts, after those that are before it. -/
def insertSorted (t : Text) : List Text → List Text
  | [] => [t]
  | u :: rest => if before u t then u :: insertSorted t rest else t :: u :: rest

/-- The texts in the order of their code units; equal ones keep their order. -/
def sort (ts : List Text) : List Text := ts.foldr insertSorted []

/-! ### Numerals -/

/-- The digits of a number in a base up to thirty-six, with small letters. -/
def ofNatBase (base n : Nat) : Text :=
  (Nat.toDigits base n).map fun c => if c.isUpper then c.toLower.toNat.toUInt16 else c.toNat.toUInt16

/-- The decimal digits of a number. -/
def ofNat (n : Nat) : Text := (Nat.toDigits 10 n).map fun c => c.toNat.toUInt16

/-- The decimal digits of an integer after its sign. -/
def ofInt : Int → Text
  | .ofNat n => ofNat n
  | .negSucc n => hyphen :: ofNat (n + 1)

/-- The number that decimal digits denote; anything else denotes none. -/
def toNat? (t : Text) : Option Nat :=
  if t.isEmpty then none
  else t.foldl (fun acc u => acc.bind fun n =>
    if u.isDigit then some (n * 10 + (u.toNat - 48)) else none) (some 0)

/-- The position that a text names as a list index: decimal digits without a leading zero,
below 2³² − 1. -/
def toIndex? (t : Text) : Option Nat :=
  match t with
  | [] => none
  | u :: rest =>
    if u = zero && !rest.isEmpty then none
    else t.toNat?.bind fun n => if n < 4294967295 then some n else none

end Text

end EvalPlan

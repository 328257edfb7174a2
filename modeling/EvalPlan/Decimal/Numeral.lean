import EvalPlan.Text.Blank
import EvalPlan.Decimal.Shortest

/-!
# Numerals

How numbers are written in texts, and how texts are read as numbers.

Writing: the shortest decimal that reads back, positionally for the exponents −6 to 20 and with a
signed exponent otherwise. Reading: decimal literals with optional fraction and exponent, the word
`Infinity`, and the empty text for zero; `0x`, `0o` and `0b` open literals of other bases.
-/

namespace EvalPlan.Decimal

/-- The decisions a way of writing numbers makes. -/
structure Style where
  /-- The least decimal exponent of the first digit that is written positionally. -/
  least : Int
  /-- The first decimal exponent of the first digit that is no longer written positionally. -/
  limit : Int
  /-- The text for what is no number. -/
  nan : Text
  /-- The text for an infinity, without sign. -/
  infinity : Text

/-- Numbers are positional from 10⁻⁶ up to below 10²¹. -/
def plain : Style := ⟨-6, 21, "NaN", "Infinity"⟩

/-- Writes a positive decimal. -/
def Style.write (f : Style) (d : Scaled) : Text :=
  let digits := Text.ofNat d.digits
  let count : Int := digits.length
  let first := d.exponent + count - 1
  if f.least ≤ first && first < f.limit then
    if 0 ≤ d.exponent then digits ++ List.replicate d.exponent.toNat Text.zero
    else if 0 ≤ first then
      digits.take (first + 1).toNat ++ [Text.dot] ++ digits.drop (first + 1).toNat
    else [Text.zero, Text.dot] ++ List.replicate (-first - 1).toNat Text.zero ++ digits
  else
    let mantissa := match digits with
      | [] => []
      | [u] => [u]
      | u :: rest => u :: Text.dot :: rest
    let mark : Text := if first < 0 then "e-" else "e+"
    mantissa ++ mark ++ Text.ofNat first.natAbs

/-- Writes a number; both zeros are `0`. -/
def Style.text (f : Style) (x : Float) : Text :=
  let sign (negative : Bool) : Text := if negative then [Text.hyphen] else []
  match Reading.ofBits x.toBits with
  | .nan => f.nan
  | .infinite negative => sign negative ++ f.infinity
  | .zero _ => [Text.zero]
  | .finite negative m q edge => sign negative ++ f.write (shortest m q edge)

/-- The text of a number. -/
def text (x : Float) : Text := plain.text x

/-- The number is an integer. -/
def isInteger (x : Float) : Bool :=
  match Reading.ofBits x.toBits with
  | .nan => false
  | .infinite _ => false
  | .zero _ => true
  | .finite _ m q _ => 0 ≤ q || m % Nat.pow 2 (-q).toNat == 0

/-- The integer that a number is, if it is one. -/
def toInt? (x : Float) : Option Int :=
  match Reading.ofBits x.toBits with
  | .nan => none
  | .infinite _ => none
  | .zero _ => some 0
  | .finite negative m q _ =>
    let magnitude : Option Nat :=
      if 0 ≤ q then some (m * Nat.pow 2 q.toNat)
      else if m % Nat.pow 2 (-q).toNat = 0 then some (m / Nat.pow 2 (-q).toNat) else none
    magnitude.map fun n => if negative then -(n : Int) else (n : Int)

/-- The number is the negative zero. -/
def isNegativeZero (x : Float) : Bool := x.toBits == 0x8000000000000000

/-- The nearest integer, a half going upwards, as a number; the sign of a zero is kept. -/
def round (x : Float) : Float :=
  match Reading.ofBits x.toBits with
  | .nan => x
  | .infinite _ => x
  | .zero _ => x
  | .finite negative m q _ =>
    if 0 ≤ q then x
    else
      let unit := Nat.pow 2 (-q).toNat
      let whole := m / unit
      let twice := 2 * (m % unit)
      if negative then
        let n := if unit < twice then whole + 1 else whole
        Float.neg (Float.ofNat n)
      else Float.ofNat (if unit ≤ twice then whole + 1 else whole)

/-! ### Reading -/

/-- A decimal literal: digits, optional fraction, optional exponent. -/
structure Literal where
  /-- The digits before the point. -/
  whole : Text
  /-- The digits behind the point. -/
  fraction : Text
  /-- The power of ten behind the exponent mark. -/
  exponent : Int

/-- The number nearest to a literal. Exponents beyond any number are cut off first. -/
def Literal.toFloat (l : Literal) : Float :=
  let digits := ((l.whole ++ l.fraction).toNat?).getD 0
  let e := l.exponent - l.fraction.length
  if digits = 0 then 0
  else if e < 0 then Float.ofScientific digits true (min e.natAbs (l.whole.length + l.fraction.length + 400))
  else Float.ofScientific digits false (min e.natAbs 400)

/-- The exponent part of a literal and what follows it. An exponent mark without digits is no
exponent part. -/
def scanExponent (t : Text) : Int × Text :=
  match t with
  | [] => (0, [])
  | mark :: rest =>
    if mark = 101 || mark = 69 then
      let (negative, body) := match rest with
        | [] => (false, [])
        | s :: more =>
          if s = Text.hyphen then (true, more) else if s = 43 then (false, more) else (false, rest)
      let digits : Text := body.takeWhile CodeUnit.isDigit
      match digits.toNat? with
      | none => (0, t)
      | some n => (if negative then -(n : Int) else n, body.dropWhile CodeUnit.isDigit)
    else (0, t)

/-- The decimal literal at the beginning of a text and what follows it; at least one digit must
stand beside the point. -/
def scanLiteral (t : Text) : Option (Literal × Text) :=
  let whole := t.takeWhile CodeUnit.isDigit
  let rest := t.dropWhile CodeUnit.isDigit
  let (fraction, rest) := match rest with
    | [] => ([], [])
    | u :: more =>
      if u = Text.dot && (!whole.isEmpty || (more.takeWhile CodeUnit.isDigit) != []) then
        (more.takeWhile CodeUnit.isDigit, more.dropWhile CodeUnit.isDigit)
      else ([], rest)
  if whole.isEmpty && fraction.isEmpty then none
  else
    let (exponent, rest) := scanExponent rest
    some (⟨whole, fraction, exponent⟩, rest)

/-- The value of a digit in a base up to sixteen. -/
def baseDigit? (base : Nat) (u : CodeUnit) : Option Nat :=
  u.hexValue?.bind fun d => if d < base then some d else none

/-- The number that digits of a base denote. -/
def readBase (base : Nat) (t : Text) : Option Nat :=
  if t.isEmpty then none
  else t.foldl (fun acc u => acc.bind fun n => (baseDigit? base u).map (n * base + ·)) (some 0)

/-- The number that a whole text denotes, with a sign for decimals. -/
def readDecimal (t : Text) : Option Float :=
  let unsigned (body : Text) : Option Float :=
    if body = "Infinity" then some (1.0 / 0.0)
    else match scanLiteral body with
      | some (l, []) => some l.toFloat
      | _ => none
  match t with
  | [] => none
  | u :: rest =>
    if u = Text.hyphen then (unsigned rest).map (- ·)
    else if u = 43 then unsigned rest
    else unsigned t

/-- The number that a text denotes when it is used as one: blanks around it do not matter, the
empty text is zero, and what denotes nothing is no number. -/
def ofText (t : Text) : Float :=
  let nan : Float := 0.0 / 0.0
  let body := t.trim
  match body with
  | [] => 0
  | 48 :: mark :: digits =>
    let base := if mark = 120 || mark = 88 then 16 else if mark = 111 || mark = 79 then 8
      else if mark = 98 || mark = 66 then 2 else 0
    if base = 0 then (readDecimal body).getD nan
    else ((readBase base digits).map Float.ofNat).getD nan
  | _ => (readDecimal body).getD nan

end EvalPlan.Decimal

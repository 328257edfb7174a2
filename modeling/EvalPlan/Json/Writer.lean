import EvalPlan.Json
import EvalPlan.Decimal.Numeral

/-!
# JSON text

The compact text of a JSON value: no blanks, short escapes where they exist, `\u` escapes for the
other controls and for surrogates without a partner, everything else as it is.
-/

namespace EvalPlan.Json

/-- A hexadecimal digit with a small letter. -/
def hexDigit (n : Nat) : CodeUnit := if n < 10 then (48 + n).toUInt16 else (87 + n).toUInt16

/-- The escape of a unit by its number. -/
def unicodeEscape (u : CodeUnit) : Text :=
  let n := u.toNat
  [92, 117, hexDigit (n / 4096 % 16), hexDigit (n / 256 % 16), hexDigit (n / 16 % 16), hexDigit (n % 16)]

/-- A unit of a quoted text that is no surrogate. -/
def quoteUnit (u : CodeUnit) : Text :=
  if u = Text.quote || u = Text.backslash then [Text.backslash, u]
  else if u = 8 then [Text.backslash, 98]
  else if u = Text.tab then [Text.backslash, 116]
  else if u = Text.lineFeed then [Text.backslash, 110]
  else if u = Text.formFeed then [Text.backslash, 102]
  else if u = Text.carriageReturn then [Text.backslash, 114]
  else if u < 32 then unicodeEscape u
  else [u]

/-- The units between the quotation marks. -/
def quoteBody : Text → Text
  | [] => []
  | [u] => if u.isHighSurrogate || u.isLowSurrogate then unicodeEscape u else quoteUnit u
  | u :: v :: rest =>
    if u.isHighSurrogate && v.isLowSurrogate then u :: v :: quoteBody rest
    else if u.isHighSurrogate || u.isLowSurrogate then unicodeEscape u ++ quoteBody (v :: rest)
    else quoteUnit u ++ quoteBody (v :: rest)

/-- A text in quotation marks. -/
def quoted (t : Text) : Text := Text.quote :: quoteBody t ++ [Text.quote]

/-- A number; what is not finite has no JSON form and becomes null. -/
def numberText (x : Float) : Text :=
  match Decimal.Reading.ofBits x.toBits with
  | .nan => "null"
  | .infinite _ => "null"
  | _ => Decimal.text x

mutual

/-- The text of a value. -/
def write : Json → Text
  | .null => "null"
  | .bool true => "true"
  | .bool false => "false"
  | .number x => numberText x
  | .text t => quoted t
  | .list xs => "[" ++ Text.join "," (writeItems xs) ++ "]"
  | .object ms => Text.openBrace ++ Text.join "," (writeMembers ms) ++ Text.closeBrace

/-- The texts of the items of a list. -/
def writeItems : List Json → List Text
  | [] => []
  | x :: xs => write x :: writeItems xs

/-- The texts of the members of an object. -/
def writeMembers : List (Text × Json) → List Text
  | [] => []
  | (k, x) :: ms => (quoted k ++ [Text.colon] ++ write x) :: writeMembers ms

end

end EvalPlan.Json

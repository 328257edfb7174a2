import EvalPlan.Text

/-!
# Base 64

Bytes from their digits in base 64. What is no digit is passed over.
-/

namespace EvalPlan.Text.Base64

/-- The value of a digit. -/
def digit? (u : CodeUnit) : Option Nat :=
  if 65 ≤ u && u ≤ 90 then some (u.toNat - 65)
  else if 97 ≤ u && u ≤ 122 then some (u.toNat - 71)
  else if 48 ≤ u && u ≤ 57 then some (u.toNat + 4)
  else if u = 43 then some 62
  else if u = 47 then some 63
  else none

/-- The bytes of the digits that follow some bits that wait for more: their number and how many
there are. -/
def bytesFrom : Nat → Nat → Text → List UInt8
  | _, _, [] => []
  | acc, bits, u :: rest =>
    match digit? u with
    | none => bytesFrom acc bits rest
    | some d =>
      let acc := acc * 64 + d
      let bits := bits + 6
      if 8 ≤ bits then
        let unit := Nat.pow 2 (bits - 8)
        (acc / unit % 256).toUInt8 :: bytesFrom (acc % unit) (bits - 8) rest
      else bytesFrom acc bits rest

/-- The bytes that digits stand for. -/
def decode (t : Text) : List UInt8 := bytesFrom 0 0 t

end EvalPlan.Text.Base64

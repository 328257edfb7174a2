import EvalPlan.Text

/-!
# UTF-8

Decoding of bytes as UTF-8. Bytes that encode nothing become the replacement character, one for
each maximal beginning of a sequence that cannot be completed. A byte order mark is kept.
-/

namespace EvalPlan.Text.Utf8

/-- The state of a sequence that a lead byte opened. -/
structure Pending where
  /-- The bits read so far. -/
  bits : Nat
  /-- The number of continuation bytes that are missing. -/
  missing : Nat
  /-- The least byte that may come next. -/
  lower : UInt8
  /-- The greatest byte that may come next. -/
  upper : UInt8

/-- The sequence that a lead byte of more than one byte opens. -/
def lead? (b : UInt8) : Option Pending :=
  if 0xC2 ≤ b && b ≤ 0xDF then some ⟨b.toNat % 0x20, 1, 0x80, 0xBF⟩
  else if 0xE0 ≤ b && b ≤ 0xEF then
    some ⟨b.toNat % 0x10, 2, if b = 0xE0 then 0xA0 else 0x80, if b = 0xED then 0x9F else 0xBF⟩
  else if 0xF0 ≤ b && b ≤ 0xF4 then
    some ⟨b.toNat % 0x08, 3, if b = 0xF0 then 0x90 else 0x80, if b = 0xF4 then 0x8F else 0xBF⟩
  else none

/-- What a byte yields where no sequence is open: units, or a sequence that it opens. -/
def start (b : UInt8) : Text × Option Pending :=
  if b < 0x80 then ([b.toUInt16], none)
  else
    match lead? b with
    | some p => ([], some p)
    | none => ([replacement], none)

/-- What a byte yields within an open sequence. A byte that does not continue the sequence closes
it as one replacement character and is then read afresh. -/
def extend (p : Pending) (b : UInt8) : Text × Option Pending :=
  if p.lower ≤ b && b ≤ p.upper then
    let bits := p.bits * 0x40 + b.toNat % 0x40
    if p.missing = 1 then (CodeUnit.ofChar (Char.ofNat bits), none)
    else ([], some ⟨bits, p.missing - 1, 0x80, 0xBF⟩)
  else
    let (units, next) := start b
    (replacement :: units, next)

/-- Decodes the bytes after the ones that opened a sequence. -/
def decodeFrom : Option Pending → List UInt8 → Text
  | none, [] => []
  | some _, [] => [replacement]
  | state, b :: rest =>
    let (units, next) := match state with
      | none => start b
      | some p => extend p b
    units ++ decodeFrom next rest

/-- The text that bytes encode. -/
def decode (bytes : List UInt8) : Text := decodeFrom none bytes

end EvalPlan.Text.Utf8

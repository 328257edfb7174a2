import EvalPlan.Text

/-!
# Escapes of a manifest

A backslash in a key or value joins with what follows it: `\t`, `\n`, `\r` and `\f` stand for
controls, `\u` with four hexadecimal digits for the unit of that number, and a backslash before
any other unit for that unit.
-/

namespace EvalPlan.Manifest

/-- The unit that an escape with one letter stands for. -/
def escaped (u : CodeUnit) : CodeUnit :=
  if u = 116 then Text.tab
  else if u = 110 then Text.lineFeed
  else if u = 114 then Text.carriageReturn
  else if u = 102 then Text.formFeed
  else u

/-- The number that four hexadecimal digits denote. -/
def hexUnit? (a b c d : CodeUnit) : Option CodeUnit :=
  match a.hexValue?, b.hexValue?, c.hexValue?, d.hexValue? with
  | some a, some b, some c, some d => some (a * 4096 + b * 256 + c * 16 + d).toUInt16
  | _, _, _, _ => none

/-- The unit that the digits behind `\u` denote, if four of them stand there. -/
def hexHead? : Text → Option CodeUnit
  | a :: b :: c :: d :: _ => hexUnit? a b c d
  | _ => none

/-- Resolves the escapes behind the first `skip` units. -/
def unescapeFrom : Nat → Text → Text
  | _, [] => []
  | skip + 1, _ :: rest => unescapeFrom skip rest
  | 0, u :: rest =>
    if u = Text.backslash then
      match rest with
      | [] => [u]
      | e :: tail =>
        match if e = 117 then hexHead? tail else none with
        | some unit => unit :: unescapeFrom 5 rest
        | none => escaped e :: unescapeFrom 1 rest
    else u :: unescapeFrom 0 rest

/-- Resolves the escapes of a raw key or value. A backslash at the very end stays. -/
def unescape (t : Text) : Text := unescapeFrom 0 t

end EvalPlan.Manifest

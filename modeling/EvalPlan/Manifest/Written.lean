import EvalPlan.Manifest

/-!
# Written manifests

How entries can be written down as a text, said without reading one. A key or a value is written
unit by unit: as `\u` with four hexadecimal digits, as itself, or, where it has a meaning of its own
in a manifest, behind a backslash. An entry is its key and its value with a separation between them,
perhaps behind blanks, and stands on a line of its own. `Writes` relates entries to every text that
writes them so; one list of entries has many such texts.
-/

namespace EvalPlan.Manifest

/-- The unit is a hexadecimal digit, in either case, for a number. -/
def IsHexDigit (n : Nat) (u : CodeUnit) : Prop :=
  n < 10 ∧ u.toNat = 48 + n ∨ 10 ≤ n ∧ n < 16 ∧ (u.toNat = 55 + n ∨ u.toNat = 87 + n)

instance (n : Nat) (u : CodeUnit) : Decidable (IsHexDigit n u) :=
  inferInstanceAs (Decidable (_ ∨ _))

/-- The letter that stands for a unit behind a backslash, if the unit has a meaning of its own. -/
def escapeLetter? (u : CodeUnit) : Option CodeUnit :=
  if u = Text.tab then some 116
  else if u = Text.lineFeed then some 110
  else if u = Text.carriageReturn then some 114
  else if u = Text.formFeed then some 102
  else if u ∈ [Text.backslash, Text.space, Text.equals, Text.colon, Text.hash, Text.bang] then some u
  else none

/-- The ways to write a unit. -/
inductive WritesUnit (u : CodeUnit) : Text → Prop
  /-- By its number. -/
  | numbered {a b c d : CodeUnit} : IsHexDigit (u.toNat / 4096) a → IsHexDigit (u.toNat / 256 % 16) b →
      IsHexDigit (u.toNat / 16 % 16) c → IsHexDigit (u.toNat % 16) d →
      WritesUnit u [Text.backslash, 117, a, b, c, d]
  /-- Behind a backslash. -/
  | escaped {letter : CodeUnit} : escapeLetter? u = some letter → WritesUnit u [Text.backslash, letter]
  /-- As itself. -/
  | plain : escapeLetter? u = none → WritesUnit u [u]

/-- A text is written unit by unit. -/
inductive WritesText : Text → Text → Prop
  | nil : WritesText [] []
  | cons {u : CodeUnit} {t piece written : Text} :
      WritesUnit u piece → WritesText t written → WritesText (u :: t) (piece ++ written)

/-- Every unit is a blank. -/
def IsGaps (t : Text) : Prop := ∀ u ∈ t, isGap u = true

instance (t : Text) : Decidable (IsGaps t) := decidable_of_iff (t.all isGap = true) List.all_eq_true

/-- What may stand between a key and its value: blanks, or one sign with or without blanks around
it. -/
inductive IsSeparation : Text → Prop
  | gaps {t : Text} : t ≠ [] → IsGaps t → IsSeparation t
  | sign {before after : Text} {u : CodeUnit} : IsGaps before → u = Text.equals ∨ u = Text.colon →
      IsGaps after → IsSeparation (before ++ u :: after)

/-- An entry with a key is written as a line. -/
inductive WritesEntry (e : Entry) : Text → Prop
  | line {indent key separation value : Text} : IsGaps indent → e.key ≠ [] → WritesText e.key key →
      IsSeparation separation → WritesText e.value value →
      WritesEntry e (indent ++ (key ++ (separation ++ value)))

/-- What ends a line. -/
def terminators : List Text :=
  [[Text.lineFeed], [Text.carriageReturn], [Text.carriageReturn, Text.lineFeed]]

/-- Entries are written line by line; the last line may go without a terminator. -/
inductive Writes : List Entry → Text → Prop
  | nil : Writes [] []
  | last {e : Entry} {line : Text} : WritesEntry e line → Writes [e] line
  | cons {e : Entry} {es : List Entry} {line terminator written : Text} :
      WritesEntry e line → terminator ∈ terminators → Writes es written →
      Writes (e :: es) (line ++ (terminator ++ written))

end EvalPlan.Manifest

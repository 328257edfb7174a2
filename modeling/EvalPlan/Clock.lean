import EvalPlan.Text

/-!
# Moments

Moments are counted in milliseconds from the beginning of 1970. Events carry theirs in the form
`1970-01-01T00:00:00.000Z`, and runs are named after the moment and their number.
-/

namespace EvalPlan.Clock

/-- A day of the calendar. -/
structure Day where
  /-- The year. -/
  year : Nat
  /-- The month, from one. -/
  month : Nat
  /-- The day of the month, from one. -/
  day : Nat
deriving DecidableEq

/-- The calendar day of a count of days since the beginning of 1970, by cycles of 400 years that
begin in March. -/
def Day.ofCount (days : Nat) : Day :=
  let z := days + 719468
  let era := z / 146097
  let dayOfEra := z % 146097
  let yearOfEra := (dayOfEra - dayOfEra / 1460 + dayOfEra / 36524 - dayOfEra / 146096) / 365
  let dayOfYear := dayOfEra - (365 * yearOfEra + yearOfEra / 4 - yearOfEra / 100)
  let m := (5 * dayOfYear + 2) / 153
  let month := if m < 10 then m + 3 else m - 9
  { year := yearOfEra + era * 400 + (if month ≤ 2 then 1 else 0)
    month
    day := dayOfYear - (153 * m + 2) / 5 + 1 }

/-- A number with zeros in front up to a width. -/
def padded (width n : Nat) : Text :=
  let digits := Text.ofNat n
  List.replicate (width - digits.length) Text.zero ++ digits

/-- The text of a moment. -/
def iso (now : Nat) : Text :=
  let d := Day.ofCount (now / 86400000)
  let ms := now % 86400000
  padded 4 d.year ++ "-" ++ padded 2 d.month ++ "-" ++ padded 2 d.day ++ "T"
    ++ padded 2 (ms / 3600000) ++ ":" ++ padded 2 (ms / 60000 % 60) ++ ":"
    ++ padded 2 (ms / 1000 % 60) ++ "." ++ padded 3 (ms % 1000) ++ "Z"

/-- The text has the form of a moment: digits where digits belong, and the marks between them. -/
def isIso (t : Text) : Bool :=
  let pattern : Text := "0000-00-00T00:00:00.000Z"
  t.length == pattern.length &&
    (t.zip pattern).all fun (u, p) => if p = Text.zero then u.isDigit else u = p

/-- The name of a run that began at a moment. -/
def runName (now number : Nat) : Text :=
  "run_" ++ Text.ofNatBase 36 now ++ "_" ++ Text.ofNat number

/-- The text has the form of a run's name. -/
def isRunName (t : Text) : Bool :=
  match t.splitOn 95 with
  | [head, moment, number] =>
    head == ("run" : Text)
      && !moment.isEmpty && moment.all (fun u => u.isDigit || (97 ≤ u && u ≤ 122))
      && !number.isEmpty && number.all CodeUnit.isDigit
  | _ => false

end EvalPlan.Clock

/-!
# Shortest decimals

The decimal digits of a binary floating-point number: the fewest digits that denote a real number
which rounds back to it, and of those the nearest. All comparisons are between exact natural
numbers.

A positive finite number is `m · 2 ^ q`. The reals that round to it lie between the midpoints to
its two neighbours, ends included when `m` is even. `Span` holds these bounds over a common unit,
and `shortest` looks at the two points of each decimal grid that are next to the number.
-/

namespace EvalPlan.Decimal

/-- A decimal `digits · 10 ^ exponent`. -/
structure Scaled where
  /-- The digits as one number. -/
  digits : Nat
  /-- The power of ten they count. -/
  exponent : Int
deriving DecidableEq

/-- A number together with the reals that round to it, all multiples of one small unit. -/
structure Span where
  /-- The lower end. -/
  low : Nat
  /-- The number itself. -/
  value : Nat
  /-- The upper end. -/
  high : Nat
  /-- How many units make one. -/
  unit : Nat
  /-- Whether the ends themselves round to the number. -/
  closed : Bool

/-- The span of `m · 2 ^ q`; `edge` says that the lower neighbour is only half as far away. -/
def Span.ofBinary (m : Nat) (q : Int) (edge : Bool) : Span :=
  let scale := Nat.pow 2 q.toNat
  { low := (if edge then 4 * m - 1 else 4 * m - 2) * scale
    value := 4 * m * scale
    high := (4 * m + 2) * scale
    unit := 4 * Nat.pow 2 (-q).toNat
    closed := m % 2 == 0 }

/-- A count of units lies within the span. -/
def Span.contains (s : Span) (x : Nat) : Bool :=
  if s.closed then s.low ≤ x && x ≤ s.high else s.low < x && x < s.high

/-- The span with every quantity multiplied so that `10 ^ e` is a whole number of units, and that
number. -/
def Span.grid (s : Span) (e : Int) : Span × Nat :=
  let k := Nat.pow 10 (-e).toNat
  ({ s with low := s.low * k, value := s.value * k, high := s.high * k, unit := s.unit * k },
    s.unit * Nat.pow 10 e.toNat)

/-- The multiple of `10 ^ e` that lies in the span and is nearest to the number; of two at the same
distance the even one. -/
def Span.nearest? (s : Span) (e : Int) : Option Nat :=
  let (t, step) := s.grid e
  let below := t.value / step
  let above := below + 1
  let belowFits := t.contains (below * step) && below != 0
  let aboveFits := t.contains (above * step)
  if belowFits && aboveFits then
    let down := t.value - below * step
    let up := above * step - t.value
    if down < up then some below
    else if up < down then some above
    else some (if below % 2 == 0 then below else above)
  else if belowFits then some below
  else if aboveFits then some above
  else none

/-- Tries the grids from the coarsest to the finest. -/
def Span.search (s : Span) : Nat → Int → Option Scaled
  | 0, _ => none
  | n + 1, e =>
    match s.nearest? e with
    | some d => some ⟨d, e⟩
    | none => s.search n (e - 1)

/-- The decimal exponent of the first digit of `value / unit`. -/
def Span.magnitude (s : Span) : Int :=
  if s.unit ≤ s.value then ((Nat.toDigits 10 (s.value / s.unit)).length : Int) - 1
  else
    -- the reciprocal has one digit more than there are zeros behind the point
    - ((Nat.toDigits 10 ((s.unit - 1) / s.value)).length : Int)

/-- Removes the zeros at the end of the digits. -/
def Scaled.strip : Nat → Scaled → Scaled
  | 0, d => d
  | n + 1, d => if d.digits != 0 && d.digits % 10 == 0 then strip n ⟨d.digits / 10, d.exponent + 1⟩ else d

/-- The shortest decimal of `m · 2 ^ q` for a positive `m`. -/
def shortest (m : Nat) (q : Int) (edge : Bool) : Scaled :=
  let s := Span.ofBinary m q edge
  match s.search 20 (s.magnitude + 1) with
  | some d => d.strip 25
  | none => ⟨m, q⟩

/-- What the bits of a double-precision number say. -/
inductive Reading
  /-- The number is no number. -/
  | nan
  /-- An infinity with its sign. -/
  | infinite (negative : Bool)
  /-- A zero with its sign. -/
  | zero (negative : Bool)
  /-- `m · 2 ^ q` with its sign; `edge` marks the least number of a binade. -/
  | finite (negative : Bool) (m : Nat) (q : Int) (edge : Bool)

/-- Takes the bits of a double-precision number apart. -/
def Reading.ofBits (bits : UInt64) : Reading :=
  let n := bits.toNat
  let negative := n / Nat.pow 2 63 == 1
  let biased : Nat := n / Nat.pow 2 52 % Nat.pow 2 11
  let fraction : Nat := n % Nat.pow 2 52
  if biased = 2047 then if fraction = 0 then .infinite negative else .nan
  else if biased = 0 then
    if fraction = 0 then .zero negative else .finite negative fraction (-1074) false
  else .finite negative (Nat.pow 2 52 + fraction) ((biased : Int) - 1075) (fraction = 0 && biased > 1)

end EvalPlan.Decimal

import EvalPlan.Decimal.Numeral

/-!
# Values

The values that scripts compute with and that tasks, builders and results are made of. Objects,
lists, errors and callables live in a heap and are named by references; everything else is its own
value.
-/

namespace EvalPlan

/-- Names an object of the heap. -/
abbrev Ref := Nat

/-- A value. -/
inductive Value
  /-- The value of what is absent. -/
  | undefined
  /-- The null value. -/
  | null
  /-- A truth value. -/
  | bool (b : Bool)
  /-- A double-precision number. -/
  | number (x : Float)
  /-- A text. -/
  | text (t : Text)
  /-- An integer without bound. -/
  | bigint (n : Int)
  /-- A symbol; the serial number tells symbols of one description apart. -/
  | symbol (description : Text) (serial : Nat)
  /-- An object of the heap. -/
  | ref (r : Ref)
deriving Inhabited

namespace Value

instance : Coe Text Value := ⟨text⟩
instance : Coe String Value := ⟨fun s => text (Text.ofString s)⟩

/-- A natural number as a value. -/
def ofNat (n : Nat) : Value := number (Float.ofNat n)

/-- Sameness of keys: numbers by value with both zeros alike and the non-number like itself, texts
by content, objects by identity. -/
def same : Value → Value → Bool
  | undefined, undefined => true
  | null, null => true
  | bool a, bool b => a == b
  | number x, number y => x == y || (x.isNaN && y.isNaN)
  | text s, text t => s == t
  | bigint m, bigint n => m == n
  | symbol _ m, symbol _ n => m == n
  | ref r, ref s => r == s
  | _, _ => false

instance : BEq Value := ⟨same⟩

/-- The value is null or undefined. -/
def isNullish : Value → Bool
  | undefined => true
  | null => true
  | _ => false

/-- The value counts as true. -/
def isTruthy : Value → Bool
  | undefined => false
  | null => false
  | bool b => b
  | number x => !(x == 0 || x.isNaN)
  | text t => !t.isEmpty
  | bigint n => n != 0
  | symbol _ _ => true
  | ref _ => true

/-- The text that a value is. -/
def text? : Value → Option Text
  | text t => some t
  | _ => none

/-- The number that a value is. -/
def number? : Value → Option Float
  | number x => some x
  | _ => none

/-- The reference that a value is. -/
def ref? : Value → Option Ref
  | ref r => some r
  | _ => none

end Value

end EvalPlan

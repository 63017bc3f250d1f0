import UnitFacts.Number.Double

/-!
The shortest decimal that reads back as a given double. The decimals that round to it form an
interval, with its ends if the mantissa is even; of the decimals with the fewest digits in that
interval the nearest is taken.
-/

namespace UnitFacts

/-- The number `digits · 10 ^ power`. -/
structure Decimal where
  digits : Nat
  power : Int
  deriving DecidableEq, Repr, Inhabited

namespace Decimal

/-- The number as a fraction. -/
def fraction (d : Decimal) : Nat × Nat :=
  if 0 ≤ d.power then (d.digits * Nat.pow 10 d.power.toNat, 1) else (d.digits, Nat.pow 10 (-d.power).toNat)

/-- Drops up to `count` zeros at the end. -/
def trimmed : Nat → Decimal → Decimal
  | 0, d => d
  | count + 1, d =>
    if d.digits ≠ 0 ∧ d.digits % 10 = 0 then trimmed count ⟨d.digits / 10, d.power + 1⟩ else d

end Decimal

namespace Double

/-- Whether a decimal rounds to the magnitude of a double that is not zero. The double below is half
as far away where the mantissa is the least of its length. -/
def isReadFrom (x : Double) (d : Decimal) : Bool :=
  let (n, k) := d.fraction
  let (quarter, unit) := scaled 1 4 (-x.exponent)
  let below := if x.mantissa = mantissaLimit / 2 && leastExponent < x.exponent then 1 else 2
  let low := (4 * x.mantissa - below) * quarter * k
  let high := (4 * x.mantissa + 2) * quarter * k
  let value := n * unit
  (low < value && value < high) || (x.mantissa % 2 = 0 && (low = value || value = high))

/-- How far a decimal is from the magnitude of a double, in a unit that depends on the power of the
decimal only. -/
def distance (x : Double) (d : Decimal) : Nat :=
  let (n, k) := d.fraction
  let (a, b) := x.fraction
  (n * b - a * k) + (a * k - n * b)

/-- The power of ten of the first digit of a positive fraction. -/
def leadingPower (num den : Nat) : Int :=
  if den ≤ num then (digitCount (num / den) : Int) - 1 else -(digitCount (den / num) : Int)

/-- The nearer of two decimals next to each other, of two equally near the even one. -/
def nearer (x : Double) (d e : Decimal) : Decimal :=
  if x.distance d < x.distance e || (x.distance d = x.distance e && d.digits % 2 = 0) then d else e

/-- A decimal with `count` digits that reads back as the double, the nearest if there are two. -/
def decimalOf? (x : Double) (count : Nat) : Option Decimal :=
  let (a, b) := x.fraction
  let power := leadingPower a b - count + 1
  let digits := if 0 ≤ power then a / (b * Nat.pow 10 power.toNat) else a * Nat.pow 10 (-power).toNat / b
  let low : Decimal := ⟨digits, power⟩
  let high : Decimal := ⟨digits + 1, power⟩
  match x.isReadFrom low, x.isReadFrom high with
  | true, true => some (x.nearer low high)
  | true, false => some low
  | false, true => some high
  | false, false => none

/-- With this many digits every double reads back. -/
def enoughDigits : Nat := 17

/-- The shortest decimal of the magnitude. -/
def shortest (x : Double) : Decimal :=
  if x.isZero then ⟨0, 0⟩
  else
    let found := (List.range enoughDigits).findSome? fun n => x.decimalOf? (n + 1)
    (found.getD ⟨0, 0⟩).trimmed enoughDigits

end Double

end UnitFacts

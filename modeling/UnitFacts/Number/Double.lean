/-!
Numbers of double precision, finite ones only: a sign and a magnitude of at most 53 bits times a
power of two. Products and quotients are computed exactly and rounded once, to the nearest double, a
tie going to the even one. There is no infinity: what would round to it has no result.
-/

namespace UnitFacts

/-- The number `±mantissa · 2 ^ exponent`. A result of rounding has a mantissa of 53 bits, or the
least exponent. -/
structure Double where
  negative : Bool
  mantissa : Nat
  exponent : Int
  deriving DecidableEq, Repr, Inhabited

namespace Double

def leastExponent : Int := -1074

def greatestExponent : Int := 971

/-- The bound of the mantissas. -/
def mantissaLimit : Nat := 0x20000000000000

def zero (negative : Bool) : Double := ⟨negative, 0, leastExponent⟩

def isZero (x : Double) : Bool := x.mantissa = 0

/-- The whole number nearest to a fraction, of two the even one. -/
def nearest (num den : Nat) : Nat :=
  let whole := num / den
  let twice := 2 * (num % den)
  if den < twice || (twice = den && whole % 2 = 1) then whole + 1 else whole

/-- A fraction divided by a power of two. -/
def scaled (num den : Nat) (exponent : Int) : Nat × Nat :=
  if 0 ≤ exponent then (num, den * Nat.pow 2 exponent.toNat) else (num * Nat.pow 2 (-exponent).toNat, den)

/-- The exponent at which a fraction has a mantissa of 53 bits, if that is not below the least. -/
def fittingExponent (num den : Nat) : Int :=
  let guess : Int := num.log2 - den.log2 - 53
  let (n, d) := scaled num den guess
  max leastExponent (if mantissaLimit ≤ n / d then guess + 1 else guess)

/-- The double nearest to a fraction. -/
def ofFraction? (negative : Bool) (num den : Nat) : Option Double :=
  if num = 0 then some (zero negative)
  else
    let exponent := fittingExponent num den
    let (n, d) := scaled num den exponent
    let mantissa := nearest n d
    let x : Double :=
      if mantissa = mantissaLimit then ⟨negative, mantissa / 2, exponent + 1⟩
      else ⟨negative, mantissa, exponent⟩
    if x.exponent ≤ greatestExponent then some x else none

/-- The magnitude as a fraction. -/
def fraction (x : Double) : Nat × Nat := scaled x.mantissa 1 (-x.exponent)

def ofNat? (value : Nat) : Option Double := ofFraction? false value 1

def mul? (x y : Double) : Option Double :=
  let (a, b) := x.fraction
  let (c, d) := y.fraction
  ofFraction? (x.negative != y.negative) (a * c) (b * d)

/-- The quotient by a number that is not zero. -/
def div? (x y : Double) : Option Double :=
  let (a, b) := x.fraction
  let (c, d) := y.fraction
  ofFraction? (x.negative != y.negative) (a * d) (b * c)

/-- The greatest power of ten that is a finite double. -/
def greatestPower : Nat := 308

def powerOfTen? (power : Nat) : Option Double := ofNat? (Nat.pow 10 power)

def divPower? (x : Double) (power : Nat) : Option Double := (powerOfTen? power).bind x.div?

/-- Divides by the greatest power of ten a number of times; zero stays as it is. -/
def shrinkSteps? : Nat → Double → Option Double
  | 0, x => some x
  | steps + 1, x => if x.isZero then some x else (x.divPower? greatestPower).bind (shrinkSteps? steps)

/-- Divides by a power of ten, the greatest power first as often as it takes; each step rounds. -/
def shrink? (x : Double) (power : Nat) : Option Double :=
  let steps := (power - 1) / greatestPower
  (shrinkSteps? steps x).bind fun y => y.divPower? (power - steps * greatestPower)

/-- Multiplies by a power of ten, with one rounding of the power and one of the product. -/
def grow? (x : Double) (power : Nat) : Option Double :=
  if x.isZero then some x
  else if power ≤ greatestPower then (powerOfTen? power).bind x.mul?
  else none

/-- A whole number times a power of ten, each step rounded on its own. -/
def ofScaled? (significand : Nat) (power : Int) : Option Double :=
  (ofNat? significand).bind fun x =>
    if 0 ≤ power then x.grow? power.toNat else x.shrink? (-power).toNat

/-- The least integer that no double reaches: everything from here on rounds to infinity. -/
def limit : Nat := Nat.pow 2 1024 - Nat.pow 2 970

def digitCount (value : Nat) : Nat := (Nat.toDigits 10 value).length

/-- Whether `digits · 10 ^ power`, rounded once, exceeds every double. The first tests keep the power
of ten small. -/
def exceeds (digits : Nat) (power : Int) : Bool :=
  if digits = 0 then false
  else if (digitCount digits : Int) + power > 400 then true
  else if (digitCount digits : Int) + power < 300 then false
  else if 0 ≤ power then limit ≤ digits * Nat.pow 10 power.toNat
  else limit * Nat.pow 10 (-power).toNat ≤ digits

end Double

end UnitFacts

import UnitFacts.Number.Shortest

/-!
The numbers of JSON. A literal without fraction and exponent that fits into 64 bits, with a sign or
without, is an integer; every other one is a double. A double is worked out from the first digits,
as many as make a number of 64 bits, and a power of ten; what exceeds the doubles has no value.
-/

namespace UnitFacts.Json

inductive Number where
  | int (value : Int)
  | double (value : Double)
  deriving DecidableEq, Repr, Inhabited

namespace Number

/-- A number as it is written: the digits before and after the point, and the exponent. -/
structure Literal where
  negative : Bool := false
  whole : List Char
  fraction : List Char := []
  exponent : Option Int := none
  deriving DecidableEq, Repr

def digitValue (c : Char) : Nat := c.toNat - '0'.toNat

def digitsValue (digits : List Char) : Nat :=
  digits.foldl (fun value c => value * 10 + digitValue c) 0

def wordLimit : Nat := 0x10000000000000000

/-- Appends digits to a number as long as it stays below the limit; gives the number and how many
digits are left. -/
def absorb (value : Nat) : List Char → Nat × Nat
  | [] => (value, 0)
  | c :: rest =>
    if value * 10 + digitValue c < wordLimit then absorb (value * 10 + digitValue c) rest
    else (value, rest.length + 1)

namespace Literal

/-- The value of a literal that is an integer. -/
def int? (literal : Literal) : Option Int :=
  let size := digitsValue literal.whole
  if !literal.fraction.isEmpty || literal.exponent.isSome then none
  else if literal.negative then (if 0 < size ∧ size ≤ wordLimit / 2 then some (-size) else none)
  else if size < wordLimit then some size
  else none

/-- The digits that count, and the power of ten they stand at. Digits left over before the point
raise the power, those left over after it are dropped. -/
def significand (literal : Literal) : Nat × Int :=
  let (whole, left) := absorb 0 literal.whole
  let (value, dropped) := absorb whole literal.fraction
  (value, left - (literal.fraction.length - dropped : Nat) + literal.exponent.getD 0)

def double? (literal : Literal) : Option Double :=
  let (value, power) := literal.significand
  (Double.ofScaled? value power).map fun x => { x with negative := literal.negative }

end Literal

def ofLiteral? (literal : Literal) : Option Number :=
  match literal.int? with
  | some value => some (.int value)
  | none => literal.double?.map .double

/-! ### Text -/

def decimalDigits (value : Nat) : List Char := Nat.toDigits 10 value

def signedDigits (value : Int) : List Char :=
  if value < 0 then '-' :: decimalDigits value.natAbs else decimalDigits value.natAbs

/-- The exponents of ten from the first to the second are written without an exponent. -/
def plainExponents : Int × Int := (-5, 15)

/-- A point after the first `count` digits, with zeros where digits are missing on either side. -/
def withPoint (digits : List Char) (count : Int) : List Char :=
  if count ≤ 0 then '0' :: '.' :: (List.replicate (-count).toNat '0' ++ digits)
  else
    let fraction := digits.drop count.toNat
    (digits.take count.toNat ++ List.replicate (count.toNat - digits.length) '0') ++
      '.' :: (if fraction.isEmpty then ['0'] else fraction)

/-- One digit before the point, and an exponent with its sign. -/
def withExponent (digits : List Char) (exponent : Int) : List Char :=
  digits.take 1 ++ (if digits.length ≤ 1 then [] else '.' :: digits.drop 1) ++
    'e' :: (if exponent < 0 then signedDigits exponent else '+' :: signedDigits exponent)

def magnitudeChars (d : Decimal) : List Char :=
  let digits := decimalDigits d.digits
  let exponent := d.power + digits.length - 1
  if plainExponents.1 ≤ exponent ∧ exponent ≤ plainExponents.2 then withPoint digits (exponent + 1)
  else withExponent digits exponent

def doubleChars (x : Double) : List Char :=
  (if x.negative then ['-'] else []) ++ magnitudeChars x.shortest

def chars : Number → List Char
  | .int value => signedDigits value
  | .double value => doubleChars value

end Number

end UnitFacts.Json

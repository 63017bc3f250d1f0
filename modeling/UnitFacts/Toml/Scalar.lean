import UnitFacts.Json.Reader
import UnitFacts.Settings.Value
import UnitFacts.Toml.DateTime
import UnitFacts.Toml.Text

/-!
The words of TOML that are no texts: truth values, integers in four bases with underscores between
digits, floats, dates and times. A date or time is kept as a table with one telling key.
-/

namespace UnitFacts.Toml

open Settings (Value)

/-- Digits of a class, single underscores allowed between them; gives the digits alone. -/
def digits? (inClass : Char → Bool) : List Char → Option (List Char)
  | [] => none
  | [c] => if inClass c then some [c] else none
  | c :: '_' :: rest => if inClass c then (digits? inClass rest).map (c :: ·) else none
  | c :: rest => if inClass c then (digits? inClass rest).map (c :: ·) else none

def baseValue (base : Nat) (digits : List Char) : Nat :=
  digits.foldl (fun value c => value * base + (Json.hexValue? c).getD 0) 0

/-- The sign in front and what follows it. -/
def signed (cs : List Char) : Bool × List Char :=
  match cs with
  | '-' :: rest => (true, rest)
  | '+' :: rest => (false, rest)
  | _ => (false, cs)

def inLong (value : Int) : Bool := -0x8000000000000000 ≤ value && value < 0x8000000000000000

def ofInt? (value : Int) : Option Value := if inLong value then some (.int value) else none

/-- Whether decimal digits have no needless zero in front. -/
def isWhole (digits : List Char) : Bool := digits.length = 1 || digits.head? ≠ some '0'

def decimal? (cs : List Char) : Option Value :=
  let (negative, rest) := signed cs
  match digits? Char.isDigit rest with
  | some digits =>
    if isWhole digits then ofInt? (if negative then -(baseValue 10 digits) else baseValue 10 digits)
    else none
  | none => none

def inBase? (base : Nat) (inClass : Char → Bool) (cs : List Char) : Option Value :=
  (digits? inClass cs).bind fun digits => ofInt? (baseValue base digits)

def integer? (cs : List Char) : Option Value :=
  match cs with
  | '0' :: 'x' :: rest => inBase? 16 (fun c => (Json.hexValue? c).isSome) rest
  | '0' :: 'o' :: rest => inBase? 8 (fun c => '0' ≤ c && c ≤ '7') rest
  | '0' :: 'b' :: rest => inBase? 2 (fun c => c = '0' || c = '1') rest
  | _ => decimal? cs

/-- Digits with a sign that may be missing, as a number. -/
def signedNumber? (cs : List Char) : Option Int :=
  let (negative, rest) := signed cs
  (digits? Char.isDigit rest).map fun digits =>
    if negative then -(baseValue 10 digits : Int) else baseValue 10 digits

/-- The parts of a float: before the point, after it, and the exponent. -/
def floatParts (cs : List Char) : List Char × Option (List Char) × Option (List Char) :=
  let isMark := fun c => c = 'e' || c = 'E'
  let mantissa := cs.takeWhile fun c => !isMark c
  let exponent := match cs.dropWhile fun c => !isMark c with
    | [] => none
    | _ :: rest => some rest
  let whole := mantissa.takeWhile fun c => c ≠ '.'
  let fraction := match mantissa.dropWhile fun c => c ≠ '.' with
    | [] => none
    | _ :: rest => some rest
  (whole, fraction, exponent)

/-- Whether a word is a float. Among the numbers that exceed every double only the negative ones are
floats. -/
def isFloat (cs : List Char) : Bool :=
  let (negative, rest) := signed cs
  if rest = "inf".toList || rest = "nan".toList then true
  else
    let (whole, fraction, exponent) := floatParts rest
    match digits? Char.isDigit whole with
    | none => false
    | some wholeDigits =>
      let fractionDigits := match fraction with
        | none => some []
        | some cs => digits? Char.isDigit cs
      let power := match exponent with
        | none => some 0
        | some cs => signedNumber? cs
      match fractionDigits, power with
      | some fractionDigits, some power =>
        isWhole wholeDigits && (fraction.isSome || exponent.isSome) &&
          (negative || !Double.exceeds (baseValue 10 (wholeDigits ++ fractionDigits))
            (power - fractionDigits.length))
      | _, _ => false

/-- The key under which a date or time is kept. -/
def dateKey : String := "$__toml_private_datetime"

def scalarValue? (cs : List Char) : Option Value :=
  if cs = "true".toList then some (.flag true)
  else if cs = "false".toList then some (.flag false)
  else
    match integer? cs with
    | some value => some value
    | none =>
      if isFloat cs then some .float
      else (readDateTime cs).map fun date => .table [(dateKey, .text (String.ofList date.chars))]

def isScalarChar (c : Char) : Bool :=
  c.isAlphanum || c = '+' || c = '-' || c = '_' || c = '.' || c = ':'

/-- The word that stands here; a blank between a date and a time belongs to it. -/
def scalarWord (cs : List Char) : List Char :=
  let word := cs.takeWhile isScalarChar
  match readDate word, cs.dropWhile isScalarChar with
  | some (_, []), ' ' :: rest =>
    let time := rest.takeWhile isScalarChar
    if (readTime time).isSome then word ++ ' ' :: time else word
  | _, _ => word

def readScalar (cs : List Char) : Option (Value × List Char) :=
  let word := scalarWord cs
  (scalarValue? word).map fun value => (value, cs.drop word.length)

end UnitFacts.Toml

import UnitFacts.Json.Number

/-!
Dates and times of TOML, and the one text that each of them has: a capital `T` between date and
time, a capital `Z` for universal time, at most nine digits of a second and no zeros at their end.
-/

namespace UnitFacts.Toml

structure Date where
  year : Nat
  month : Nat
  day : Nat
  deriving DecidableEq, Repr

structure Time where
  hour : Nat
  minute : Nat
  second : Nat
  nanosecond : Nat := 0
  deriving DecidableEq, Repr

/-- The distance from universal time. -/
inductive Offset where
  | universal
  | minutes (count : Int)
  deriving DecidableEq, Repr

structure DateTime where
  date : Option Date := none
  time : Option Time := none
  offset : Option Offset := none
  deriving DecidableEq, Repr

/-! ### Text -/

/-- A number with zeros in front, so that it has at least `width` digits. -/
def padded (width value : Nat) : List Char :=
  let digits := Nat.toDigits 10 value
  List.replicate (width - digits.length) '0' ++ digits

def Date.chars (date : Date) : List Char :=
  padded 4 date.year ++ '-' :: padded 2 date.month ++ '-' :: padded 2 date.day

/-- How many digits of a second are kept. -/
def secondDigits : Nat := 9

def fractionChars (nanosecond : Nat) : List Char :=
  if nanosecond = 0 then []
  else '.' :: ((padded secondDigits nanosecond).reverse.dropWhile fun c => c = '0').reverse

def Time.chars (time : Time) : List Char :=
  padded 2 time.hour ++ ':' :: padded 2 time.minute ++ ':' :: padded 2 time.second ++
    fractionChars time.nanosecond

def Offset.chars : Offset → List Char
  | .universal => ['Z']
  | .minutes count =>
    (if count < 0 then '-' else '+') ::
      (padded 2 (count.natAbs / 60) ++ ':' :: padded 2 (count.natAbs % 60))

def DateTime.chars (value : DateTime) : List Char :=
  let date := (value.date.map Date.chars).getD []
  let time := (value.time.map Time.chars).getD []
  let mark := if value.date.isSome && value.time.isSome then ['T'] else []
  date ++ mark ++ time ++ (value.offset.map Offset.chars).getD []

/-! ### Reading -/

def number (digits : List Char) : Nat := Json.Number.digitsValue digits

def isLeapYear (year : Nat) : Bool := year % 4 = 0 && (year % 100 ≠ 0 || year % 400 = 0)

def daysIn (year month : Nat) : Nat :=
  if month = 2 then (if isLeapYear year then 29 else 28)
  else if month = 4 || month = 6 || month = 9 || month = 11 then 30
  else 31

/-- A full date, and what follows it. -/
def readDate (cs : List Char) : Option (Date × List Char) :=
  match cs with
  | a :: b :: c :: d :: '-' :: e :: f :: '-' :: g :: h :: rest =>
    let date : Date := ⟨number [a, b, c, d], number [e, f], number [g, h]⟩
    if [a, b, c, d, e, f, g, h].all Char.isDigit && 1 ≤ date.month && date.month ≤ 12 &&
        1 ≤ date.day && date.day ≤ daysIn date.year date.month then some (date, rest)
    else none
  | _ => none

/-- The digits after the point of a second; those beyond the ninth are dropped. -/
def nanoseconds (digits : List Char) : Nat :=
  let kept := digits.take secondDigits
  number (kept ++ List.replicate (secondDigits - kept.length) '0')

/-- A time of day with seconds, and what follows it. -/
def readTime (cs : List Char) : Option (Time × List Char) :=
  match cs with
  | a :: b :: ':' :: c :: d :: ':' :: e :: f :: rest =>
    let time : Time := ⟨number [a, b], number [c, d], number [e, f], 0⟩
    if [a, b, c, d, e, f].all Char.isDigit && time.hour ≤ 23 && time.minute ≤ 59 && time.second ≤ 60 then
      match rest with
      | '.' :: fraction =>
        let digits := fraction.takeWhile Char.isDigit
        if digits.isEmpty then none
        else some ({ time with nanosecond := nanoseconds digits }, fraction.dropWhile Char.isDigit)
      | _ => some (time, rest)
    else none
  | _ => none

/-- The offset that stands here, if there is one; nothing may follow it. -/
def readOffset (cs : List Char) : Option (Option Offset) :=
  match cs with
  | [] => some none
  | ['Z'] | ['z'] => some (some .universal)
  | [sign, a, b, ':', c, d] =>
    let hours := number [a, b]
    let minutes := number [c, d]
    let count : Int := hours * 60 + minutes
    if (sign = '+' || sign = '-') && [a, b, c, d].all Char.isDigit && hours ≤ 23 && minutes ≤ 59 then
      some (some (.minutes (if sign = '-' then -count else count)))
    else none
  | _ => none

/-- The date, the time or both in a word. -/
def readDateTime (cs : List Char) : Option DateTime :=
  match readDate cs with
  | some (date, []) => some { date }
  | some (date, mark :: rest) =>
    if mark = 'T' || mark = 't' || mark = ' ' then
      match readTime rest with
      | some (time, rest) => (readOffset rest).map fun offset => ⟨date, time, offset⟩
      | none => none
    else none
  | none =>
    match readTime cs with
    | some (time, []) => some { time }
    | _ => none

end UnitFacts.Toml

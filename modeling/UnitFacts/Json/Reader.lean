import UnitFacts.Json.Written

/-!
The strict JSON reader. One value with nothing but blanks around it; no comments, trailing commas,
leading zeros or raw control characters. A text in which a `\u` escape of half a surrogate pair is not
followed by the other half is read as one without a value. Nesting is bounded only by the length of
the document.
-/

namespace UnitFacts.Json

def isBlank (c : Char) : Bool := c = ' ' || c = '\t' || c = '\n' || c = '\r'

def skipBlank (cs : List Char) : List Char := cs.dropWhile isBlank

def hexValue? (c : Char) : Option Nat :=
  if '0' ≤ c ∧ c ≤ '9' then some (c.toNat - 48)
  else if 'a' ≤ c ∧ c ≤ 'f' then some (c.toNat - 87)
  else if 'A' ≤ c ∧ c ≤ 'F' then some (c.toNat - 55)
  else none

/-- The 16-bit unit that four hexadecimal digits spell. -/
def unit? (a b c d : Char) : Option Nat := do
  let a ← hexValue? a
  let b ← hexValue? b
  let c ← hexValue? c
  let d ← hexValue? d
  return ((a * 16 + b) * 16 + c) * 16 + d

def isHighSurrogate (unit : Nat) : Bool := 0xD800 ≤ unit && unit < 0xDC00

def isLowSurrogate (unit : Nat) : Bool := 0xDC00 ≤ unit && unit < 0xE000

/-- The character that a pair of surrogates stands for. -/
def pairChar (high low : Nat) : Char := Char.ofNat (0x10000 + (high - 0xD800) * 0x400 + (low - 0xDC00))

/-- The character after a backslash, for the escapes of one letter. -/
def simpleEscape? (c : Char) : Option Char :=
  if c = '"' then some '"'
  else if c = '\\' then some '\\'
  else if c = '/' then some '/'
  else if c = 'b' then some '\x08'
  else if c = 'f' then some '\x0c'
  else if c = 'n' then some '\n'
  else if c = 'r' then some '\r'
  else if c = 't' then some '\t'
  else none

/-- The text that code units spell, unless half of a pair stands alone. -/
def decodeUnits : List Nat → Option (List Char)
  | [] => some []
  | [unit] => if isHighSurrogate unit || isLowSurrogate unit then none else some [Char.ofNat unit]
  | unit :: next :: rest =>
    if isHighSurrogate unit && isLowSurrogate next then
      (decodeUnits rest).map (pairChar unit next :: ·)
    else if isHighSurrogate unit || isLowSurrogate unit then none
    else (decodeUnits (next :: rest)).map (Char.ofNat unit :: ·)

/-- Reads a text after its opening quote; gives its code units, a character as one of them, and what
follows the closing quote. -/
def readUnits : List Char → Option (List Nat × List Char)
  | [] => none
  | '"' :: rest => some ([], rest)
  | '\\' :: 'u' :: a :: b :: c :: d :: rest =>
    match unit? a b c d with
    | none => none
    | some unit => (readUnits rest).map fun (units, r) => (unit :: units, r)
  | '\\' :: c :: rest =>
    match simpleEscape? c with
    | none => none
    | some c => (readUnits rest).map fun (units, r) => (c.toNat :: units, r)
  | c :: rest =>
    if c = '\\' ∨ c.toNat < 32 then none
    else (readUnits rest).map fun (units, r) => (c.toNat :: units, r)

/-- Reads a text after its opening quote; gives the text, if it has a value, and what follows. -/
def readText (cs : List Char) : Option (Option String × List Char) :=
  (readUnits cs).map fun (units, rest) => ((decodeUnits units).map String.ofList, rest)

/-- The digits of an integer part: a single zero, or a run that starts with another digit. -/
def readWhole (cs : List Char) : Option (List Char × List Char) :=
  match cs with
  | '0' :: rest => some (['0'], rest)
  | c :: rest => if c.isDigit then some (c :: rest.takeWhile Char.isDigit, rest.dropWhile Char.isDigit) else none
  | [] => none

/-- The digits of a fraction and what follows them, if a point stands here. -/
def readFraction (cs : List Char) : Option (List Char × List Char) :=
  match cs with
  | '.' :: rest =>
    if (rest.takeWhile Char.isDigit).isEmpty then none
    else some (rest.takeWhile Char.isDigit, rest.dropWhile Char.isDigit)
  | _ => some ([], cs)

/-- The exponent and what follows it, if the letter `e` stands here. -/
def readExponent (cs : List Char) : Option (Option Int × List Char) :=
  match cs with
  | c :: rest =>
    if c = 'e' ∨ c = 'E' then
      let negative := rest.head? = some '-'
      let digits := if rest.head? = some '-' ∨ rest.head? = some '+' then rest.tail else rest
      if (digits.takeWhile Char.isDigit).isEmpty then none
      else
        let size : Int := Number.digitsValue (digits.takeWhile Char.isDigit)
        some (some (if negative then -size else size), digits.dropWhile Char.isDigit)
    else some (none, cs)
  | [] => some (none, cs)

def readUnsigned (negative : Bool) (cs : List Char) : Option (Number.Literal × List Char) := do
  let (whole, rest) ← readWhole cs
  let (fraction, rest) ← readFraction rest
  let (exponent, rest) ← readExponent rest
  return (⟨negative, whole, fraction, exponent⟩, rest)

def readNumber (cs : List Char) : Option (Number.Literal × List Char) :=
  match cs with
  | '-' :: rest => readUnsigned true rest
  | _ => readUnsigned false cs

mutual

/-- Reads one value, blanks before it skipped; `fuel` bounds the number of nested or following
reads, and the length of the text always suffices. -/
def readValue : Nat → List Char → Option (Written × List Char)
  | 0, _ => none
  | fuel + 1, cs =>
    match skipBlank cs with
    | 'n' :: 'u' :: 'l' :: 'l' :: rest => some (.null, rest)
    | 't' :: 'r' :: 'u' :: 'e' :: rest => some (.bool true, rest)
    | 'f' :: 'a' :: 'l' :: 's' :: 'e' :: rest => some (.bool false, rest)
    | '"' :: rest => (readText rest).map fun (text, r) => (.str text, r)
    | '[' :: rest =>
      match skipBlank rest with
      | ']' :: rest' => some (.arr [], rest')
      | _ =>
        match readValue fuel rest with
        | none => none
        | some (item, rest') => (readItems fuel rest').map fun (items, r) => (.arr (item :: items), r)
    | '\x7b' :: rest =>
      match skipBlank rest with
      | '\x7d' :: rest' => some (.obj [], rest')
      | _ =>
        match readMember fuel rest with
        | none => none
        | some (entry, rest') => (readMembers fuel rest').map fun (members, r) => (.obj (entry :: members), r)
    | rest => (readNumber rest).map fun (literal, r) => (.num (Number.ofLiteral? literal), r)

/-- Reads the items after the first one, up to the closing bracket. -/
def readItems : Nat → List Char → Option (List Written × List Char)
  | 0, _ => none
  | fuel + 1, cs =>
    match skipBlank cs with
    | ']' :: rest => some ([], rest)
    | ',' :: rest =>
      match readValue fuel rest with
      | none => none
      | some (item, rest') => (readItems fuel rest').map fun (items, r) => (item :: items, r)
    | _ => none

/-- Reads a key, its colon and its value. -/
def readMember : Nat → List Char → Option ((Option String × Written) × List Char)
  | 0, _ => none
  | fuel + 1, cs =>
    match skipBlank cs with
    | '"' :: rest =>
      match readText rest with
      | none => none
      | some (key, rest') =>
        match skipBlank rest' with
        | ':' :: rest'' =>
          (readValue fuel rest'').map fun (value, r) => ((key, value), r)
        | _ => none
    | _ => none

/-- Reads the members after the first one, up to the closing brace. -/
def readMembers : Nat → List Char → Option (List (Option String × Written) × List Char)
  | 0, _ => none
  | fuel + 1, cs =>
    match skipBlank cs with
    | '\x7d' :: rest => some ([], rest)
    | ',' :: rest =>
      match readMember fuel rest with
      | none => none
      | some (entry, rest') => (readMembers fuel rest').map fun (members, r) => (entry :: members, r)
    | _ => none

end

/-- The document in a text, if the text is well formed. -/
def Written.parse? (text : String) : Option Written :=
  let cs := text.toList
  match readValue (2 * cs.length + 2) cs with
  | some (value, rest) => if (skipBlank rest).isEmpty then some value else none
  | none => none

/-- The value of the document in a text. -/
def parse? (text : String) : Option Json := (Written.parse? text).bind Written.value?

end UnitFacts.Json

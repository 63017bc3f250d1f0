import UnitFacts.Settings.Value
import UnitFacts.Text.Basic
import UnitFacts.Text.Case
import UnitFacts.Toml.Text

/-!
Settings from environment variables. The name of a variable gives the path of a setting, its value
is read by a small grammar of its own: truth values, quoted texts, single characters, lists, tables,
numbers, and any other text up to a bracket or comma. A value that does not fit the grammar as a
whole is taken as it stands; only a quoted text that cannot be cut ends the reading of all settings.
-/

namespace UnitFacts.Settings.Environment

/-! ### Names -/

/-- What the names of our variables start with, in small or capital letters. -/
def marker : String := "CPPFACTS_"

/-- Makes a dot of every two underscores, from left to right. -/
def dotted : List Char → List Char
  | '_' :: '_' :: rest => '.' :: dotted rest
  | c :: rest => c :: dotted rest
  | [] => []

/-- What follows the marker in a name. -/
def afterMarker? (name : List Char) : Option (List Char) :=
  let start := name.take marker.length
  if start.map Char.toLower = marker.toList.map Char.toLower then some (name.drop marker.length)
  else none

/-- The path of the setting that a name stands for. -/
def path? (name : String) : Option (List String) :=
  match afterMarker? (Text.trim name.toList) with
  | none => none
  | some rest =>
    let parts := Text.splitOn '.' (Text.trim (dotted (Text.lower rest)))
    if parts.any List.isEmpty then none else some (parts.map String.ofList)

/-! ### Values -/

def isSkipped (c : Char) : Bool := c = ' ' || c = '\t' || c = '\n' || c = '\x0c' || c = '\r'

def skip (cs : List Char) : List Char := cs.dropWhile isSkipped

def isSeparator (c : Char) : Bool :=
  c = ',' || c = '\x7b' || c = '\x7d' || c = '[' || c = ']'

def isKeyChar (c : Char) : Bool := c.isAlphanum || c = '_' || c = '-'

def isDigits (cs : List Char) : Bool := !cs.isEmpty && cs.all Char.isDigit

def dropSign (cs : List Char) : List Char :=
  match cs with
  | '+' :: rest | '-' :: rest => rest
  | _ => cs

/-- Whether a word is a number in decimal or scientific form. -/
def isFloat (word : List Char) : Bool :=
  let isMark := fun c => c = 'e' || c = 'E'
  let mantissa := (dropSign word).takeWhile fun c => !isMark c
  let whole := mantissa.takeWhile Char.isDigit
  let fraction := mantissa.dropWhile Char.isDigit
  let exponentFits := match (dropSign word).dropWhile fun c => !isMark c with
    | [] => true
    | _ :: exponent => isDigits (dropSign exponent)
  let fractionFits := match fraction with
    | [] => !whole.isEmpty
    | '.' :: rest => rest.all Char.isDigit && !(whole.isEmpty && rest.isEmpty)
    | _ => false
  fractionFits && exponentFits

def numberOf (digits : List Char) : Nat :=
  digits.foldl (fun value c => value * 10 + (c.toNat - '0'.toNat)) 0

/-- A whole number that fits into 64 bits, without a sign or with one. -/
def integer? (word : List Char) : Option Int :=
  let digits := dropSign word
  let value := numberOf digits
  if !isDigits digits then none
  else if word.head? = some '-' then (if value ≤ 0x8000000000000000 then some (-value) else none)
  else if value < 0x10000000000000000 then some value
  else none

def ofWord (word : List Char) : Value :=
  if word.contains '.' && isFloat word then .float
  else
    match integer? word with
    | some value => .int value
    | none => .text (String.ofList word)

/-- Why a value is not read. -/
inductive Obstacle where
  /-- It does not fit the grammar. -/
  | mismatch
  /-- A quoted text would have to be cut inside of a character. -/
  | brokenCharacter
  deriving DecidableEq, Repr

/-- Whether the quote that closes a quoted text stands ahead. -/
def isClosed : List Char → Bool
  | [] => false
  | '\\' :: _ :: rest => isClosed rest
  | c :: rest => c = '"' || isClosed rest

/-- The text before the first escape, cut to as many bytes as it has characters. -/
def beforeEscape (plain : List Char) : Except Obstacle (List Char) :=
  if !plain.all Toml.isPlain then .error .mismatch
  else
    match Text.takeBytes? plain.length plain with
    | some kept => .ok kept
    | none => .error .brokenCharacter

/-- Reads a quoted text after its opening quote. -/
def readQuoted (cs : List Char) : Except Obstacle (String × List Char) := do
  let plain := cs.takeWhile fun c => c ≠ '"' && c ≠ '\\'
  let escaped := (cs.drop plain.length).head? = some '\\'
  if !isClosed cs then .error .mismatch
  else
    let kept ← if escaped then beforeEscape plain else .ok plain
    match Toml.readBasic cs with
    | some (text, rest) => .ok (String.ofList (kept ++ text.drop plain.length), rest)
    | none => .error .mismatch

def readKey (cs : List Char) : Except Obstacle (String × List Char) :=
  match cs with
  | '"' :: rest => readQuoted rest
  | _ =>
    let key := cs.takeWhile isKeyChar
    if key.isEmpty then .error .mismatch else .ok (String.ofList key, cs.dropWhile isKeyChar)

mutual

def readValue : Nat → List Char → Except Obstacle (Value × List Char)
  | 0, _ => .error .mismatch
  | fuel + 1, cs => do
    let (value, rest) ← readTight fuel (skip cs)
    return (value, skip rest)

/-- Reads a value with no blanks around it. -/
def readTight : Nat → List Char → Except Obstacle (Value × List Char)
  | 0, _ => .error .mismatch
  | fuel + 1, cs =>
    match cs with
    | 't' :: 'r' :: 'u' :: 'e' :: rest => .ok (.flag true, rest)
    | 'f' :: 'a' :: 'l' :: 's' :: 'e' :: rest => .ok (.flag false, rest)
    | '\x7b' :: rest => do
      let (entries, rest) ← readEntries fuel rest
      return (.ofEntries entries, rest)
    | '[' :: rest => do
      let (items, rest) ← readItems fuel rest
      return (.list items, rest)
    | '"' :: rest => do
      let (text, rest) ← readQuoted rest
      return (.text text, rest)
    | '\'' :: c :: '\'' :: rest => .ok (.letter c, rest)
    | '\'' :: _ => .error .mismatch
    | _ =>
      .ok (ofWord (Text.trim (cs.takeWhile fun c => !isSeparator c)),
        cs.dropWhile fun c => !isSeparator c)

/-- Reads the items of a list up to its closing bracket. -/
def readItems : Nat → List Char → Except Obstacle (List Value × List Char)
  | 0, _ => .error .mismatch
  | fuel + 1, cs =>
    match cs with
    | ']' :: rest => .ok ([], rest)
    | _ => do
      let (item, rest) ← readValue fuel cs
      match rest with
      | ',' :: rest =>
        let (items, rest) ← readItems fuel rest
        return (item :: items, rest)
      | ']' :: rest => return ([item], rest)
      | _ => .error .mismatch

/-- Reads the entries of a table up to its closing brace. -/
def readEntries : Nat → List Char → Except Obstacle (List (String × Value) × List Char)
  | 0, _ => .error .mismatch
  | fuel + 1, cs =>
    match cs with
    | '\x7d' :: rest => .ok ([], rest)
    | _ => do
      let (entry, rest) ← readEntry fuel cs
      match rest with
      | ',' :: rest =>
        let (entries, rest) ← readEntries fuel rest
        return (entry :: entries, rest)
      | '\x7d' :: rest => return ([entry], rest)
      | _ => .error .mismatch

def readEntry : Nat → List Char → Except Obstacle ((String × Value) × List Char)
  | 0, _ => .error .mismatch
  | fuel + 1, cs => do
    let (key, rest) ← readKey (skip cs)
    match skip rest with
    | '=' :: rest =>
      let (value, rest) ← readValue fuel rest
      return ((key, value), rest)
    | _ => .error .mismatch

end

/-- The value that a variable holds, unless a text in it cannot be cut. -/
def parse? (text : String) : Option Value :=
  let cs := text.toList
  match readValue (4 * cs.length + 4) cs with
  | .ok (value, []) => some value
  | .ok _ | .error .mismatch => some (.text text)
  | .error .brokenCharacter => none

/-- The settings that some variables give, later ones laid over earlier ones. -/
def layer? (environment : List (String × String)) : Option Value :=
  environment.foldlM (fun table (name, text) =>
    match path? name with
    | some path => (parse? text).map fun value => table.merge (.nest path value)
    | none => some table) .emptyTable

end UnitFacts.Settings.Environment

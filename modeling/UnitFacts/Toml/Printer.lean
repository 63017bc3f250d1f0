import UnitFacts.Json.Printer

/-!
The TOML printer. A document is a row of sections, each with a header (the first one may have none)
and its keys; one empty line stands between two sections. A text is written in the plainest of the
four styles that can hold it.
-/

namespace UnitFacts.Toml

/-! ### Texts -/

/-- Control characters that can only be written with a backslash. -/
def needsCode (c : Char) : Bool := (c.toNat < 32 && c ≠ '\t' && c ≠ '\n') || c.toNat = 127

/-- The length of the longest run of a character; `run` of them stand just before. -/
def longestRun (c : Char) (run : Nat) : List Char → Nat
  | [] => run
  | d :: rest => if d = c then longestRun c (run + 1) rest else max run (longestRun c 0 rest)

inductive Style where
  | basic
  | literal
  | longBasic
  | longLiteral
  deriving DecidableEq, Repr

namespace Style

def isLong : Style → Bool
  | .longBasic | .longLiteral => true
  | _ => false

def escapes : Style → Bool
  | .basic | .longBasic => true
  | _ => false

def quotes : Style → List Char
  | .basic => ['"']
  | .literal => ['\'']
  | .longBasic => ['"', '"', '"']
  | .longLiteral => ['\'', '\'', '\'']

/-- The first style that needs no escape. Without one, escapes are used. -/
def forText (cs : List Char) : Style :=
  let coded := cs.any needsCode
  let slashed := cs.contains '\\'
  let broken := cs.contains '\n'
  let doubles := longestRun '"' 0 cs
  let singles := longestRun '\'' 0 cs
  if !coded && !slashed && doubles = 0 && !broken then .basic
  else if !coded && singles = 0 && !broken then .literal
  else if !coded && !slashed && doubles ≤ 2 then .longBasic
  else if !coded && singles ≤ 2 then .longLiteral
  else if broken then .longBasic
  else .basic

/-- Keys have one-line styles only. -/
def forKey (cs : List Char) : Style :=
  let coded := cs.any needsCode || cs.contains '\n'
  if !coded && !cs.contains '\\' && !cs.contains '"' then .basic
  else if !coded && !cs.contains '\'' then .literal
  else .basic

end Style

def upperHexDigit (value : Nat) : Char := (Json.hexDigit value).toUpper

/-- A character other than the quote inside a basic text. -/
def escapeChar (long : Bool) (c : Char) : List Char :=
  if c = '\x08' then ['\\', 'b']
  else if c = '\t' then ['\\', 't']
  else if c = '\n' then (if long then ['\n'] else ['\\', 'n'])
  else if c = '\x0c' then ['\\', 'f']
  else if c = '\r' then ['\\', 'r']
  else if c = '\\' then ['\\', '\\']
  else if needsCode c then
    ['\\', 'u', '0', '0', upperHexDigit (c.toNat / 16), upperHexDigit (c.toNat % 16)]
  else [c]

/-- The inside of a basic text. A long one may have two quotes in a row, `run` of them stand just
before; every further quote is escaped. -/
def escapeAll (long : Bool) (run : Nat) : List Char → List Char
  | [] => []
  | c :: rest =>
    if c = '"' then
      if long && run < 2 then '"' :: escapeAll long (run + 1) rest
      else '\\' :: '"' :: escapeAll long 0 rest
    else escapeChar long c ++ escapeAll long 0 rest

def quoteAs (style : Style) (cs : List Char) : List Char :=
  let lead := if style.isLong && cs.contains '\n' then ['\n'] else []
  let inside := if style.escapes then escapeAll style.isLong 0 cs else cs
  style.quotes ++ lead ++ inside ++ style.quotes

def quote (text : String) : String :=
  String.ofList (quoteAs (.forText text.toList) text.toList)

def isBareKey (cs : List Char) : Bool :=
  !cs.isEmpty && cs.all fun c => c.isAlphanum || c = '_' || c = '-'

def keyText (key : String) : String :=
  if isBareKey key.toList then key
  else String.ofList (quoteAs (.forKey key.toList) key.toList)

/-! ### Sections -/

inductive Item where
  | number (value : Nat)
  | flag (value : Bool)
  | text (value : String)
  | texts (values : List String)
  deriving DecidableEq, Repr

/-- Two or more texts stand on lines of their own. -/
def Item.render : Item → String
  | .number value => toString value
  | .flag value => if value then "true" else "false"
  | .text value => quote value
  | .texts [] => "[]"
  | .texts [value] => "[" ++ quote value ++ "]"
  | .texts values => "[\n" ++ String.join (values.map fun value => "    " ++ quote value ++ ",\n") ++ "]"

structure Section where
  path : List String := []
  entries : List (String × Item)
  deriving DecidableEq, Repr

def Section.render (s : Section) : String :=
  (if s.path.isEmpty then "" else "[" ++ ".".intercalate (s.path.map keyText) ++ "]\n") ++
    String.join (s.entries.map fun (key, item) => keyText key ++ " = " ++ item.render ++ "\n")

def render (sections : List Section) : String := "\n".intercalate (sections.map Section.render)

end UnitFacts.Toml

import UnitFacts.Json.Reader

/-!
The texts of TOML: basic texts with escapes, literal texts without, each on one line or on several.
Each reader starts after the opening quotes and gives the text and what follows the closing ones.
-/

namespace UnitFacts.Toml

def isSpace (c : Char) : Bool := c = ' ' || c = '\t'

/-- Characters that may stand unescaped in a text or a comment. -/
def isPlain (c : Char) : Bool := c = '\t' || (32 ≤ c.toNat && c.toNat ≠ 127)

/-- What follows a line end that stands here. -/
def afterNewline? : List Char → Option (List Char)
  | '\n' :: rest => some rest
  | '\r' :: '\n' :: rest => some rest
  | _ => none

def dropNewline (cs : List Char) : List Char := (afterNewline? cs).getD cs

/-- The character with a code, unless it is half of a surrogate pair or too large. -/
def scalar? (code : Nat) : Option Char := if code.isValidChar then some (Char.ofNat code) else none

/-- The number that hexadecimal digits spell. -/
def hexNumber? (digits : List Char) : Option Nat :=
  digits.foldl (fun value c => do return (← value) * 16 + (← Json.hexValue? c)) (some 0)

def simpleEscape? (c : Char) : Option Char :=
  if c = 'b' then some '\x08'
  else if c = 't' then some '\t'
  else if c = 'n' then some '\n'
  else if c = 'f' then some '\x0c'
  else if c = 'r' then some '\r'
  else if c = '"' then some '"'
  else if c = '\\' then some '\\'
  else none

/-- Prepends a character to the text that a reader gives. -/
def withChar (c : Option Char) (read : Option (List Char × List Char)) : Option (List Char × List Char) :=
  match c, read with
  | some c, some (cs, rest) => some (c :: cs, rest)
  | _, _ => none

def readBasic : List Char → Option (List Char × List Char)
  | [] => none
  | '"' :: rest => some ([], rest)
  | '\\' :: 'u' :: a :: b :: c :: d :: rest =>
    withChar ((hexNumber? [a, b, c, d]).bind scalar?) (readBasic rest)
  | '\\' :: 'U' :: a :: b :: c :: d :: e :: f :: g :: h :: rest =>
    withChar ((hexNumber? [a, b, c, d, e, f, g, h]).bind scalar?) (readBasic rest)
  | '\\' :: c :: rest => withChar (simpleEscape? c) (readBasic rest)
  | c :: rest => if isPlain c && c ≠ '\\' then withChar (some c) (readBasic rest) else none

def readLiteral : List Char → Option (List Char × List Char)
  | [] => none
  | '\'' :: rest => some ([], rest)
  | c :: rest => if isPlain c then withChar (some c) (readLiteral rest) else none

/-- Reads a basic text of several lines. A backslash at the end of a line takes out all blanks up to
the next character; `trimming` says that such blanks are being passed over. -/
def readLongBasic (trimming : Bool) : List Char → Option (List Char × List Char)
  | [] => none
  | '"' :: '"' :: '"' :: '"' :: '"' :: rest => some (['"', '"'], rest)
  | '"' :: '"' :: '"' :: '"' :: rest => some (['"'], rest)
  | '"' :: '"' :: '"' :: rest => some ([], rest)
  | '\r' :: '\n' :: rest =>
    if trimming then readLongBasic true rest else withChar (some '\n') (readLongBasic false rest)
  | '\\' :: 'u' :: a :: b :: c :: d :: rest =>
    withChar ((hexNumber? [a, b, c, d]).bind scalar?) (readLongBasic false rest)
  | '\\' :: 'U' :: a :: b :: c :: d :: e :: f :: g :: h :: rest =>
    withChar ((hexNumber? [a, b, c, d, e, f, g, h]).bind scalar?) (readLongBasic false rest)
  | '\\' :: c :: rest =>
    if (afterNewline? ((c :: rest).dropWhile isSpace)).isSome then readLongBasic true (c :: rest)
    else withChar (simpleEscape? c) (readLongBasic false rest)
  | c :: rest =>
    if trimming && (isSpace c || c = '\n') then readLongBasic true rest
    else if c = '\n' || (isPlain c && c ≠ '\\') then withChar (some c) (readLongBasic false rest)
    else none

def readLongLiteral : List Char → Option (List Char × List Char)
  | [] => none
  | '\'' :: '\'' :: '\'' :: '\'' :: '\'' :: rest => some (['\'', '\''], rest)
  | '\'' :: '\'' :: '\'' :: '\'' :: rest => some (['\''], rest)
  | '\'' :: '\'' :: '\'' :: rest => some ([], rest)
  | '\r' :: '\n' :: rest => withChar (some '\n') (readLongLiteral rest)
  | c :: rest => if c = '\n' || isPlain c then withChar (some c) (readLongLiteral rest) else none

end UnitFacts.Toml

import UnitFacts.Source.Token
import UnitFacts.Text.Digit
import UnitFacts.Text.Letter

/-!
The lexical structure of C++. `pieces` cuts a text into blanks, comments and tokens; each step
decides from the mode and the characters ahead how long the next piece is, so the pieces always
join to the text.

Words, numbers and punctuation are single tokens, punctuation by longest match. A string or
character literal gives one token for its opening quote with its encoding mark, one for each run of
plain content and for each escape, and one for its closing quote; a raw string gives its delimiters
as tokens of their own. A directive `#word` is one token; the header name of `#include <...>` and
the replacement text of `#define` are one token each. Two closing angle brackets of nested template
argument lists are two tokens.
-/

namespace UnitFacts.Lexer

/-- What the lexer expects next. -/
inductive Mode where
  /-- Ordinary code. -/
  | code
  /-- After `#include`. -/
  | header
  /-- After `#define`, before the name. -/
  | macroName
  /-- Right after the name of a macro. -/
  | macroHead
  /-- In the parameter list of a macro. -/
  | macroParams
  /-- Before the replacement text of a macro. -/
  | macroBody
  /-- In a literal that the given quote closes. -/
  | literal (quote : Char)
  /-- After the opening quote of a raw string. -/
  | rawMark
  /-- Before the parenthesis that opens a raw string. -/
  | rawOpen (mark : List Char)
  /-- In the content of a raw string. -/
  | rawBody (mark : List Char)
  /-- Before the parenthesis that closes a raw string. -/
  | rawClose (mark : List Char)
  /-- Before the closing delimiter of a raw string. -/
  | rawEnd (mark : List Char)
  /-- Before the closing quote of a raw string. -/
  | rawQuote
  deriving DecidableEq, Repr

/-- The last token, as far as a `<` after it cares. -/
inductive Last where
  | template
  | word
  | other
  deriving DecidableEq, Repr

structure State where
  mode : Mode := .code
  /-- Open template argument lists. -/
  angles : Nat := 0
  /-- The lists that are open around each open parenthesis or bracket, the innermost first. -/
  outer : List Nat := []
  /-- Inside an attribute, the number of open brackets. -/
  attrDepth : Option Nat := none
  last : Last := .other
  /-- Nothing stands between the last token and here. -/
  adjacent : Bool := false
  deriving DecidableEq, Repr

/-- How the next piece is cut: it has `extra + 1` characters. -/
structure Cut where
  extra : Nat
  kept : Bool
  state : State

def isWordStart (c : Char) : Bool := c = '_' || (Text.isAlphanumeric c && !Text.isDecimalDigit c)

def isWordChar (c : Char) : Bool := c = '_' || Text.isAlphanumeric c

def isSpace (c : Char) : Bool := c = ' ' || c = '\t'

/-- How many characters in front belong to a class. -/
def runLength (inClass : Char → Bool) (cs : List Char) : Nat := (cs.takeWhile inClass).length

/-- The length of a line comment; a backslash takes the character after it along, so that it may
continue the comment on the next line. -/
def lineCommentLength : List Char → Nat
  | [] => 0
  | '\\' :: '\r' :: '\n' :: rest => 3 + lineCommentLength rest
  | '\\' :: _ :: rest => 2 + lineCommentLength rest
  | '\n' :: _ => 0
  | _ :: rest => 1 + lineCommentLength rest

/-- The length of a block comment after its opening, its closing included. -/
def blockCommentLength : List Char → Nat
  | [] => 0
  | '*' :: '/' :: _ => 2
  | _ :: rest => 1 + blockCommentLength rest

/-- The length of the replacement text of a macro: the rest of the line, up to a block comment; a
backslash at the end of the line continues it. -/
def macroBodyLength : List Char → Nat
  | [] => 0
  | '\\' :: '\r' :: '\n' :: rest => 3 + macroBodyLength rest
  | '\\' :: '\n' :: rest => 2 + macroBodyLength rest
  | '\n' :: _ => 0
  | '/' :: '*' :: _ => 0
  | _ :: rest => 1 + macroBodyLength rest

/-- Digits of a class, with a separator allowed between two of them. -/
def digitsLength (inClass : Char → Bool) : List Char → Nat
  | [] => 0
  | '\'' :: c :: rest => if inClass c then 2 + digitsLength inClass rest else 0
  | c :: rest => if inClass c then 1 + digitsLength inClass rest else 0

def isHexDigit (c : Char) : Bool :=
  c.isDigit || ('a' ≤ c && c ≤ 'f') || ('A' ≤ c && c ≤ 'F')

def isNumberSuffix (c : Char) : Bool := ['u', 'U', 'l', 'L', 'f', 'F'].contains c

/-- The length of an exponent marked by one of two letters. -/
def exponentLength (marks : List Char) (cs : List Char) : Nat :=
  match cs with
  | mark :: rest =>
    if marks.contains mark then
      let sign := if rest.head? = some '+' || rest.head? = some '-' then 1 else 0
      let digits := digitsLength Char.isDigit (rest.drop sign)
      if digits = 0 then 0 else 1 + sign + digits
    else 0
  | [] => 0

/-- The length of digits, fraction, exponent and suffix of a number. -/
def numberTailLength (inClass : Char → Bool) (marks : List Char) (cs : List Char) : Nat :=
  let whole := digitsLength inClass cs
  let rest := cs.drop whole
  let fraction := if rest.head? = some '.' then 1 + digitsLength inClass rest.tail else 0
  let rest := rest.drop fraction
  let exponent := exponentLength marks rest
  whole + fraction + exponent + runLength isNumberSuffix (rest.drop exponent)

def numberLength (cs : List Char) : Nat :=
  match cs with
  | '0' :: 'x' :: rest | '0' :: 'X' :: rest => 2 + numberTailLength isHexDigit ['p', 'P'] rest
  | '0' :: 'b' :: rest | '0' :: 'B' :: rest => 2 + numberTailLength Char.isDigit [] rest
  | _ => numberTailLength Char.isDigit ['e', 'E'] cs

def startsNumber (cs : List Char) : Bool :=
  match cs with
  | '.' :: c :: _ => c.isDigit
  | c :: _ => c.isDigit
  | [] => false

/-- The openings of literals that begin with a word character or a quote, longest first. -/
def literalOpenings : List (String × Mode) :=
  [("u8R\"", .rawMark), ("LR\"", .rawMark), ("uR\"", .rawMark), ("UR\"", .rawMark),
   ("R\"", .rawMark), ("u8\"", .literal '"'), ("L\"", .literal '"'), ("u\"", .literal '"'),
   ("U\"", .literal '"'), ("\"", .literal '"'), ("u8'", .literal '\''), ("L'", .literal '\''),
   ("u'", .literal '\''), ("U'", .literal '\''), ("'", .literal '\'')]

def opening? (cs : List Char) : Option (String × Mode) :=
  literalOpenings.find? fun (opening, _) => opening.toList.isPrefixOf cs

/-- The length of an escape after its backslash. -/
def escapeLength (cs : List Char) : Nat :=
  match cs with
  | [] => 0
  | 'x' :: rest => 1 + min 4 (runLength isHexDigit rest)
  | 'u' :: rest => 1 + min 4 (runLength isHexDigit rest)
  | 'U' :: rest => 1 + min 8 (runLength isHexDigit rest)
  | c :: rest => if c.isDigit then min 3 (runLength Char.isDigit (c :: rest)) else 1

def punctuation : List String :=
  ["<<=", ">>=", "<=>", "...", "::", "->", "++", "--", "+=", "-=", "*=", "/=", "%=", "&=", "^=",
   "|=", "<<", ">>", "<=", ">=", "==", "!=", "&&", "||", ".*", "+", "-", "*", "/", "%", "=", "<",
   ">", "!", "~", "&", "|", "^", "?", ":", ";", ",", ".", "(", ")", "[", "]", "\x7b", "\x7d"]

def punctuation? (cs : List Char) : Option String :=
  punctuation.find? fun mark => mark.toList.isPrefixOf cs

namespace State

/-- The state after a token that is no word. -/
def afterToken (state : State) : State := { state with last := .other, adjacent := true }

def afterBlank (state : State) : State := { state with adjacent := false }

def afterWord (state : State) (word : List Char) : State :=
  { state with last := if word = "template".toList then .template else .word, adjacent := true }

/-- Whether a `<` here opens a template argument list. -/
def opensAngle (state : State) : Bool :=
  state.last = .template || (state.last = .word && state.adjacent)

/-- Template argument lists in parentheses or brackets end with them. -/
def afterOpening (state : State) : State :=
  { state with angles := 0, outer := state.angles :: state.outer }

def afterClosing (state : State) : State :=
  { state with angles := state.outer.headD 0, outer := state.outer.tail }

/-- The state after a mark that ends every template argument list. -/
def afterBreak (state : State) : State :=
  { state with angles := 0, outer := state.outer.map fun _ => 0 }

/-- The state after a mark of punctuation. -/
def afterMark (state : State) (mark : String) : State :=
  let next := state.afterToken
  if mark = "<" then { next with angles := if state.opensAngle then state.angles + 1 else state.angles }
  else if mark = ">" then { next with angles := state.angles - 1 }
  else if mark = ";" || mark = "\x7b" || mark = "\x7d" then next.afterBreak
  else if mark = "(" then next.afterOpening
  else if mark = "[" then { next.afterOpening with attrDepth := state.attrDepth.map (· + 1) }
  else if mark = "]" then { next.afterClosing with attrDepth := state.attrDepth.map (· - 1) }
  else if mark = ")" then
    { next.afterClosing with mode := if state.mode = .macroParams then .macroBody else state.mode }
  else next

end State

/-- Cuts a token of `length` characters. -/
def keep (length : Nat) (state : State) : Cut := ⟨length - 1, true, state⟩

/-- Passes over `length` characters. -/
def skip (length : Nat) (state : State) : Cut := ⟨length - 1, false, state.afterBlank⟩

/-- The mode after a directive. -/
def directiveMode (word : List Char) : Mode :=
  if word = "include".toList then .header
  else if word = "define".toList then .macroName
  else .code

def cutDirective (state : State) (rest : List Char) : Cut :=
  let spaces := runLength isSpace rest
  let word := (rest.drop spaces).takeWhile isWordChar
  keep (1 + spaces + word.length) { state.afterToken with mode := directiveMode word }

def cutWord (state : State) (cs : List Char) : Cut :=
  let word := cs.takeWhile isWordChar
  let mode := if state.mode = .macroName then .macroHead else state.mode
  keep word.length { state.afterWord word with mode }

def cutMark (state : State) (cs : List Char) : Cut :=
  match punctuation? cs with
  | none => skip 1 state
  | some mark =>
    if mark = ">>" && 1 ≤ state.angles then keep 1 (state.afterMark ">")
    else keep mark.length (state.afterMark mark)

/-- The next piece of code; `startsAttribute` tells whether two opening brackets open an attribute. -/
def cutCode (startsAttribute : List Char → Bool) (state : State) (cs : List Char) : Cut :=
  match cs with
  | [] => skip 1 state
  | '/' :: '/' :: rest => skip (2 + lineCommentLength rest) state
  | '/' :: '*' :: rest => skip (2 + blockCommentLength rest) state
  | '#' :: rest => cutDirective state rest
  | c :: rest =>
    if Text.isBlank c then skip (runLength Text.isBlank (c :: rest)) state
    else if startsNumber (c :: rest) then keep (numberLength (c :: rest)) state.afterToken
    else
      match opening? (c :: rest) with
      | some (opening, mode) => keep opening.length { state.afterToken with mode }
      | none =>
        if isWordStart c then cutWord state (c :: rest)
        else if c = '[' && rest.head? = some '[' && startsAttribute rest.tail then
          keep 2 { state.afterToken with attrDepth := some 0 }
        else if c = ']' && rest.head? = some ']' && state.attrDepth = some 0 then
          keep 2 { state.afterToken with attrDepth := none }
        else cutMark state (c :: rest)

def cutLiteral (state : State) (quote : Char) (cs : List Char) : Cut :=
  let isPlain := fun c => c ≠ quote && c ≠ '\\' && c ≠ '\n'
  match cs with
  | [] => skip 1 state
  | c :: rest =>
    if c = quote then keep 1 { state.afterToken with mode := .code }
    else if c = '\\' then keep (1 + escapeLength rest) state
    else if c = '\n' then skip 1 { state with mode := .code }
    else keep (runLength isPlain (c :: rest)) state

/-- The content of a raw string, up to the closing delimiter. -/
def rawBodyLength (ending : List Char) : List Char → Nat
  | [] => 0
  | c :: rest => if ending.isPrefixOf (c :: rest) then 0 else 1 + rawBodyLength ending rest

/-- The next piece. In a mode whose piece may be empty the piece of the following mode is cut. -/
def cutWith (startsAttribute : List Char → Bool) (state : State) (cs : List Char) : Cut :=
  match state.mode with
  | .code | .macroParams => cutCode startsAttribute state cs
  | .header =>
    match cs with
    | '<' :: rest =>
      keep (2 + runLength (fun c => c ≠ '>' && c ≠ '\n') rest) { state.afterToken with mode := .code }
    | c :: _ =>
      if isSpace c then skip (runLength isSpace cs) state else cutCode startsAttribute { state with mode := .code } cs
    | [] => skip 1 state
  | .macroName =>
    match cs with
    | c :: _ =>
      if isSpace c then skip (runLength isSpace cs) state
      else if isWordStart c then cutWord state cs
      else cutCode startsAttribute { state with mode := .code } cs
    | [] => skip 1 state
  | .macroHead | .macroBody =>
    match cs with
    | c :: _ =>
      if c = '(' && state.mode = .macroHead then keep 1 { state.afterToken with mode := .macroParams }
      else if isSpace c then skip (runLength isSpace cs) { state with mode := .macroBody }
      else
        let body := macroBodyLength cs
        if body = 0 then cutCode startsAttribute { state with mode := .code } cs
        else keep body { state.afterToken with mode := .code }
    | [] => skip 1 state
  | .literal quote => cutLiteral state quote cs
  | .rawMark =>
    let mark := cs.takeWhile fun c => c ≠ '('
    if mark.isEmpty then keep 1 { state.afterToken with mode := .rawBody [] }
    else keep mark.length { state with mode := .rawOpen mark }
  | .rawOpen mark => keep 1 { state with mode := .rawBody mark }
  | .rawBody mark =>
    let body := rawBodyLength (')' :: (mark ++ ['"'])) cs
    if body = 0 then keep 1 { state with mode := .rawEnd mark }
    else keep body { state with mode := .rawClose mark }
  | .rawClose mark => keep 1 { state with mode := .rawEnd mark }
  | .rawEnd mark =>
    if mark.isEmpty then keep 1 { state.afterToken with mode := .code }
    else keep mark.length { state with mode := .rawQuote }
  | .rawQuote => keep 1 { state.afterToken with mode := .code }

/-- Whether a bracket, in which `depth` further ones are open, is closed by the first of two brackets
side by side. Brackets in literals and comments do not count. -/
def endsDoubled (state : State) (depth : Nat) (cs : List Char) : Bool :=
  match cs with
  | [] => false
  | c :: rest =>
    let next := cutWith (fun _ => false) state (c :: rest)
    let ahead := rest.drop next.extra
    if state.mode = .code && c = '[' then endsDoubled next.state (depth + 1) ahead
    else if state.mode = .code && c = ']' then
      if depth = 0 then ahead.head? = some ']' else endsDoubled next.state (depth - 1) ahead
    else endsDoubled next.state depth ahead
termination_by cs.length
decreasing_by
  all_goals
    simp only [List.length_drop, List.length_cons]
    omega

/-- The next piece. Two opening brackets belong to an attribute if what they open ends in two closing
brackets, and otherwise to a lambda that is the index of an array. -/
def cut (state : State) (cs : List Char) : Cut := cutWith (endsDoubled {} 0) state cs

/-- Cuts a text into pieces. -/
def pieces (state : State) (cs : List Char) : List Piece :=
  match cs with
  | [] => []
  | c :: rest =>
    let next := cut state (c :: rest)
    ⟨next.kept, c :: rest.take next.extra⟩ :: pieces next.state (rest.drop next.extra)
termination_by cs.length
decreasing_by
  simp only [List.length_drop, List.length_cons]
  omega

/-- The tokens of a source text. -/
def tokens (text : String) : List Token := Token.ofPieces {} (pieces {} text.toList)

end UnitFacts.Lexer

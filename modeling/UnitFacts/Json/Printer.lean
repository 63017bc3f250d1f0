import UnitFacts.Json.Basic

/-!
JSON text. A layout is compact (no blanks at all) or indented (two blanks a level, one member or
item a line, empty lists and objects closed at once). Texts escape the quote, the backslash and the
control characters below U+0020 and nothing else.
-/

namespace UnitFacts.Json

inductive Layout where
  | compact
  | indented
  deriving DecidableEq, Repr

def Layout.ofPretty (pretty : Bool) : Layout := if pretty then .indented else .compact

def hexDigit (value : Nat) : Char := (Nat.toDigits 16 value).getLastD '0'

def escapeChar (c : Char) : List Char :=
  if c = '"' then ['\\', '"']
  else if c = '\\' then ['\\', '\\']
  else if c = '\x08' then ['\\', 'b']
  else if c = '\t' then ['\\', 't']
  else if c = '\n' then ['\\', 'n']
  else if c = '\x0c' then ['\\', 'f']
  else if c = '\r' then ['\\', 'r']
  else if c.toNat < 32 then ['\\', 'u', '0', '0', hexDigit (c.toNat / 16), hexDigit (c.toNat % 16)]
  else [c]

def quote (text : String) : List Char := '"' :: (text.toList.flatMap escapeChar ++ ['"'])

/-- What stands before an item at nesting depth `depth`. -/
def Layout.newline (layout : Layout) (depth : Nat) : List Char :=
  match layout with
  | .compact => []
  | .indented => '\n' :: List.replicate (2 * depth) ' '

def Layout.colon : Layout → List Char
  | .compact => [':']
  | .indented => [':', ' ']

mutual

/-- The text of a value whose closing bracket stands at nesting depth `depth`, put before `tail`. -/
def charsBefore (layout : Layout) (depth : Nat) : Json → List Char → List Char
  | .null, tail => 'n' :: 'u' :: 'l' :: 'l' :: tail
  | .bool true, tail => 't' :: 'r' :: 'u' :: 'e' :: tail
  | .bool false, tail => 'f' :: 'a' :: 'l' :: 's' :: 'e' :: tail
  | .num value, tail => value.chars ++ tail
  | .str text, tail => quote text ++ tail
  | .arr [], tail => '[' :: ']' :: tail
  | .arr (item :: rest), tail =>
    '[' :: (layout.newline (depth + 1) ++
      charsBefore layout (depth + 1) item (itemChars layout depth rest tail))
  | .obj [], tail => '\x7b' :: '\x7d' :: tail
  | .obj ((key, value) :: rest), tail =>
    '\x7b' :: (layout.newline (depth + 1) ++ (quote key ++ (layout.colon ++
      charsBefore layout (depth + 1) value (memberChars layout depth rest tail))))

/-- The items after the first one, with the closing bracket. -/
def itemChars (layout : Layout) (depth : Nat) : List Json → List Char → List Char
  | [], tail => layout.newline depth ++ ']' :: tail
  | item :: rest, tail =>
    ',' :: (layout.newline (depth + 1) ++
      charsBefore layout (depth + 1) item (itemChars layout depth rest tail))

/-- The members after the first one, with the closing brace. -/
def memberChars (layout : Layout) (depth : Nat) : List (String × Json) → List Char → List Char
  | [], tail => layout.newline depth ++ '\x7d' :: tail
  | (key, value) :: rest, tail =>
    ',' :: (layout.newline (depth + 1) ++ (quote key ++ (layout.colon ++
      charsBefore layout (depth + 1) value (memberChars layout depth rest tail))))

end

def chars (layout : Layout) (value : Json) : List Char := charsBefore layout 0 value []

def render (layout : Layout) (value : Json) : String := String.ofList (chars layout value)

/-- The text of a value, ended by a newline. -/
def renderLine (layout : Layout) (value : Json) : String := render layout value ++ "\n"

end UnitFacts.Json

import UnitFacts.Text.Basic

/-!
Tokens and where they stand. A source text is cut into pieces that together are the text; the kept
pieces are its tokens. Offsets and columns count bytes, lines and columns start at one.
-/

namespace UnitFacts

/-- A stretch of a source text; blanks and comments are not kept. -/
structure Piece where
  kept : Bool
  text : List Char
  deriving DecidableEq, Repr

structure Token where
  text : String
  offset : Nat
  line : Nat
  col : Nat
  deriving DecidableEq, Repr

/-- The offset just after the token. -/
def Token.stop (token : Token) : Nat := token.offset + token.text.utf8ByteSize

/-- A place in a source text. -/
structure Cursor where
  offset : Nat := 0
  line : Nat := 1
  col : Nat := 1
  deriving DecidableEq, Repr

namespace Cursor

def step (cursor : Cursor) (c : Char) : Cursor :=
  if c = '\n' then ⟨cursor.offset + c.utf8Size, cursor.line + 1, 1⟩
  else ⟨cursor.offset + c.utf8Size, cursor.line, cursor.col + c.utf8Size⟩

def advance (cursor : Cursor) (cs : List Char) : Cursor := cs.foldl step cursor

end Cursor

namespace Token

/-- The tokens of a row of pieces that starts at a place. -/
def ofPieces : Cursor → List Piece → List Token
  | _, [] => []
  | cursor, piece :: rest =>
    let next := ofPieces (cursor.advance piece.text) rest
    if piece.kept then ⟨String.ofList piece.text, cursor.offset, cursor.line, cursor.col⟩ :: next
    else next

def isWithin (start stop : Nat) (token : Token) : Bool := start ≤ token.offset && token.stop ≤ stop

/-- The tokens that lie entirely between two offsets. -/
def within (start stop : Nat) (tokens : List Token) : List Token :=
  if stop ≤ start then [] else tokens.filter (isWithin start stop)

end Token

end UnitFacts

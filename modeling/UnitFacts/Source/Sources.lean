import UnitFacts.Files
import UnitFacts.Source.Lexer

/-!
The source files at hand, cut into tokens. A file that cannot be read has no tokens. The tokens in a range of a
file are collected by a walk over its parse; whatever nodes there are above the tokens, the walk finds those that
lie in the range.
-/

namespace UnitFacts

/-- A parse of a source text: leaves with the text that they cover, comments among them, and nodes that extend over
a stretch of bytes. -/
inductive Parse where
  | leaf (isComment : Bool) (token : Token)
  | node (first last : Nat) (parts : List Parse)

namespace Parse

def first : Parse → Nat
  | leaf _ token => token.offset
  | node first _ _ => first

def last : Parse → Nat
  | leaf _ token => token.stop
  | node _ last _ => last

/-- The walk for the tokens in a range, which passes over what lies outside it. -/
def collect (start stop : Nat) : Parse → List Token
  | leaf isComment token =>
    if token.stop ≤ start || stop ≤ token.offset then []
    else if start ≤ token.offset && token.stop ≤ stop && token.offset ≠ token.stop && !isComment then [token]
    else []
  | node first last parts => if last ≤ start || stop ≤ first then [] else parts.flatMap (collect start stop)

end Parse

structure Sources where
  cwd : Place := []
  files : FileTable (List Token) := {}

namespace Sources

def ofFiles (cwd : Place) (files : FileTable String) : Sources := ⟨cwd, files.map Lexer.tokens⟩

def tokens (sources : Sources) (path : String) : List Token :=
  match sources.files.read sources.cwd path with
  | .ok tokens => tokens
  | .error _ => []

/-- The tokens of a file that lie entirely between two offsets. -/
def spans (sources : Sources) (path : String) (start stop : Nat) : List Token :=
  Token.within start stop (sources.tokens path)

end Sources

end UnitFacts

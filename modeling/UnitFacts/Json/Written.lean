import UnitFacts.Json.Basic

/-!
JSON as it is written. A document may be well formed and still hold a text that is none, because it
escapes half of a surrogate pair, or a number that exceeds the doubles. Such a part has no value, which
matters only to those who look at it.
-/

namespace UnitFacts.Json

/-- A document whose texts, keys and numbers may be without a value. -/
inductive Written where
  | null
  | bool (value : Bool)
  | num (value : Option Number)
  | str (text : Option String)
  | arr (items : List Written)
  | obj (members : List (Option String × Written))
  deriving Repr, Inhabited

namespace Written

mutual

/-- The value of a document all of whose parts have one. -/
def value? : Written → Option Json
  | .null => some .null
  | .bool value => some (.bool value)
  | .num value => value.map .num
  | .str text => text.map .str
  | .arr items => (itemValues? items).map .arr
  | .obj members => (memberValues? members).map .obj

def itemValues? : List Written → Option (List Json)
  | [] => some []
  | item :: rest =>
    match value? item with
    | none => none
    | some value => (itemValues? rest).map (value :: ·)

def memberValues? : List (Option String × Written) → Option (List (String × Json))
  | [] => some []
  | (none, _) :: _ => none
  | (some key, item) :: rest =>
    match value? item with
    | none => none
    | some value => (memberValues? rest).map ((key, value) :: ·)

end

def text? : Written → Option String
  | .str text => text
  | _ => none

def bool? : Written → Option Bool
  | .bool value => some value
  | _ => none

def items? : Written → Option (List Written)
  | .arr items => some items
  | _ => none

/-- A non-negative integer literal below `bound`. -/
def natBelow? (bound : Nat) : Written → Option Nat
  | .num (some value) => (Json.num value).natBelow? bound
  | _ => none

end Written

end UnitFacts.Json

import UnitFacts.Json.Number

/-!
JSON values in document order. Object members keep their order and their repetitions, because one
reader of these values refuses repeated keys while another lets the last one win.
-/

namespace UnitFacts

inductive Json where
  | null
  | bool (value : Bool)
  | num (value : Json.Number)
  | str (text : String)
  | arr (items : List Json)
  | obj (members : List (String × Json))
  deriving Repr, Inhabited

namespace Json

/-- The last member of that name, as a reader without a memory for repetitions sees it. -/
def lookup (name : String) : List (String × Json) → Option Json
  | [] => none
  | (key, value) :: rest =>
    match lookup name rest with
    | some later => some later
    | none => if key = name then some value else none

def member? (name : String) : Json → Option Json
  | .obj members => lookup name members
  | _ => none

def hasMember (name : String) (value : Json) : Bool := (value.member? name).isSome

def text? : Json → Option String
  | .str text => some text
  | _ => none

def bool? : Json → Option Bool
  | .bool value => some value
  | _ => none

def items? : Json → Option (List Json)
  | .arr items => some items
  | _ => none

def members? : Json → Option (List (String × Json))
  | .obj members => some members
  | _ => none

/-- A non-negative integer literal below `bound`. -/
def natBelow? (bound : Nat) : Json → Option Nat
  | .num (.int value) => if 0 ≤ value ∧ value.toNat < bound then some value.toNat else none
  | _ => none

def ofNat (value : Nat) : Json := .num (.int value)

def ofWord (value : UInt32) : Json := .ofNat value.toNat

def ofTexts (texts : List String) : Json := .arr (texts.map .str)

def ofOption {α : Type} (encode : α → Json) : Option α → Json
  | some value => encode value
  | none => .null

/-- Inserts a member into a list sorted by key; a member of the same key is replaced. -/
def insertMember (key : String) (value : Json) : List (String × Json) → List (String × Json)
  | [] => [(key, value)]
  | (other, old) :: rest =>
    if key < other then (key, value) :: (other, old) :: rest
    else if key = other then (key, value) :: rest
    else (other, old) :: insertMember key value rest

mutual

/-- The value with the members of every object sorted by key, the last of equal keys kept. -/
def sorted : Json → Json
  | .arr items => .arr (sortedItems items)
  | .obj members => .obj (sortedMembers [] members)
  | value => value

def sortedItems : List Json → List Json
  | [] => []
  | item :: rest => sorted item :: sortedItems rest

def sortedMembers (done : List (String × Json)) : List (String × Json) → List (String × Json)
  | [] => done
  | (key, value) :: rest => sortedMembers (insertMember key (sorted value) done) rest

end

end Json

end UnitFacts

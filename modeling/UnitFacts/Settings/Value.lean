/-!
Configuration values, from a settings file or from the environment. Layers are merged key by key;
what is not a table on both sides is replaced.
-/

namespace UnitFacts.Settings

inductive Value where
  | text (text : String)
  /-- A single character, which only the environment can give. -/
  | letter (c : Char)
  | flag (value : Bool)
  | int (value : Int)
  | float
  | list (items : List Value)
  | table (entries : List (String × Value))
  deriving Repr, Inhabited

namespace Value

def emptyTable : Value := .table []

/-- Puts an entry into a table that is sorted by key, in place of one of the same key. -/
def put (key : String) (value : Value) : List (String × Value) → List (String × Value)
  | [] => [(key, value)]
  | (other, old) :: rest =>
    if key < other then (key, value) :: (other, old) :: rest
    else if key = other then (key, value) :: rest
    else (other, old) :: put key value rest

/-- The table with these entries, of equal keys the last. -/
def ofEntries (entries : List (String × Value)) : Value :=
  .table (entries.foldl (fun table (key, value) => put key value table) [])

mutual

/-- The value with a later layer laid over it. -/
def merge (base : Value) : Value → Value
  | .table entries =>
    match base with
    | .table old => .table (mergeEntries old entries)
    | _ => .table entries
  | later => later

def mergeEntries (base : List (String × Value)) : List (String × Value) → List (String × Value)
  | [] => base
  | (key, later) :: rest =>
    let value := match base.lookup key with
      | some old => merge old later
      | none => later
    mergeEntries (put key value base) rest

end

/-- The value under a dotted path, as nested tables. -/
def nest : List String → Value → Value
  | [], value => value
  | key :: rest, value => .table [(key, nest rest value)]

end Value

end UnitFacts.Settings

import UnitFacts.Settings.Value

/-!
The tables of a TOML document while it is read. A table comes about under its own header, on the way
to another header (implicit) or on the way to a dotted key (implicit and dotted); what may still be
added to it depends on that. A table that is defined twice, or a key that is set twice, is an error.
-/

namespace UnitFacts.Toml

open Settings (Value)

mutual

inductive Entry where
  | value (value : Value)
  | table (table : Table)
  | tables (tables : List Table)

inductive Table where
  | mk (implicit dotted : Bool) (entries : List (String × Entry))

end

namespace Table

def empty : Table := .mk false false []

def isImplicit : Table → Bool
  | .mk implicit _ _ => implicit

def isDotted : Table → Bool
  | .mk _ dotted _ => dotted

def entries : Table → List (String × Entry)
  | .mk _ _ entries => entries

def get? (t : Table) (key : String) : Option Entry := t.entries.lookup key

def set (t : Table) (key : String) (entry : Entry) : Table :=
  .mk t.isImplicit t.isDotted ((key, entry) :: t.entries.filter fun (other, _) => other ≠ key)

def erase (t : Table) (key : String) : Table :=
  .mk t.isImplicit t.isDotted (t.entries.filter fun (other, _) => other ≠ key)

/-- The table as one that its own header defines. -/
def explicit (t : Table) : Table := .mk false t.isDotted t.entries

/-- Changes the table at a path, making the tables on the way. A path through dotted keys does not
enter a table with a header of its own; every path enters the last table of a list of tables. -/
def modifyAt (dotted : Bool) (change : Table → Option Table) : List String → Table → Option Table
  | [], t => change t
  | key :: rest, t =>
    match t.get? key with
    | none => (modifyAt dotted change rest (.mk true dotted [])).map fun child => t.set key (.table child)
    | some (.value _) => none
    | some (.table child) =>
      if dotted && !child.isImplicit then none
      else (modifyAt dotted change rest child).map fun child => t.set key (.table child)
    | some (.tables tables) =>
      match tables.getLast? with
      | none => none
      | some last =>
        (modifyAt dotted change rest last).map fun last => t.set key (.tables (tables.dropLast ++ [last]))

/-- What stands at a path. -/
def entryAt? : List String → Table → Option Entry
  | [], _ => none
  | [key], t => t.get? key
  | key :: rest, t =>
    match t.get? key with
    | some (.table child) => entryAt? rest child
    | some (.tables tables) => tables.getLast?.bind (entryAt? rest)
    | _ => none

/-- Sets a key, dotted if `path` is not empty. -/
def setValue (path : List String) (key : String) (value : Value) (t : Table) : Option Table :=
  t.modifyAt true (fun t =>
    if t.isDotted = path.isEmpty || (t.get? key).isSome then none else some (t.set key (.value value))) path

end Table

mutual

def Entry.toValue : Entry → Value
  | .value value => value
  | .table table => table.toValue
  | .tables tables => .list (tableValues tables)

def Table.toValue : Table → Value
  | .mk _ _ entries => .table (entryValues entries)

def tableValues : List Table → List Value
  | [] => []
  | table :: rest => table.toValue :: tableValues rest

def entryValues : List (String × Entry) → List (String × Value)
  | [] => []
  | (key, entry) :: rest => Value.put key entry.toValue (entryValues rest)

end

end UnitFacts.Toml

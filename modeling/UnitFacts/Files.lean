import UnitFacts.Text.Basic

/-!
Files by path. A table holds directories and files below the root; a path is followed name by name
from the root or from a working directory, as an operating system would, and what it leads to is
read, written or refused with the system's complaint.
-/

namespace UnitFacts

/-- A place in the file system, as the names on the way from the root to it. -/
abbrev Place := List String

inductive FileError where
  | notFound
  | permissionDenied
  | alreadyExists
  | notADirectory
  | isADirectory
  | nameTooLong
  /-- A word for the system holds the character that ends words there. -/
  | nulCharacter
  deriving DecidableEq, Repr

def FileError.message : FileError → String
  | .notFound => "No such file or directory (os error 2)"
  | .permissionDenied => "Permission denied (os error 13)"
  | .alreadyExists => "File exists (os error 17)"
  | .notADirectory => "Not a directory (os error 20)"
  | .isADirectory => "Is a directory (os error 21)"
  | .nameTooLong => "File name too long (os error 36)"
  | .nulCharacter => "nul byte found in provided data"

/-- Files with contents of some type. The root always exists. -/
structure FileTable (α : Type) where
  dirs : List Place := []
  files : List (Place × α) := []

namespace FileTable

variable {α β : Type}

def map (f : α → β) (table : FileTable α) : FileTable β :=
  ⟨table.dirs, table.files.map fun (place, content) => (place, f content)⟩

def file? (table : FileTable α) (place : Place) : Option α := table.files.lookup place

def isFile (table : FileTable α) (place : Place) : Bool := (table.file? place).isSome

def isDir (table : FileTable α) (place : Place) : Bool := place = [] || table.dirs.contains place

/-- The longest name of a file, in bytes. -/
def nameLimit : Nat := 255

/-- The longest path, in bytes. -/
def pathLimit : Nat := 4095

/-- Follows one name from a directory that exists. The root is above itself. -/
def follow (table : FileTable α) (here : Place) (name : String) : Except FileError Place :=
  if name = "" || name = "." then .ok here
  else if name = ".." then .ok here.dropLast
  else if nameLimit < name.utf8ByteSize then .error .nameTooLong
  else
    let next := here ++ [name]
    if table.isDir next then .ok next
    else if table.isFile next then .error .notADirectory
    else .error .notFound

def followAll (table : FileTable α) (here : Place) : List String → Except FileError Place
  | [] => .ok here
  | name :: rest => do followAll table (← table.follow here name) rest

def names (path : String) : List String := (Text.splitOn '/' path.toList).map String.ofList

/-- Where a path is followed from, unless it is no path. -/
def start (cwd : Place) (path : String) : Except FileError Place :=
  if path = "" then .error .notFound
  else if pathLimit < path.utf8ByteSize then .error .nameTooLong
  else if Text.startsWith "/" path then .ok []
  else .ok cwd

/-- The place a path names, in a directory that exists. -/
def locate (table : FileTable α) (cwd : Place) (path : String) : Except FileError Place := do
  let last := (names path).getLastD ""
  let dir ← table.followAll (← start cwd path) (names path).dropLast
  if last = "" || last = "." || last = ".." then table.follow dir last
  else if nameLimit < last.utf8ByteSize then .error .nameTooLong
  else .ok (dir ++ [last])

def read (table : FileTable α) (cwd : Place) (path : String) : Except FileError α := do
  let place ← table.locate cwd path
  match table.file? place with
  | some content => .ok content
  | none => if table.isDir place then .error .isADirectory else .error .notFound

/-- Whether a path leads to a place of some sort. -/
def leadsTo (table : FileTable α) (cwd : Place) (path : String) (test : Place → Bool) : Bool :=
  match table.locate cwd path with
  | .ok place => test place
  | .error _ => false

def put (table : FileTable α) (place : Place) (content : α) : FileTable α :=
  { table with files := (place, content) :: table.files.filter fun (other, _) => other ≠ place }

/-- Makes a directory and those above it. -/
def makeDirs (table : FileTable α) (place : Place) : FileTable α :=
  { table with dirs := table.dirs ++ (List.range place.length).map fun n => place.take (n + 1) }

/-- Makes the directory that a path names, in a directory that exists. -/
def makeDir (table : FileTable α) (cwd : Place) (path : String) : Except FileError (FileTable α) := do
  let place ← table.locate cwd path
  if table.isFile place then .error .alreadyExists
  else if table.isDir place then .ok table
  else .ok (table.makeDirs place)

/-- The names on the way to what a path names, slashes at its end left aside. -/
def parents (path : String) : List String :=
  (((names path).reverse.dropWhile fun name => name = "").drop 1).reverse

/-- Writes a file, in a directory that exists. A path that ends in a slash can only be that of a
directory. -/
def write (table : FileTable α) (cwd : Place) (path : String) (content : α) :
    Except FileError (FileTable α) := do
  if Text.endsWith "/" path then
    let _ ← table.followAll (← start cwd path) (parents path)
    .error .isADirectory
  else
    let place ← table.locate cwd path
    if table.isDir place then .error .isADirectory else .ok (table.put place content)

/-- Follows names from a directory and makes the directories that are missing. -/
def makeWay (table : FileTable α) (here : Place) : List String → FileTable α × Place
  | [] => (table, here)
  | name :: rest =>
    if name = "" || name = "." then makeWay table here rest
    else if name = ".." then makeWay table here.dropLast rest
    else makeWay (table.makeDirs (here ++ [name])) (here ++ [name]) rest

/-- A table with these files, their paths followed from a directory, and with the directories they
need. -/
def ofList (top : Place) (entries : List (String × α)) : FileTable α :=
  entries.foldl (fun table (path, content) =>
    let (table, dir) := table.makeWay top (names path).dropLast
    table.put (dir ++ [(names path).getLastD ""]) content) (makeDirs {} top)

end FileTable

end UnitFacts

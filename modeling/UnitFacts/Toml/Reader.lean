import UnitFacts.Toml.Scalar
import UnitFacts.Toml.Table

/-!
The TOML reader. A document is a row of lines, each a header, a key with its value, a comment or
nothing; the tables they define are collected in a `Table`.
-/

namespace UnitFacts.Toml

open Settings (Value)

def skipSpace (cs : List Char) : List Char := cs.dropWhile isSpace

def skipComment (cs : List Char) : List Char :=
  match cs with
  | '#' :: rest => rest.dropWhile isPlain
  | _ => cs

/-- What follows the end of a line, a comment before it passed over. -/
def lineEnd? (cs : List Char) : Option (List Char) :=
  match skipComment (skipSpace cs) with
  | [] => some []
  | rest => afterNewline? rest

/-- Passes over blanks, line ends and comments. -/
def skipFiller (inComment : Bool) : List Char → List Char
  | [] => []
  | '\r' :: '\n' :: rest => skipFiller false rest
  | c :: rest =>
    if c = '\n' then skipFiller false rest
    else if inComment then (if isPlain c then skipFiller true rest else c :: rest)
    else if isSpace c then skipFiller false rest
    else if c = '#' then skipFiller true rest
    else c :: rest

def isBareKeyChar (c : Char) : Bool := c.isAlphanum || c = '_' || c = '-'

def readSimpleKey (cs : List Char) : Option (String × List Char) :=
  match cs with
  | '"' :: rest => (readBasic rest).map fun (text, rest) => (String.ofList text, rest)
  | '\'' :: rest => (readLiteral rest).map fun (text, rest) => (String.ofList text, rest)
  | _ =>
    let word := cs.takeWhile isBareKeyChar
    if word.isEmpty then none else some (String.ofList word, cs.dropWhile isBareKeyChar)

/-- Reads a key with its dots, blanks allowed around each part. -/
def readKey : Nat → List Char → Option (List String × List Char)
  | 0, _ => none
  | fuel + 1, cs =>
    match readSimpleKey (skipSpace cs) with
    | none => none
    | some (key, rest) =>
      match skipSpace rest with
      | '.' :: rest => (readKey fuel rest).map fun (keys, rest) => (key :: keys, rest)
      | rest => some ([key], rest)

/-- Values are nested less deep than this, and dotted keys have fewer parts. -/
def depthLimit : Nat := 80

/-- Reads a key of a line, a header or an inline table. -/
def readPath (cs : List Char) : Option (List String × List Char) :=
  (readKey (cs.length + 1) cs).filter fun (path, _) => path.length < depthLimit

def textValue (read : Option (List Char × List Char)) : Option (Value × List Char) :=
  read.map fun (text, rest) => (.text (String.ofList text), rest)

mutual

/-- Reads a value inside of `depth` lists and inline tables. -/
def readValue : Nat → Nat → List Char → Option (Value × List Char)
  | 0, _, _ => none
  | fuel + 1, depth, cs =>
    match cs with
    | '"' :: '"' :: '"' :: rest => textValue (readLongBasic false (dropNewline rest))
    | '"' :: rest => textValue (readBasic rest)
    | '\'' :: '\'' :: '\'' :: rest => textValue (readLongLiteral (dropNewline rest))
    | '\'' :: rest => textValue (readLiteral rest)
    | '[' :: rest =>
      if depth + 1 < depthLimit then
        (readItems fuel (depth + 1) rest).map fun (items, rest) => (.list items, rest)
      else none
    | '\x7b' :: rest =>
      if depth + 1 < depthLimit then
        match skipSpace rest with
        | '\x7d' :: rest => some (.emptyTable, rest)
        | rest => (readInline fuel (depth + 1) .empty rest).map fun (table, rest) => (table.toValue, rest)
      else none
    | _ => readScalar cs

/-- Reads the items of a list up to its closing bracket. -/
def readItems : Nat → Nat → List Char → Option (List Value × List Char)
  | 0, _, _ => none
  | fuel + 1, depth, cs =>
    match skipFiller false cs with
    | ']' :: rest => some ([], rest)
    | cs =>
      match readValue fuel depth cs with
      | none => none
      | some (item, rest) =>
        match skipFiller false rest with
        | ']' :: rest => some ([item], rest)
        | ',' :: rest => (readItems fuel depth rest).map fun (items, rest) => (item :: items, rest)
        | _ => none

/-- Reads the keys of an inline table up to its closing brace. -/
def readInline : Nat → Nat → Table → List Char → Option (Table × List Char)
  | 0, _, _, _ => none
  | fuel + 1, depth, table, cs =>
    match readKeyValue fuel depth table cs with
    | none => none
    | some (table, rest) =>
      match skipSpace rest with
      | '\x7d' :: rest => some (table, rest)
      | ',' :: rest => readInline fuel depth table rest
      | _ => none

/-- Reads a key and its value into a table. -/
def readKeyValue : Nat → Nat → Table → List Char → Option (Table × List Char)
  | 0, _, _, _ => none
  | fuel + 1, depth, table, cs =>
    match readPath cs with
    | some (path, '=' :: rest) =>
      match readValue fuel depth (skipSpace rest) with
      | none => none
      | some (value, rest) =>
        (table.setValue path.dropLast (path.getLastD "") value).map fun table => (table, rest)
    | _ => none

end

/-- The document so far: the finished tables, and the table under the last header with its path. -/
structure Document where
  root : Table := .empty
  current : Table := .empty
  path : List String := []
  isListItem : Bool := false

namespace Document

/-- Puts the current table in its place. -/
def finish (doc : Document) : Option Table :=
  match doc.path with
  | [] => some doc.current
  | path =>
    let key := path.getLastD ""
    doc.root.modifyAt false (fun parent =>
      match parent.get? key, doc.isListItem with
      | none, true => some (parent.set key (.tables [doc.current]))
      | some (.tables tables), true => some (parent.set key (.tables (tables ++ [doc.current])))
      | none, false => some (parent.set key (.table doc.current))
      | _, _ => none) path.dropLast

/-- Opens the table of a header, which must be new or only implied so far. -/
def openTable (doc : Document) (path : List String) : Option Document := do
  let root ← doc.finish
  match root.entryAt? path with
  | none => some ⟨root, .empty, path, false⟩
  | some (.table table) =>
    if table.isImplicit && !table.isDotted then
      let root ← root.modifyAt false (fun parent => some (parent.erase (path.getLastD ""))) path.dropLast
      some ⟨root, table.explicit, path, false⟩
    else none
  | some _ => none

/-- Opens a further table of a list of tables. -/
def openItem (doc : Document) (path : List String) : Option Document := do
  let root ← doc.finish
  match root.entryAt? path with
  | none | some (.tables _) => some ⟨root, .empty, path, true⟩
  | some _ => none

end Document

/-- Reads a header after its opening brackets; `close` are the closing ones. -/
def readHeader (close : List Char) (cs : List Char) : Option (List String × List Char) :=
  match readPath cs with
  | some (path, rest) =>
    match close.isPrefixOf? rest with
    | some rest => (lineEnd? rest).map fun rest => (path, rest)
    | none => none
  | none => none

def readLines : Nat → Document → List Char → Option Document
  | 0, _, _ => none
  | fuel + 1, doc, cs =>
    match skipSpace cs with
    | [] => some doc
    | '[' :: '[' :: rest =>
      match readHeader [']', ']'] rest with
      | some (path, rest) => (doc.openItem path).bind fun doc => readLines fuel doc rest
      | none => none
    | '[' :: rest =>
      match readHeader [']'] rest with
      | some (path, rest) => (doc.openTable path).bind fun doc => readLines fuel doc rest
      | none => none
    | c :: rest =>
      if c = '#' || c = '\n' || c = '\r' then
        (lineEnd? (c :: rest)).bind fun rest => readLines fuel doc rest
      else
        match readKeyValue (cs.length + 1) 0 doc.current (c :: rest) with
        | some (current, rest) =>
          (lineEnd? rest).bind fun rest => readLines fuel { doc with current } rest
        | none => none

/-- The table that a text holds, if the text is a TOML document. -/
def parse? (text : String) : Option Value :=
  let cs := match text.toList with
    | '\uFEFF' :: rest => rest
    | cs => cs
  ((readLines (cs.length + 1) {} cs).bind (·.finish)).map Table.toValue

end UnitFacts.Toml

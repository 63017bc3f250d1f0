import UnitFacts.Json.Basic

/-!
Locations in a dump. A location names its file and line only when they differ from those of the
location written before it, so a cursor follows the document in order and fills them in. A location
inside a macro has two halves: where its characters are spelled and where the macro is expanded.
-/

namespace UnitFacts.Dump

/-- A location as it is written. -/
structure RawSpot where
  file : Option String := none
  line : Option Nat := none
  col : Option Nat := none
  offset : Option Nat := none
  tokenLength : Nat := 0
  deriving DecidableEq, Repr

/-- What stands where a location may stand. -/
inductive RawLoc where
  | absent
  | plain (spot : RawSpot)
  | expanded (spelling expansion : Option RawSpot)
  deriving DecidableEq, Repr

/-- A location with its file and line filled in. -/
structure Spot where
  file : String
  line : UInt32
  col : UInt32
  offset : Option Nat
  tokenLength : Nat
  deriving DecidableEq, Repr

structure Loc where
  spelling : Spot
  expansion : Spot
  deriving DecidableEq, Repr

/-- The file and line of the last location. -/
structure LocCursor where
  file : String := ""
  line : UInt32 := 0
  deriving DecidableEq, Repr

namespace LocCursor

/-- The cursor after a location, whether or not the location is complete. -/
def move (cursor : LocCursor) (raw : RawSpot) : LocCursor :=
  ⟨raw.file.getD cursor.file, (raw.line.map UInt32.ofNat).getD cursor.line⟩

/-- The location a cursor reads once it has moved; without a column there is none. -/
def spot? (cursor : LocCursor) (raw : RawSpot) : Option Spot :=
  raw.col.map fun col => ⟨cursor.file, cursor.line, UInt32.ofNat col, raw.offset, raw.tokenLength⟩

def readSpot (cursor : LocCursor) (raw : RawSpot) : Option Spot × LocCursor :=
  let next := cursor.move raw
  (next.spot? raw, next)

def readSpot? (cursor : LocCursor) : Option RawSpot → Option Spot × LocCursor
  | some raw => cursor.readSpot raw
  | none => (none, cursor)

/-- Reads one location; where one half is missing the other stands for both. -/
def read (cursor : LocCursor) : RawLoc → Option Loc × LocCursor
  | .absent => (none, cursor)
  | .plain raw =>
    let (spot, cursor) := cursor.readSpot raw
    (spot.map fun spot => ⟨spot, spot⟩, cursor)
  | .expanded spelling expansion =>
    let (spelling, cursor) := cursor.readSpot? spelling
    let (expansion, cursor) := cursor.readSpot? expansion
    match spelling, expansion with
    | some spelling, some expansion => (some ⟨spelling, expansion⟩, cursor)
    | some only, none | none, some only => (some ⟨only, only⟩, cursor)
    | none, none => (none, cursor)

end LocCursor

/-- A non-negative integer of 64 bits. -/
def nat64? (value : Json) : Option Nat := value.natBelow? 0x10000000000000000

def rawSpot? : Json → Option RawSpot
  | .obj [] => none
  | .obj members =>
    let value := Json.obj members
    some {
      file := (value.member? "file").bind Json.text?
      line := (value.member? "line").bind nat64?
      col := (value.member? "col").bind nat64?
      offset := (value.member? "offset").bind nat64?
      tokenLength := ((value.member? "tokLen").bind nat64?).getD 0 }
  | _ => none

def rawLoc (value : Option Json) : RawLoc :=
  match value with
  | some value =>
    if value.hasMember "spellingLoc" || value.hasMember "expansionLoc" then
      .expanded ((value.member? "spellingLoc").bind rawSpot?) ((value.member? "expansionLoc").bind rawSpot?)
    else
      match rawSpot? value with
      | some spot => .plain spot
      | none => .absent
  | none => .absent

end UnitFacts.Dump

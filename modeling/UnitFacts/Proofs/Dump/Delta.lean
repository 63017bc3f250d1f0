import UnitFacts.Dump.Import
import UnitFacts.Proofs.Dump.Alike
import UnitFacts.Proofs.Dump.Redeclarations

/-!
The delta encoding of locations. Take a document in which every location writes its file, line and
column, and leave out any file and line entries that say what the location before them says. The
tree stays the same, whatever becomes of the nodes on the way: skimmed, dissolved, taken into a
template, loose or passed over.
-/

namespace UnitFacts.Dump

/-- The file and line entries of a location. -/
structure Mark where
  file : Json
  line : Json

/-- Objects with the same members, those of some names aside. -/
def SameApart (names : List String) (members members' : List (String × Json)) : Prop :=
  ∀ name, name ∉ names → Json.lookup name members' = Json.lookup name members

theorem lookup_filter {names : List String} {name : String} (h : name ∉ names)
    (members : List (String × Json)) :
    Json.lookup name (members.filter fun member => member.1 ∉ names) = Json.lookup name members := by
  induction members with
  | nil => rfl
  | cons member rest ih =>
    obtain ⟨key, value⟩ := member
    by_cases hkey : key ∈ names
    · have hne : key ≠ name := fun heq => h (heq ▸ hkey)
      rw [List.filter_cons_of_neg (by simpa using hkey), ih, Json.lookup]
      cases Json.lookup name rest <;> simp [hne]
    · rw [List.filter_cons_of_pos (by simpa using hkey), Json.lookup, Json.lookup, ih]

/-- Objects that are the same once the members of some names are left out. -/
theorem SameApart.of_filter_eq {names : List String} {members members' : List (String × Json)}
    (h : (members'.filter fun member => member.1 ∉ names) = members.filter fun member => member.1 ∉ names) :
    SameApart names members members' := by
  intro name hname
  rw [← lookup_filter hname members', h, lookup_filter hname members]

/-- An entry that is kept, or left out where the same entry stands at the location before. -/
def KeptOrRepeated (before : Option Json) (entry : Json) (entry' : Option Json) : Prop :=
  entry' = some entry ∨ entry' = none ∧ before = some entry

/-- Whether a value says nothing as a location. -/
def isBlank : Json → Bool
  | .obj (_ :: _) => false
  | _ => true

/-- One spot, in full and abridged. `last` is the location before it and `next` the last one after it. -/
inductive AbridgedSpot : (last : Option Mark) → (spot spot' : Option Json) → (next : Option Mark) → Prop
  | absent {last : Option Mark} : AbridgedSpot last none none last
  | blank {last : Option Mark} {value : Json} : isBlank value = true →
      AbridgedSpot last (some value) (some value) last
  | written {last : Option Mark} {members members' : List (String × Json)} {file line : Json} :
      Json.lookup "file" members = some file → Json.lookup "line" members = some line →
      (Json.lookup "col" members).isSome →
      SameApart ["file", "line"] members members' →
      KeptOrRepeated (last.map (·.file)) file (Json.lookup "file" members') →
      KeptOrRepeated (last.map (·.line)) line (Json.lookup "line" members') →
      AbridgedSpot last (some (.obj members)) (some (.obj members')) (some ⟨file, line⟩)

/-- Whether a location comes in two halves, as inside a macro. -/
def isHalved (value : Json) :
    Bool := value.hasMember "spellingLoc" || value.hasMember "expansionLoc"

/-- One location, in full and abridged; its spelling stands before its expansion. -/
inductive AbridgedLoc : (last : Option Mark) → (loc loc' : Option Json) → (next : Option Mark) → Prop
  | absent {last : Option Mark} : AbridgedLoc last none none last
  | plain {last next : Option Mark} {value value' : Json} : isHalved value = false →
      AbridgedSpot last (some value) (some value') next → AbridgedLoc last (some value) (some value') next
  | halved {last middle next : Option Mark} {value value' : Json} : isHalved value = true →
      AbridgedSpot last (value.member? "spellingLoc") (value'.member? "spellingLoc") middle →
      AbridgedSpot middle (value.member? "expansionLoc") (value'.member? "expansionLoc") next →
      AbridgedLoc last (some value) (some value') next

/-- One end of the range of an object. -/
def rangeEnd? (name : String) (members : List (String × Json)) : Option Json :=
  (Json.lookup "range" members).bind (·.member? name)

/-- What a compiler keeps to when it writes an object: an expression or statement has no location
besides its range, and a declaration or template that is only mentioned has nothing inside. -/
structure Conventional (members : List (String × Json)) : Prop where
  statement : ∀ kind, (Attrs.ofJson (.obj members)).plan = .statement kind → Json.lookup "loc" members = none
  mention : (Attrs.ofJson (.obj members)).declares = true → Json.lookup "loc" members = none →
    Json.lookup "range" members = none → innerItems members = []

/-- A row of values, in full and abridged, in document order: the location of an object, the begin
and the end of its range, what stands inside it, and the values after it. -/
inductive Abridged : (last : Option Mark) → (items items' : List Json) → (next : Option Mark) → Prop
  | nil {last : Option Mark} : Abridged last [] [] last
  | other {last next : Option Mark} {item : Json} {rest rest' : List Json} : item.members? = none →
      Abridged last rest rest' next → Abridged last (item :: rest) (item :: rest') next
  | node {last m₁ m₂ m₃ m₄ next : Option Mark} {members members' : List (String × Json)}
      {rest rest' : List Json} :
      Conventional members →
      SameApart ["loc", "range", "inner"] members members' →
      (Json.lookup "range" members').isSome = (Json.lookup "range" members).isSome →
      AbridgedLoc last (Json.lookup "loc" members) (Json.lookup "loc" members') m₁ →
      AbridgedLoc m₁ (rangeEnd? "begin" members) (rangeEnd? "begin" members') m₂ →
      AbridgedLoc m₂ (rangeEnd? "end" members) (rangeEnd? "end" members') m₃ →
      Abridged m₃ (innerItems members) (innerItems members') m₄ →
      Abridged m₄ rest rest' next →
      Abridged last (.obj members :: rest) (.obj members' :: rest') next

/-- The cursor stands where the last location has put it. -/
def Synced (last : Option Mark) (cursor : LocCursor) : Prop :=
  ∀ mark, last = some mark →
    mark.file.text?.getD cursor.file = cursor.file ∧
      ((nat64? mark.line).map UInt32.ofNat).getD cursor.line = cursor.line

/-- Reading an entry again, or not at all where it is left out, makes no difference. -/
theorem KeptOrRepeated.read_eq {α β : Type} {before : Option Json} {entry : Json}
    {entry' : Option Json}
    (h : KeptOrRepeated before entry entry') (read : Json → Option α) (step : α → β) (current : β)
    (hsync : ∀ value, before = some value → ((read value).map step).getD current = current) :
    ((entry'.bind read).map step).getD current = ((read entry).map step).getD current := by
  rcases h with rfl | ⟨rfl, hbefore⟩
  · rfl
  · exact (hsync entry hbefore).symm

/-- The spot that an object with members is. -/
def spotOf (members : List (String × Json)) : RawSpot where
  file := (Json.lookup "file" members).bind Json.text?
  line := (Json.lookup "line" members).bind nat64?
  col := (Json.lookup "col" members).bind nat64?
  offset := (Json.lookup "offset" members).bind nat64?
  tokenLength := ((Json.lookup "tokLen" members).bind nat64?).getD 0

theorem rawSpot?_obj {name : String} {members : List (String × Json)}
    (h : (Json.lookup name members).isSome) :
    rawSpot? (.obj members) = some (spotOf members) := by
  cases members with
  | nil => simp [Json.lookup] at h
  | cons member rest => rfl

theorem rawSpot?_of_isBlank {value : Json} (h : isBlank value = true) : rawSpot? value = none := by
  cases value with
  | obj members =>
    cases members with
    | nil => rfl
    | cons member rest => cases h
  | _ => rfl

/-- The cursor after a spot whose file and line entries are kept or repeat the location before. -/
theorem move_spotOf {last : Option Mark} {members : List (String × Json)} {file line : Json}
    (cursor : LocCursor)
    (hc : Synced last cursor) (hfile : KeptOrRepeated (last.map (·.file)) file (Json.lookup "file" members))
    (hline : KeptOrRepeated (last.map (·.line)) line (Json.lookup "line" members)) :
    cursor.move (spotOf members) =
      ⟨file.text?.getD cursor.file, ((nat64? line).map UInt32.ofNat).getD cursor.line⟩ := by
  have hf := hfile.read_eq Json.text? id cursor.file (by
    intro value hvalue
    obtain ⟨mark, hmark, rfl⟩ := Option.map_eq_some_iff.mp hvalue
    simpa using (hc mark hmark).1)
  have hl := hline.read_eq nat64? UInt32.ofNat cursor.line (by
    intro value hvalue
    obtain ⟨mark, hmark, rfl⟩ := Option.map_eq_some_iff.mp hvalue
    exact (hc mark hmark).2)
  simp only [Option.map_id_fun, id_eq] at hf
  rw [LocCursor.move, spotOf, hf, hl]

theorem AbridgedSpot.readSpot?_eq {last next : Option Mark} {spot spot' : Option Json}
    (h : AbridgedSpot last spot spot' next) (cursor : LocCursor) (hc : Synced last cursor) :
    cursor.readSpot? (spot'.bind rawSpot?) = cursor.readSpot? (spot.bind rawSpot?) ∧
      Synced next (cursor.readSpot? (spot.bind rawSpot?)).2 := by
  cases h with
  | absent => exact ⟨rfl, hc⟩
  | blank hblank =>
    rw [Option.bind_some, rawSpot?_of_isBlank hblank]
    exact ⟨rfl, hc⟩
  | @written members members' file line hfile hline hcol hsame hfile' hline' =>
    have hcol' : (Json.lookup "col" members').isSome := by
      rw [hsame "col" (by decide)]
      exact hcol
    have hmove := move_spotOf cursor hc (Or.inl hfile) (Or.inl hline)
    have hspot : ∀ at' : LocCursor, at'.spot? (spotOf members') = at'.spot? (spotOf members) := by
      intro at'
      simp only [LocCursor.spot?, spotOf, hsame "col" (by decide), hsame "offset" (by decide),
        hsame "tokLen" (by decide)]
    rw [Option.bind_some, Option.bind_some, rawSpot?_obj hcol, rawSpot?_obj hcol']
    simp only [LocCursor.readSpot?, LocCursor.readSpot, hspot, hmove,
      move_spotOf cursor hc hfile' hline', true_and]
    rintro mark ⟨⟩
    constructor
    · cases file.text? <;> rfl
    · cases nat64? line <;> rfl

theorem AbridgedSpot.isSome_eq {last next : Option Mark} {spot spot' : Option Json}
    (h : AbridgedSpot last spot spot' next) : spot'.isSome = spot.isSome := by
  cases h <;> rfl

theorem rawLoc_of_not_isHalved {value : Json} (h : isHalved value = false) (cursor : LocCursor) :
    cursor.read (rawLoc (some value)) =
      ((cursor.readSpot? (rawSpot? value)).1.map fun spot => ⟨spot, spot⟩,
        (cursor.readSpot? (rawSpot? value)).2) := by
  have hraw : rawLoc (some value) = (rawSpot? value).elim .absent .plain := by
    refine (if_neg (ne_true_of_eq_false h)).trans ?_
    cases rawSpot? value <;> rfl
  rw [hraw]
  cases rawSpot? value <;> rfl

theorem rawLoc_of_isHalved {value : Json} (h : isHalved value = true) :
    rawLoc (some value) =
      .expanded ((value.member? "spellingLoc").bind rawSpot?)
        ((value.member? "expansionLoc").bind rawSpot?) :=
  if_pos h

theorem AbridgedLoc.locAlike {last next : Option Mark} {loc loc' : Option Json}
    (h : AbridgedLoc last loc loc' next) :
    LocAlike (Synced last) (rawLoc loc) (rawLoc loc') (Synced next) := by
  intro cursor hc
  cases h with
  | absent => exact ⟨rfl, hc⟩
  | @plain _ value value' hplain hspot =>
    have hplain' : isHalved value' = false := by
      cases hspot with
      | blank => exact hplain
      | written _ _ _ hsame =>
        simpa only [isHalved, Json.hasMember, Json.member?, hsame "spellingLoc" (by decide),
          hsame "expansionLoc" (by decide)] using hplain
    obtain ⟨heq, hnext⟩ := hspot.readSpot?_eq cursor hc
    rw [Option.bind_some, Option.bind_some] at heq
    rw [rawLoc_of_not_isHalved hplain, rawLoc_of_not_isHalved hplain', heq]
    exact ⟨rfl, hnext⟩
  | @halved middle _ value value' hhalved hspelling hexpansion =>
    have hhalved' : isHalved value' = true := by
      rw [isHalved, Json.hasMember, Json.hasMember, hspelling.isSome_eq, hexpansion.isSome_eq]
      exact hhalved
    obtain ⟨heq, hmiddle⟩ := hspelling.readSpot?_eq cursor hc
    obtain ⟨heq', hnext⟩ := hexpansion.readSpot?_eq _ hmiddle
    rw [rawLoc_of_isHalved hhalved, rawLoc_of_isHalved hhalved']
    simp only [LocCursor.read, heq, heq', true_and]
    split <;> exact hnext

theorem AbridgedLoc.isSome_eq {last next : Option Mark} {loc loc' : Option Json}
    (h : AbridgedLoc last loc loc' next) : loc'.isSome = loc.isSome := by
  cases h <;> rfl

/-- Objects with the same members, locations and inner values aside, have the same attributes,
locations aside. -/
theorem ofJson_eq_relocate {members members' : List (String × Json)}
    (hsame : SameApart ["loc", "range", "inner"] members members')
    (hloc : (Json.lookup "loc" members').isSome = (Json.lookup "loc" members).isSome)
    (hrange : (Json.lookup "range" members').isSome = (Json.lookup "range" members).isSome) :
    Attrs.ofJson (.obj members') =
      (Attrs.ofJson (.obj members)).relocate (rawLoc (Json.lookup "loc" members'))
        (rawLoc (rangeEnd? "begin" members')) (rawLoc (rangeEnd? "end" members')) := by
  have hmember : ∀ name, name ∉ ["loc", "range", "inner"] →
      (Json.obj members').member? name = (Json.obj members).member? name := hsame
  have hloc' : ((Json.obj members').member? "loc").isSome = ((Json.obj members).member? "loc").isSome := hloc
  have hrange' : ((Json.obj members').member? "range").isSome = ((Json.obj members).member? "range").isSome :=
    hrange
  simp (disch := decide) only [Attrs.ofJson, Attrs.relocate, textAttr?, flagAttr, Json.hasMember,
    hmember, hloc',
    hrange']
  rfl

theorem Conventional.shaped {members : List (String × Json)} (h : Conventional members) :
    (Attrs.ofJson (.obj members)).Shaped (innerOf members) := by
  constructor
  · intro kind hplan
    have hloc := h.statement kind hplan
    simp [Attrs.ofJson, Json.member?, hloc, rawLoc]
  · intro hdeclares hmention
    simp only [Attrs.isMention, Attrs.ofJson, Json.hasMember, Json.member?, Bool.and_eq_true,
      Bool.not_eq_true',
      Option.isSome_eq_false_iff, Option.isNone_iff_eq_none] at hmention
    obtain ⟨hloc, hrange⟩ := hmention
    rw [innerOf_eq, h.mention hdeclares hloc hrange]
    simp [Attrs.ofJson, Json.member?, hloc, hrange, rawLoc]

theorem Abridged.alike {last next : Option Mark} {items items' : List Json}
    (h : Abridged last items items' next) :
    Alike (Synced last) (items.filterMap Node.ofJson?) (items'.filterMap Node.ofJson?) (Synced next) := by
  induction h with
  | nil =>
    rw [List.filterMap_nil]
    exact .nil
  | @other last next item rest rest' hitem hrest ih =>
    have hnone := Node.ofJson?_eq_none hitem
    rw [List.filterMap_cons_none hnone, List.filterMap_cons_none hnone]
    exact ih
  | node hconv hsame hrange hloc hbegin hend hinner hrest ihInner ihRest =>
    rw [List.filterMap_cons_some (Node.ofJson?_obj _), List.filterMap_cons_some (Node.ofJson?_obj _),
      ofJson_eq_relocate hsame hloc.isSome_eq hrange]
    refine .cons hconv.shaped hloc.locAlike hbegin.locAlike hend.locAlike ?_ ihRest
    rw [innerOf_eq, innerOf_eq]
    exact ihInner

/-- What is left out of a document because it repeats the location before is read all the same. Each order of
the tables gives one tree for both documents, and if the document redeclares clearly all orders give the same. -/
theorem importTree?_abridged (ctx : Context) (messages : Messages) (dump dump' : Json)
    (next : Option Mark)
    (h : Abridged none [dump] [dump'] next) :
    importTree? ctx messages dump' = importTree? ctx messages dump ∧
      (RedeclaresClearly ctx dump → ∀ order,
        importTree? { ctx with order := order } messages dump' = importTree? ctx messages dump) := by
  have hsame : ∀ ctx, importTree? ctx messages dump' = importTree? ctx messages dump := by
    intro ctx
    have halike := h.alike
    cases h with
    | other => rfl
    | @node _ _ _ _ members members' =>
      simp only [List.filterMap_cons, Node.ofJson?_obj, List.filterMap_nil] at halike
      obtain ⟨hcls, hroot⟩ := halike.buildRoot_eq ctx (by simp [Synced])
      rw [importTree?, importTree?, Node.ofJson?_obj, Node.ofJson?_obj]
      simp only [hcls, treeOf, hroot]
  refine ⟨hsame ctx, fun hclear order => ?_⟩
  rw [hsame, importTree?_order hclear]

/-- A function whose body opens in a macro and that is declared once more, with every location written in full. -/
def fullUnit : List (String × Json) :=
  [("kind", .str unitClass), ("loc", .obj []), ("range", .obj [("begin", .obj []), ("end", .obj [])]),
    ("inner", .arr [
      .obj [("kind", .str "FunctionDecl"), ("id", .str "f1"), ("name", .str "f"),
        ("loc", .obj [("file", .str "a.cpp"), ("line", .ofNat 1), ("col", .ofNat 5)]),
        ("range", .obj [("begin", .obj [("file", .str "a.cpp"), ("line", .ofNat 1), ("col", .ofNat 1)]),
          ("end", .obj [("file", .str "a.cpp"), ("line", .ofNat 2), ("col", .ofNat 9)])]),
        ("inner", .arr [.obj [("kind", .str "CompoundStmt"),
          ("range", .obj [
            ("begin", .obj [
              ("spellingLoc", .obj [("file", .str "m.h"), ("line", .ofNat 2), ("col", .ofNat 7)]),
              ("expansionLoc", .obj [("file", .str "a.cpp"), ("line", .ofNat 2), ("col", .ofNat 5)])]),
            ("end", .obj [("file", .str "a.cpp"), ("line", .ofNat 2), ("col", .ofNat 9)])])]])],
      .obj [("kind", .str "FunctionDecl"), ("id", .str "f2"), ("name", .str "f"), ("previousDecl", .str "f1"),
        ("loc", .obj [("file", .str "a.cpp"), ("line", .ofNat 3), ("col", .ofNat 5)])]])]

/-- The same document as a compiler writes it. -/
def deltaUnit : List (String × Json) :=
  [("kind", .str unitClass), ("loc", .obj []), ("range", .obj [("begin", .obj []), ("end", .obj [])]),
    ("inner", .arr [
      .obj [("kind", .str "FunctionDecl"), ("id", .str "f1"), ("name", .str "f"),
        ("loc", .obj [("file", .str "a.cpp"), ("line", .ofNat 1), ("col", .ofNat 5)]),
        ("range", .obj [("begin", .obj [("col", .ofNat 1)]),
          ("end", .obj [("line", .ofNat 2), ("col", .ofNat 9)])]),
        ("inner", .arr [.obj [("kind", .str "CompoundStmt"),
          ("range", .obj [
            ("begin", .obj [
              ("spellingLoc", .obj [("file", .str "m.h"), ("col", .ofNat 7)]),
              ("expansionLoc", .obj [("file", .str "a.cpp"), ("col", .ofNat 5)])]),
            ("end", .obj [("col", .ofNat 9)])])]])],
      .obj [("kind", .str "FunctionDecl"), ("id", .str "f2"), ("name", .str "f"), ("previousDecl", .str "f1"),
        ("loc", .obj [("line", .ofNat 3), ("col", .ofNat 5)])]])]

theorem fullUnit_abridged :
    Abridged none [.obj fullUnit] [.obj deltaUnit] (some ⟨.str "a.cpp", .ofNat 3⟩) := by
  -- the unit, the function and its body, and the second declaration, each with its locations
  refine .node ⟨nofun, nofun⟩ (.of_filter_eq rfl) rfl (.plain rfl (.blank rfl)) (.plain rfl (.blank rfl))
    (.plain rfl (.blank rfl)) ?_ .nil
  refine @Abridged.node _ _ _ _ (some ⟨.str "a.cpp", .ofNat 2⟩) _ _ _ _ _ ⟨nofun, nofun⟩ (.of_filter_eq rfl) rfl
    (.plain rfl (.written rfl rfl rfl (.of_filter_eq rfl) (.inl rfl) (.inl rfl)))
    (.plain rfl (.written rfl rfl rfl (.of_filter_eq rfl) (.inr ⟨rfl, rfl⟩) (.inr ⟨rfl, rfl⟩)))
    (.plain rfl (.written rfl rfl rfl (.of_filter_eq rfl) (.inr ⟨rfl, rfl⟩) (.inl rfl))) ?_ ?_
  · exact .node ⟨fun _ _ => rfl, nofun⟩ (.of_filter_eq rfl) rfl .absent
      (.halved rfl (.written rfl rfl rfl (.of_filter_eq rfl) (.inl rfl) (.inr ⟨rfl, rfl⟩))
        (.written rfl rfl rfl (.of_filter_eq rfl) (.inl rfl) (.inr ⟨rfl, rfl⟩)))
      (.plain rfl (.written rfl rfl rfl (.of_filter_eq rfl) (.inr ⟨rfl, rfl⟩) (.inr ⟨rfl, rfl⟩))) .nil .nil
  · exact .node ⟨nofun, nofun⟩ (.of_filter_eq rfl) rfl
      (.plain rfl (.written rfl rfl rfl (.of_filter_eq rfl) (.inr ⟨rfl, rfl⟩) (.inl rfl))) .absent .absent .nil .nil

theorem redeclaresClearly_fullUnit : RedeclaresClearly { mainFile := "a.cpp" } (.obj fullUnit) := by
  apply RedeclaresClearly.of_lt rfl
  · decide +kernel
  · decide +kernel

theorem importTree?_abridged_fullUnit :
    let ctx : Context := { mainFile := "a.cpp" }
    Abridged none [.obj fullUnit] [.obj deltaUnit] (some ⟨.str "a.cpp", .ofNat 3⟩) ∧
      RedeclaresClearly ctx (.obj fullUnit) ∧
      ((importTree? ctx {} (.obj fullUnit)).map fun t => [t.definition? 1, t.definition? 3]) =
        some [some 1, some 1] ∧
      importTree? ctx {} (.obj deltaUnit) = importTree? ctx {} (.obj fullUnit) ∧
      importTree? { ctx with order := .backwards } {} (.obj deltaUnit) = importTree? ctx {} (.obj fullUnit) := by
  intro ctx
  obtain ⟨hsame, hclear⟩ := importTree?_abridged ctx {} (.obj fullUnit) (.obj deltaUnit) _ fullUnit_abridged
  refine ⟨fullUnit_abridged, redeclaresClearly_fullUnit, ?_, hsame, hclear redeclaresClearly_fullUnit .backwards⟩
  decide +kernel

end UnitFacts.Dump

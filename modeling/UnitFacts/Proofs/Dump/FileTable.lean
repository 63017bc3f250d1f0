import UnitFacts.Proofs.Dump.TypeUses
import UnitFacts.Proofs.Extract.Calls
import UnitFacts.Proofs.Extract.Symbols

/-!
The files of a unit. The main file is the first entry of the file table, and every other entry is a file of its
own that goes for a library header exactly if its path does. The flag is set once, when a path is met for the first
time, and every place where a node is put goes through that step; so whatever is read keeps the table in this
order. The facts of a unit then come from its main file and from files that are no library headers.
-/

namespace UnitFacts

open UnitFacts.Tree

namespace Dump

/-- The main file comes first. The others are told apart by their paths, which also say whether they are library
headers. -/
structure FilesClassified (ctx : Context) (files : List SourceFile) : Prop where
  main : files[0]? = some ⟨ctx.mainFile, true, false⟩
  other : ∀ index file, files[index]? = some file → 0 < index →
    file.isMain = false ∧ Path.normalise file.path ≠ Path.normalise ctx.mainFile ∧
      file.isSystem = ctx.headers.isSystem file.path
  paths_nodup : (files.map (·.path)).Nodup

/-- A node stands in the main file. -/
def InMainFile (ctx : Context) (t : Tree) (id : NodeId) : Prop :=
  ∃ loc, t.location? id = some loc ∧ loc.path = ctx.mainFile

/-- A node stands in a library header other than the main file. -/
def InLibrary (ctx : Context) (t : Tree) (id : NodeId) : Prop :=
  ∃ loc, t.location? id = some loc ∧ loc.path ≠ ctx.mainFile ∧ ctx.headers.isSystem loc.path = true

/-- A node stands in a file whose facts count. -/
def InOwnFile (ctx : Context) (t : Tree) (id : NodeId) : Prop :=
  ∃ loc, t.location? id = some loc ∧ (loc.path = ctx.mainFile ∨ ctx.headers.isSystem loc.path = false)

/-- The facts of a tree come from its main file and from files that are no library headers. Only nodes in library
headers hide what lies below them. -/
structure LibrariesKeptOut (ctx : Context) (t : Tree) : Prop where
  files : FilesClassified ctx t.files
  inSystemHeader_iff : ∀ id, t.inSystemHeader id = true ↔ InLibrary ctx t id
  main_visited_iff : ∀ v, t.RootPath v.node v.path → InMainFile ctx t v.node →
    (v ∈ t.ownVisits ↔ ∀ id ∈ v.path, ¬ InLibrary ctx t id)
  symbol_own : ∀ v fact, t.ReportsSymbol v fact → InOwnFile ctx t v.node
  reference_own : ∀ v fact, t.Reports v fact → InOwnFile ctx t v.node
  call_own : ∀ v fact, t.ReportsCall v fact → InOwnFile ctx t v.node
  symbols : ∀ file options, ∀ fact ∈ (t.extract file options).symbols,
    ∃ v, t.RootPath v.node v.path ∧ t.ReportsSymbol v fact
  references : ∀ file options, ∀ fact ∈ (t.extract file options).references,
    ∃ v, t.RootPath v.node v.path ∧ t.Reports v fact
  callEdges : ∀ file options, ∀ edge ∈ (t.extract file options).callEdges,
    ∃ v fact, t.ReportsCall v fact ∧ t.callEdge? v = some edge

namespace FilesClassified

variable {ctx : Context}

theorem start : FilesClassified ctx (Tree.start ctx.mainFile).files where
  main := rfl
  other index file h hpos := by
    have hnone : (Tree.start ctx.mainFile).files[index]? = none := List.getElem?_eq_none hpos
    rw [hnone] at h
    cases h
  paths_nodup := by simp [Tree.start]

/-- A path that is neither in the table nor that of the main file may be entered. -/
theorem append {files : List SourceFile} (h : FilesClassified ctx files) {path : String}
    (hmain : ctx.isMainFile path = false) (hnew : ∀ file ∈ files, file.path ≠ path) :
    FilesClassified ctx (files ++ [⟨path, false, ctx.headers.isSystem path⟩]) where
  main := file_of_isPrefix (List.prefix_append _ _) h.main
  other index file hfile hpos := by
    rcases Nat.lt_or_ge index files.length with hlt | hge
    · rw [List.getElem?_append_left hlt] at hfile
      exact h.other index file hfile hpos
    · rw [List.getElem?_append_right hge, List.getElem?_singleton] at hfile
      split at hfile
      · cases hfile
        exact ⟨rfl, of_decide_eq_false hmain, rfl⟩
      · cases hfile
  paths_nodup := by
    rw [List.map_append, List.map_singleton, ← List.concat_eq_append, List.nodup_concat]
    refine ⟨fun hmem => ?_, h.paths_nodup⟩
    obtain ⟨file, hfile, hpath⟩ := List.mem_map.mp hmem
    exact hnew file hfile hpath

theorem withFile {t : Tree} (h : FilesClassified ctx t.files) (path : String) :
    FilesClassified ctx (withFile ctx t path).files := by
  unfold Dump.withFile
  cases hmain : ctx.isMainFile path with
  | true => exact h
  | false =>
    unfold addFile
    cases hfound : t.fileId? path with
    | some index => exact h
    | none =>
      refine h.append hmain fun file hfile => ?_
      simpa using List.findIdx?_eq_none_iff.mp hfound file hfile

/-! ### Reading keeps the table -/

section Reading

variable {d : Draft} (h : FilesClassified ctx d.tree.files)
include h

theorem create (frame : Frame) (detached : Bool) (kind : NodeKind) (spelling : String) :
    FilesClassified ctx (d.create frame detached kind spelling).2.tree.files := by
  cases detached <;> exact h

theorem place (id : NodeId) (at? end? : Option Loc) : FilesClassified ctx (d.place ctx id at? end?).tree.files := by
  cases at? with
  | none => cases end? <;> exact h
  | some loc => cases end? <;> exact h.withFile loc.expansion.file

theorem markIf (id : NodeId) (cond : Bool) : FilesClassified ctx (d.markIf id cond).tree.files := by
  cases cond <;> exact h

theorem setEnd (id : NodeId) (end? : Option Loc) : FilesClassified ctx (d.setEnd id end?).tree.files := by
  cases end? <;> exact h

theorem declareTemplate (frame : Frame) (detached : Bool) (kind : NodeKind) (attrs : Attrs)
    (loc? last? : Option Loc) :
    FilesClassified ctx (d.declareTemplate ctx frame detached kind attrs loc? last?).2.tree.files := by
  have hcreated := h.create frame detached kind attrs.name
  rw [← Draft.tree_register _ attrs d.tree.nextId] at hcreated
  rw [Draft.snd_declareTemplate]
  exact hcreated.place d.tree.nextId loc? last?

theorem declare (frame : Frame) (detached : Bool) (kind : NodeKind) (attrs : Attrs) (inner : List Node)
    (loc? first? last? : Option Loc) :
    FilesClassified ctx (d.declare ctx frame detached kind attrs inner loc? first? last?).2.tree.files := by
  rw [Draft.declare_eq]
  exact (h.declareTemplate frame detached kind attrs loc? last?).markIf d.tree.nextId _

theorem mergePattern (id : NodeId) (kind : NodeKind) (attrs : Attrs) (inner : List Node) :
    FilesClassified ctx (d.mergePattern id kind attrs inner).tree.files := by
  have hread : FilesClassified ctx
      (({ d with cursor := d.cursor.afterAttrs attrs } : Draft).register attrs id).tree.files := by
    rw [Draft.tree_register]
    exact h
  have hnoted := hread.setEnd id (d.cursor.lastOf attrs)
  rw [← Draft.tree_noteLinks _ attrs id] at hnoted
  rw [Draft.mergePattern_eq]
  exact hnoted.markIf id _

theorem state (frame : Frame) (kind : NodeKind) (attrs : Attrs) (first? last? : Option Loc) :
    FilesClassified ctx (d.state ctx frame kind attrs first? last?).2.tree.files := by
  have hcreated := h.create frame false kind (statementSpelling kind attrs)
  rw [← Draft.tree_register _ attrs d.tree.nextId] at hcreated
  have hplaced := hcreated.place d.tree.nextId (statementPosition ctx kind attrs first? last?) last?
  rw [Draft.snd_state]
  split <;> exact hplaced

end Reading

theorem foldl_addTypeUse (uses : List TypeUse) {t : Tree} (h : FilesClassified ctx t.files) :
    FilesClassified ctx (uses.foldl (addTypeUse ctx) t).files := by
  induction uses generalizing t with
  | nil => exact h
  | cons use rest ih =>
    have hattached : FilesClassified ctx (t.attach use.owner .typeRef (t.spelling use.target)).2.files := h
    exact ih (hattached.withFile use.file)

end FilesClassified

theorem stepClosed_filesClassified (ctx : Context) :
    StepClosed ctx (fun _ _ => True) fun d d' =>
      FilesClassified ctx d.tree.files → FilesClassified ctx d'.tree.files where
  refl _ h := h
  trans h h' hd := h' (h hd)
  valid _ _ := trivial
  loosen _ := trivial
  cursor _ _ h := h
  declare frame _ kind attrs inner loc? first? last? _ :=
    ⟨fun h => h.declare frame _ kind attrs inner loc? first? last?, trivial⟩
  declareTemplate frame _ kind attrs loc? last? _ :=
    ⟨fun h => h.declareTemplate frame _ kind attrs loc? last?, trivial⟩
  mergePattern frame _ kind attrs inner _ h := h.mergePattern frame.parent kind attrs inner
  state frame _ kind attrs first? last? _ _ :=
    ⟨fun h => h.state frame kind attrs first? last?, trivial⟩

theorem filesClassified_buildRoot (ctx : Context) (root : Node) :
    FilesClassified ctx (buildRoot ctx root).tree.files := by
  obtain ⟨attrs, inner⟩ := root
  rw [buildRoot_eq]
  refine ((stepClosed_filesClassified ctx).keepsTo inner).row _ _ trivial ?_
  rw [startDraft, Draft.tree_register]
  exact .start

theorem filesClassified_treeOf (ctx : Context) (messages : Messages) (root : Node) :
    FilesClassified ctx (treeOf ctx messages root).files := by
  have hread := filesClassified_buildRoot ctx root
  rw [treeOf_eq_treeIn]
  refine FilesClassified.foldl_addTypeUse _ ?_
  rw [files_resolved]
  exact hread

/-! ### What is extracted -/

theorem location?_eq_some_iff (t : Tree) (id : NodeId) (loc : Location) :
    t.location? id = some loc ↔ ∃ position file, t.position? id = some position ∧
      t.files[position.file]? = some file ∧
      loc = ⟨file.path, position.line, position.col, file.isMain, file.isSystem⟩ := by
  have hbind : t.location? id = (t.position? id).bind fun position =>
      (t.files[position.file]?).bind fun file =>
        some ⟨file.path, position.line, position.col, file.isMain, file.isSystem⟩ := by
    rw [position?, Option.bind_assoc]
    rfl
  rw [hbind]
  constructor
  · intro h
    obtain ⟨position, hposition, hrest⟩ := Option.bind_eq_some_iff.mp h
    obtain ⟨file, hfile, hloc⟩ := Option.bind_eq_some_iff.mp hrest
    exact ⟨position, file, hposition, hfile, (Option.some.inj hloc).symm⟩
  · rintro ⟨position, file, hposition, hfile, rfl⟩
    rw [hposition, Option.bind_some, hfile, Option.bind_some]

section Extraction

variable {ctx : Context} {t : Tree} (h : FilesClassified ctx t.files)
include h

/-- The flag of a place says whether its file is a library header other than the main file. -/
theorem FilesClassified.inSystemHeader_location {id : NodeId} {loc : Location} (hloc : t.location? id = some loc) :
    loc.inSystemHeader = true ↔ loc.path ≠ ctx.mainFile ∧ ctx.headers.isSystem loc.path = true := by
  obtain ⟨position, file, -, hfile, rfl⟩ := (location?_eq_some_iff t id loc).mp hloc
  rcases Nat.eq_zero_or_pos position.file with hzero | hpos
  · rw [hzero, h.main] at hfile
    cases hfile
    simp
  · obtain ⟨-, hne, hsystem⟩ := h.other position.file file hfile hpos
    have hpath : file.path ≠ ctx.mainFile := fun heq => hne (congrArg Path.normalise heq)
    simp only [hsystem, ne_eq, hpath, not_false_eq_true, true_and]

theorem FilesClassified.inSystemHeader_iff (id : NodeId) : t.inSystemHeader id = true ↔ InLibrary ctx t id := by
  rw [inSystemHeader, Option.any_eq_true]
  constructor
  · rintro ⟨loc, hloc, hflag⟩
    exact ⟨loc, hloc, (h.inSystemHeader_location hloc).mp hflag⟩
  · rintro ⟨loc, hloc, hlibrary⟩
    exact ⟨loc, hloc, (h.inSystemHeader_location hloc).mpr hlibrary⟩

theorem FilesClassified.not_inLibrary_iff (id : NodeId) : ¬ InLibrary ctx t id ↔ t.inSystemHeader id = false := by
  rw [← h.inSystemHeader_iff, Bool.not_eq_true]

variable (ht : t.WellFormed)
include ht

/-- A visited node with a place stands in a file of the user. -/
theorem FilesClassified.inOwnFile_of_position {id : NodeId} {position : Position}
    (hposition : t.position? id = some position) (hown : t.inSystemHeader id = false) : InOwnFile ctx t id := by
  obtain ⟨n, hn, hplace⟩ := Option.bind_eq_some_iff.mp hposition
  have hlt := ht.files_lt n ((t.mem_nodes_iff n).mpr ⟨id, hn⟩) position hplace
  have hloc := (location?_eq_some_iff t id _).mpr
    ⟨position, t.files[position.file], hposition, List.getElem?_eq_getElem hlt, rfl⟩
  refine ⟨_, hloc, ?_⟩
  by_contra hout
  obtain ⟨hpath, hsystem⟩ := not_or.mp hout
  exact (h.not_inLibrary_iff id).mpr hown ⟨_, hloc, hpath, by simpa using hsystem⟩

theorem FilesClassified.main_visited_iff {v : Visit} (hv : t.RootPath v.node v.path)
    (hmain : InMainFile ctx t v.node) : v ∈ t.ownVisits ↔ ∀ id ∈ v.path, ¬ InLibrary ctx t id := by
  have hnode : ¬ InLibrary ctx t v.node := by
    rintro ⟨loc, hloc, hne, -⟩
    obtain ⟨mainLoc, hmainLoc, hpath⟩ := hmain
    cases hloc.symm.trans hmainLoc
    exact hne hpath
  simp only [ht.mem_ownVisits_iff, ← h.not_inLibrary_iff, List.forall_mem_cons, hv, hnode, not_false_eq_true,
    true_and]

theorem FilesClassified.librariesKeptOut : LibrariesKeptOut ctx t where
  files := h
  inSystemHeader_iff := h.inSystemHeader_iff
  main_visited_iff _ hv hmain := h.main_visited_iff ht hv hmain
  symbol_own v fact hreports := by
    obtain ⟨position, hposition, -⟩ := hreports.place
    exact h.inOwnFile_of_position ht hposition (hreports.own v.node List.mem_cons_self)
  reference_own v fact hreports := by
    obtain ⟨position, hposition, -⟩ := hreports.place
    exact h.inOwnFile_of_position ht hposition (hreports.own v.node List.mem_cons_self)
  call_own v fact hcall := by
    obtain ⟨position, hposition, -⟩ := hcall.reports.place
    exact h.inOwnFile_of_position ht hposition (hcall.reports.own v.node List.mem_cons_self)
  symbols _ _ _ := ht.exists_reportsSymbol
  references _ _ _ := ht.exists_reports
  callEdges _ _ _ := ht.exists_reportsCall

end Extraction

/-- Reading a dump enters each file as what it is, and no facts come from library headers. -/
theorem importTree?_librariesKeptOut (ctx : Context) (messages : Messages) (members : List (String × Json))
    (hunit : Json.lookup "kind" members = some (.str unitClass)) :
    ∃ t, importTree? ctx messages (.obj members) = some t ∧ LibrariesKeptOut ctx t :=
  ⟨_, (importTree?_obj ctx messages hunit).2,
    (filesClassified_treeOf ..).librariesKeptOut (sound_treeOf ctx messages _).wellFormed⟩

/-- A main file below a directory of library headers with a function, a function of a library header there, and a
variable of another file. -/
def headedUnit : List (String × Json) :=
  [("kind", .str "TranslationUnitDecl"), ("inner", .arr [
    .obj [("kind", .str "FunctionDecl"), ("name", .str "h"),
      ("loc", .obj [("file", .str "/usr/include/h.h"), ("line", .num (.int 3)), ("col", .num (.int 6))])],
    .obj [("kind", .str "VarDecl"), ("name", .str "x"),
      ("loc", .obj [("file", .str "own.h"), ("line", .num (.int 1)), ("col", .num (.int 5))])],
    .obj [("kind", .str "FunctionDecl"), ("name", .str "f"),
      ("loc", .obj [("file", .str "/usr/include/main.cpp"), ("line", .num (.int 2)), ("col", .num (.int 5))])]])]

theorem importTree?_librariesKeptOut_headedUnit :
    let ctx : Context := { mainFile := "/usr/include/main.cpp", headers := ⟨["/usr/include"]⟩ }
    Json.lookup "kind" headedUnit = some (.str unitClass) ∧
      (importTree? ctx {} (.obj headedUnit)).map (fun t =>
          (t.files, (t.extract "main.cpp" {}).symbols.map (·.name))) =
        some ([⟨"/usr/include/main.cpp", true, false⟩, ⟨"/usr/include/h.h", false, true⟩,
          ⟨"own.h", false, false⟩], ["x", "f"]) ∧
      ∃ t, importTree? ctx {} (.obj headedUnit) = some t ∧ LibrariesKeptOut ctx t := by
  intro ctx
  refine ⟨rfl, ?_, importTree?_librariesKeptOut ctx {} headedUnit rfl⟩
  decide +kernel

end Dump

end UnitFacts

import UnitFacts.Proofs.Dump.Redeclarations
import UnitFacts.Proofs.Files
import UnitFacts.Proofs.Snapshot.RoundTrip

/-!
Facts taken later. A tree that came from a run of the compiler is accepted by the check, and its file table
begins with the file it was made for; so the facts of its snapshot are those of the run itself, the file
they are reported for included. Another reading of the same dump may go through its tables in another order;
if the dump redeclares clearly, its facts are the same.
-/

namespace UnitFacts

/-- The indices are words as long as words suffice to count the nodes and the files. -/
theorem Tree.WellFormed.wordIndexed {t : Tree} (ht : t.WellFormed) (hsize : t.size ≤ UInt32.size)
    (hfiles : t.files.length ≤ UInt32.size) : t.WordIndexed where
  root_lt := Nat.lt_of_lt_of_le ht.root_lt hsize
  nodes n hn :=
    { links_lt := fun target htarget => Nat.lt_of_lt_of_le (ht.links_lt n hn target htarget) hsize
      children_lt := fun child hchild =>
        Nat.lt_of_lt_of_le (ht.children_lt child (List.mem_flatMap.mpr ⟨n, hn, hchild⟩)) hsize
      files_lt := fun position hposition => Nat.lt_of_lt_of_le (ht.files_lt n hn position hposition) hfiles }

namespace Dump

theorem mainFile?_treeOf (ctx : Context) (messages : Messages) (root : Node) :
    (treeOf ctx messages root).mainFile? = some ⟨ctx.mainFile, true, false⟩ := by
  obtain ⟨later, hgrown⟩ := (growsTo_linked_buildRoot ctx root).isPrefix_files
  have hfiles : (treeOf ctx messages root).files = ⟨ctx.mainFile, true, false⟩ :: later := hgrown.symm
  simp [Tree.mainFile?, hfiles]

theorem exists_eq_treeOf {ctx : Context} {messages : Messages} {dump : Json} {t : Tree}
    (h : importTree? ctx messages dump = some t) : ∃ root, t = treeOf ctx messages root := by
  unfold importTree? at h
  split at h
  · rename_i root hroot
    split at h
    · cases h
      exact ⟨root, rfl⟩
    · cases h
  · cases h

end Dump

namespace Frontend

section Tree

variable {leeway : Leeway} {compiler : CompilerSettings} {run : CompilerRun} {sources : Sources} {file : String}
  {args : List String} {t : Tree}

/-- A tree of a file comes from a document that the compiler printed. -/
theorem exists_importTree? (h : tree leeway compiler run sources file args = .ok t) :
    ∃ status stdout stderr dump, run = .finished status stdout stderr ∧ isBlankText stdout = false ∧
      Json.parse? stdout = some dump ∧
      Dump.importTree? (context leeway.order compiler sources file args) (Messages.parse stderr) dump = some t := by
  unfold tree at h
  split at h
  · cases h
  · cases h
  · rename_i status stdout stderr
    simp only at h
    split at h
    · cases h
    · rename_i hblank
      split at h
      · cases h
      · rename_i dump hdump
        unfold importTree at h
        split at h
        · rename_i t' himport
          cases h
          exact ⟨status, stdout, stderr, dump, rfl, by simpa using hblank, hdump, himport⟩
        · cases h

theorem exists_treeOf (h : tree leeway compiler run sources file args = .ok t) :
    ∃ messages root, t = Dump.treeOf (context leeway.order compiler sources file args) messages root := by
  obtain ⟨_, _, _, _, -, -, -, himport⟩ := exists_importTree? h
  exact ⟨_, Dump.exists_eq_treeOf himport⟩

theorem check_of_tree (h : tree leeway compiler run sources file args = .ok t) : t.check = .ok () := by
  obtain ⟨messages, root, rfl⟩ := exists_treeOf h
  exact (Tree.check_eq_ok_iff _).mpr (Dump.sound_treeOf _ messages root).wellFormed

theorem mainFile?_of_tree (h : tree leeway compiler run sources file args = .ok t) :
    t.mainFile? = some ⟨file, true, false⟩ := by
  obtain ⟨messages, root, rfl⟩ := exists_treeOf h
  exact Dump.mainFile?_treeOf _ messages root

/-- What a run of the compiler prints for a file redeclares clearly. -/
def RedeclaresClearly (compiler : CompilerSettings) (run : CompilerRun) (sources : Sources) (file : String)
    (args : List String) : Prop :=
  ∀ status stdout stderr dump, run = .finished status stdout stderr → Json.parse? stdout = some dump →
    Dump.RedeclaresClearly (context .ofDocument compiler sources file args) dump

/-- Another reading gives the same tree. -/
theorem tree_of_redeclaresClearly (hclear : RedeclaresClearly compiler run sources file args)
    (h : tree leeway compiler run sources file args = .ok t) (other : Leeway) :
    tree other compiler run sources file args = .ok t := by
  obtain ⟨status, stdout, stderr, dump, rfl, hblank, hdump, himport⟩ := exists_importTree? h
  have hsame : ∀ order, Dump.importTree? (context order compiler sources file args) (Messages.parse stderr) dump =
      Dump.importTree? (context .ofDocument compiler sources file args) (Messages.parse stderr) dump := fun order =>
    Dump.importTree?_order (hclear status stdout stderr dump rfl hdump) order _
  rw [hsame leeway.order, ← hsame other.order] at himport
  simp [tree, hblank, hdump, importTree, himport]

end Tree

section Facts

variable {leeway : Leeway} {settings : Settings} {action : Action} {run : CompilerRun} {sources : Sources}
  {file : String} {args : List String} {t : Tree}

theorem extract_of_tree (h : tree leeway settings.clang run sources file args = .ok t) :
    extract leeway settings action run sources file args =
      t.extract file ⟨action, settings.extraction.includeWarnings⟩ := by
  simp only [extract, h]

theorem snapshotTree_of_write {reader : Leeway} (h : tree leeway settings.clang run sources file args = .ok t)
    (hwords : t.WordIndexed) {pretty : Bool} {files files' : FileTable String} {cwd : Place} {path : String}
    (hwrite : files.write cwd path (Snapshot.write pretty t) = .ok files') :
    snapshotTree reader path (files'.read cwd path) = .ok t := by
  rw [FileTable.read_write hwrite]
  simp only [snapshotTree, Snapshot.read_write pretty hwords, check_of_tree h]

end Facts

/-- The facts of a snapshot are those of the run of the compiler that its tree came from, and if what the
compiler printed redeclares clearly, those of any other reading of it. -/
theorem extractSnapshot_write (leeway : Leeway) (settings : Settings) (action : Action) (run : CompilerRun)
    (sources : Sources) (file : String) (args : List String) (t : Tree)
    (htree : tree leeway settings.clang run sources file args = .ok t) (hwords : t.WordIndexed)
    (pretty : Bool) (files files' : FileTable String) (cwd : Place) (path : String)
    (hwrite : files.write cwd path (Snapshot.write pretty t) = .ok files') (reader : Leeway) :
    let facts := extractSnapshot reader path (files'.read cwd path) ⟨action, settings.extraction.includeWarnings⟩
    facts = extract leeway settings action run sources file args ∧
      (RedeclaresClearly settings.clang run sources file args →
        ∀ other, facts = extract other settings action run sources file args) := by
  intro facts
  have hfacts : facts = t.extract file ⟨action, settings.extraction.includeWarnings⟩ := by
    simp only [facts, extractSnapshot, snapshotTree_of_write htree hwords hwrite, mainFile?_of_tree htree,
      Option.map_some, Option.getD_some]
  refine ⟨hfacts.trans (extract_of_tree htree).symm, fun hclear other => ?_⟩
  exact hfacts.trans (extract_of_tree (tree_of_redeclaresClearly hclear htree other)).symm

/-- The document of a function `f` that is declared and then defined, and calls itself. -/
def callingUnit : Json :=
  .obj [("kind", .str "TranslationUnitDecl"), ("inner", .arr [
    .obj [("id", .str "0x1"), ("kind", .str "FunctionDecl"), ("name", .str "f"),
      ("loc", .obj [("file", .str "dir/main.cpp"), ("line", .ofNat 1), ("col", .ofNat 6)])],
    .obj [("id", .str "0x2"), ("kind", .str "FunctionDecl"), ("name", .str "f"), ("previousDecl", .str "0x1"),
      ("loc", .obj [("line", .ofNat 2), ("col", .ofNat 6)]),
      ("inner", .arr [
        .obj [("kind", .str "CompoundStmt"), ("inner", .arr [
          .obj [("kind", .str "CallExpr"),
            ("range", .obj [("begin", .obj [("line", .ofNat 3), ("col", .ofNat 3)])]),
            ("inner", .arr [
              .obj [("kind", .str "DeclRefExpr"),
                ("range", .obj [("begin", .obj [("col", .ofNat 3)])]),
                ("referencedDecl", .obj [("id", .str "0x1"), ("name", .str "f")])]])]])]])]])]

/-- A run that prints the document, a warning and a header. -/
def callingRun : CompilerRun :=
  .finished "exit status: 0" (callingUnit.render .compact) "dir/main.cpp:3:3: warning: w\n. a.h\n"

def callingTree : Tree where
  files := [⟨"dir/main.cpp", true, false⟩]
  root := 0
  nodes := #[
    { kind := .unit, spelling := "dir/main.cpp", children := [1, 2] },
    { kind := .functionDecl, spelling := "f", position := some ⟨0, 1, 6⟩, lexicalParent := some 0,
      semanticParent := some 0, canonical := some 1, definition := some 2 },
    { kind := .functionDecl, spelling := "f", position := some ⟨0, 2, 6⟩, lexicalParent := some 0,
      semanticParent := some 0, children := [3], canonical := some 1, definition := some 2, isDefinition := true },
    { kind := .compoundStmt, lexicalParent := some 2, semanticParent := some 2, children := [4] },
    { kind := .callExpr, position := some ⟨0, 3, 3⟩, lexicalParent := some 3, semanticParent := some 2,
      children := [5] },
    { kind := .declRefExpr, spelling := "f", lexicalParent := some 4, semanticParent := some 2,
      referenced := some 1 }]
  inclusions := [⟨"a.h", 1⟩]
  diagnostics := [⟨.warning, "dir/main.cpp:3:3: warning: w"⟩]

theorem parse?_callingUnit : Json.parse? (callingUnit.render .compact) = some callingUnit := by
  have hwords : callingUnit.HasWords := by
    simp [callingUnit, Json.hasWords_ofNat, UInt32.size]
  exact hwords.parse?_render _

theorem tree_callingRun : tree .plain {} callingRun {} "dir/main.cpp" [] = .ok callingTree := by
  have hblank : isBlankText (callingUnit.render .compact) = false := by
    simp [isBlankText, Json.render, Json.chars, Json.charsBefore, callingUnit, Text.isBlank]
  have hmessages : Messages.parse "dir/main.cpp:3:3: warning: w\n. a.h\n" =
      ⟨callingTree.inclusions, callingTree.diagnostics⟩ := by
    decide +kernel
  have himport : Dump.importTree? (context .ofDocument {} {} "dir/main.cpp" [])
      ⟨callingTree.inclusions, callingTree.diagnostics⟩ callingUnit = some callingTree := by
    decide +kernel
  simp only [tree, callingRun, hblank, parse?_callingUnit, importTree, hmessages, Leeway.plain, himport]
  rfl

theorem wordIndexed_callingTree : callingTree.WordIndexed :=
  ((Tree.check_eq_ok_iff _).mp (check_of_tree tree_callingRun)).wordIndexed (by decide) (by decide)

theorem redeclaresClearly_callingRun : RedeclaresClearly {} callingRun {} "dir/main.cpp" [] := by
  intro status stdout stderr dump hrun hdump
  cases hrun
  cases parse?_callingUnit.symm.trans hdump
  apply Dump.RedeclaresClearly.of_lt rfl
  · decide +kernel
  · decide +kernel

theorem extractSnapshot_write_callingRun :
    tree .plain {} callingRun {} "dir/main.cpp" [] = .ok callingTree ∧ callingTree.WordIndexed ∧
      RedeclaresClearly {} callingRun {} "dir/main.cpp" [] ∧
      ∀ pretty action, ∃ files',
        ({} : FileTable String).write [] "u.json" (Snapshot.write pretty callingTree) = .ok files' ∧
          ∀ other, extractSnapshot .plain "u.json" (files'.read [] "u.json") ⟨action, false⟩ =
            extract other {} action callingRun {} "dir/main.cpp" [] := by
  refine ⟨tree_callingRun, wordIndexed_callingTree, redeclaresClearly_callingRun, fun pretty action => ?_⟩
  have hwrite : ({} : FileTable String).write [] "u.json" (Snapshot.write pretty callingTree) =
      .ok (({} : FileTable String).put ["u.json"] (Snapshot.write pretty callingTree)) := rfl
  obtain ⟨-, hother⟩ := extractSnapshot_write .plain {} action callingRun {} "dir/main.cpp" [] callingTree
    tree_callingRun wordIndexed_callingTree pretty {} _ [] "u.json" hwrite .plain
  exact ⟨_, hwrite, hother redeclaresClearly_callingRun⟩

end Frontend

end UnitFacts

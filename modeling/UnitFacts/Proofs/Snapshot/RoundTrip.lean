import UnitFacts.Compiler.Frontend
import UnitFacts.Proofs.Json.Record
import UnitFacts.Proofs.Tree.Check

/-!
Snapshots keep trees. Every index of a snapshot is a word of 32 bits; a tree whose indices are such words
is read back from its snapshot field by field, in either layout, what was left out included. Whether it is
then accepted is up to the check alone.
-/

namespace UnitFacts

theorem NodeKind.mem_all (kind : NodeKind) : kind ∈ NodeKind.all := by cases kind <;> decide +kernel

theorem NodeKind.ofName?_name_of_mem : ∀ kind ∈ all, ofName? kind.name = some kind := by decide +kernel

@[simp] theorem NodeKind.ofName?_name (kind : NodeKind) : ofName? kind.name = some kind :=
  ofName?_name_of_mem kind kind.mem_all

@[simp] theorem Severity.ofName?_name (severity : Severity) : ofName? severity.name = some severity := by
  cases severity <;> rfl

/-- All indices of a node are words of 32 bits. -/
structure Node.WordIndexed (n : Node) : Prop where
  links_lt : ∀ target ∈ n.links, target < UInt32.size
  children_lt : ∀ child ∈ n.children, child < UInt32.size
  files_lt : ∀ position ∈ n.position, position.file < UInt32.size

/-- All indices of a tree are words of 32 bits. -/
structure Tree.WordIndexed (t : Tree) : Prop where
  root_lt : t.root < UInt32.size
  nodes : ∀ n ∈ t.nodes.toList, n.WordIndexed

namespace Snapshot

open Json

/-! ### What a snapshot writes -/

/-- The value of a list that is left out when it is empty. -/
def listEntry {α : Type} (encode : α → Json) (items : List α) : Option Json :=
  if items = [] then none else some (.arr (items.map encode))

/-- The values of the fields of a node, `none` for what is left out. -/
def nodeValues (n : Node) : List (Option Json) :=
  [some (.str n.kind.name), if n.spelling = "" then none else some (.str n.spelling),
   n.position.map ofPosition, some (.ofWord n.endLine), n.lexicalParent.map .ofNat,
   n.semanticParent.map .ofNat, listEntry .ofNat n.children, n.referenced.map .ofNat,
   n.canonical.map .ofNat, n.definition.map .ofNat, some (.bool n.isDefinition), listEntry .str n.tokens]

theorem optionalMember_eq {α : Type} (name : String) (encode : α → Json) (value? : Option α) :
    optionalMember name encode value? = ((value?.map encode).map fun value => (name, value)).toList := by
  cases value? <;> rfl

theorem listMember_eq {α : Type} (name : String) (encode : α → Json) (items : List α) :
    listMember name encode items = ((listEntry encode items).map fun value => (name, value)).toList := by
  cases items <;> rfl

theorem ofNode_eq (n : Node) : ofNode n = .obj (present (nodeFields.zip (nodeValues n))) := by
  have hspelling : (if n.spelling = "" then [] else [("spelling", Json.str n.spelling)]) =
      ((if n.spelling = "" then none else some (Json.str n.spelling)).map fun value =>
        ("spelling", value)).toList := by
    split <;> rfl
  simp only [ofNode, optionalMember_eq, listMember_eq, hspelling, present, nodeFields, nodeValues,
    List.zip_cons_cons, List.zip_nil_left, List.flatMap_cons, List.flatMap_nil, Option.map_some,
    Option.toList_some, List.append_assoc, List.append_nil]

/-! ### What it is read as -/

theorem file?_ofFile (file : SourceFile) : file? (ofFile file).written = some file := by
  have hfields : fields? ["path", "is_main", "is_system"] (ofFile file).written = _ :=
    fields?_present (by decide)
      [some (.str file.path), some (.bool file.isMain), some (.bool file.isSystem)] rfl
  simp [file?, hfields, required, defaulted]

theorem position?_ofPosition {position : Position} (h : position.file < UInt32.size) :
    position? (ofPosition position).written = some position := by
  have hfields : fields? ["file", "line", "col"] (ofPosition position).written = _ :=
    fields?_present (by decide)
      [some (.ofNat position.file), some (.ofWord position.line), some (.ofWord position.col)] rfl
  simp [position?, hfields, required, nat32?_written h]

theorem inclusion?_ofInclusion (inclusion : Inclusion) :
    inclusion? (ofInclusion inclusion).written = some inclusion := by
  have hfields : fields? ["path", "depth"] (ofInclusion inclusion).written = _ :=
    fields?_present (by decide) [some (.str inclusion.path), some (.ofWord inclusion.depth)] rfl
  simp [inclusion?, hfields, required]

theorem diagnostic?_ofDiagnostic (diagnostic : Diagnostic) :
    diagnostic? (ofDiagnostic diagnostic).written = some diagnostic := by
  have hfields : fields? ["severity", "message"] (ofDiagnostic diagnostic).written = _ :=
    fields?_present (by decide) [some (.str diagnostic.severity.name), some (.str diagnostic.message)] rfl
  simp [diagnostic?, hfields, required]

theorem link?_written {link : Option NodeId} (h : ∀ target ∈ link, target < UInt32.size) :
    link? ((link.map Json.ofNat).map written) = some link := by
  apply defaulted_nullable
  · intro target hnull
    cases hnull
  · intro target htarget
    exact nat32?_written (h target htarget)

/-- An empty list is left out and comes back by default. -/
theorem defaulted_listEntry {α : Type} {decode : Written → Option α} {encode : α → Json} {items : List α}
    (h : ∀ item ∈ items, decode (encode item).written = some item) :
    defaulted [] (listOf? decode) ((listEntry encode items).map written) = some items := by
  cases items with
  | nil => rfl
  | cons item rest => exact listOf?_written h

theorem defaulted_spelling (spelling : String) :
    defaulted "" Written.text? ((if spelling = "" then none else some (Json.str spelling)).map written) =
      some spelling := by
  split
  · simp_all [defaulted]
  · simp [defaulted]

theorem defaulted_position {position : Option Position} (h : ∀ p ∈ position, p.file < UInt32.size) :
    defaulted none (nullable position?) ((position.map ofPosition).map written) = some position := by
  apply defaulted_nullable
  · intro p hnull
    cases hnull
  · intro p hp
    exact position?_ofPosition (h p hp)

theorem bind_eq_some {α β : Type} {x : Option α} {f : α → Option β} {a : α} {b : β} (h : x = some a)
    (hf : f a = some b) : x >>= f = some b := by
  rw [h]
  exact hf

theorem node?_ofNode {n : Node} (h : n.WordIndexed) : node? (ofNode n).written = some n := by
  have hfields : fields? nodeFields (ofNode n).written = some ((nodeValues n).map (·.map written)) := by
    rw [ofNode_eq]
    exact fields?_present (by decide) (nodeValues n) rfl
  have hlink : ∀ link : Option NodeId, (∀ target ∈ link, target ∈ n.links) →
      link? ((link.map Json.ofNat).map written) = some link := by
    intro link hmem
    exact link?_written fun target htarget => h.links_lt target (hmem target htarget)
  have hlexical := hlink n.lexicalParent (by simp +contextual [Tree.mem_links_iff])
  have hsemantic := hlink n.semanticParent (by simp +contextual [Tree.mem_links_iff])
  have hreferenced := hlink n.referenced (by simp +contextual [Tree.mem_links_iff])
  have hcanonical := hlink n.canonical (by simp +contextual [Tree.mem_links_iff])
  have hdefinition := hlink n.definition (by simp +contextual [Tree.mem_links_iff])
  have hchildren : defaulted [] (listOf? nat32?) ((listEntry Json.ofNat n.children).map written) =
      some n.children :=
    defaulted_listEntry fun child hchild => nat32?_written (h.children_lt child hchild)
  have htokens : defaulted [] (listOf? Written.text?) ((listEntry Json.str n.tokens).map written) =
      some n.tokens :=
    defaulted_listEntry fun token _ => text?_written token
  have hkind : required (choice? NodeKind.ofName?) (some (Json.str n.kind.name).written) = some n.kind := by
    simp [required]
  have hend : defaulted 0 word32? (some (Json.ofWord n.endLine).written) = some n.endLine := by
    simp [defaulted]
  have hflag : defaulted false Written.bool? (some (Json.bool n.isDefinition).written) =
      some n.isDefinition := by
    simp [defaulted]
  refine bind_eq_some hfields ?_
  exact bind_eq_some hkind <| bind_eq_some (defaulted_spelling n.spelling) <|
    bind_eq_some (defaulted_position h.files_lt) <| bind_eq_some hend <| bind_eq_some hlexical <|
    bind_eq_some hsemantic <| bind_eq_some hchildren <| bind_eq_some hreferenced <|
    bind_eq_some hcanonical <| bind_eq_some hdefinition <| bind_eq_some hflag <| bind_eq_some htokens rfl

theorem tree?_ofTree {t : Tree} (h : t.WordIndexed) : tree? (ofTree t).written = some t := by
  have hfields : fields? ["files", "root", "nodes", "inclusions", "diagnostics"] (ofTree t).written = _ :=
    fields?_present (by decide) [some (.arr (t.files.map ofFile)), some (.ofNat t.root),
      some (.arr (t.nodes.toList.map ofNode)), some (.arr (t.inclusions.map ofInclusion)),
      some (.arr (t.diagnostics.map ofDiagnostic))] rfl
  have hfiles : listOf? file? (Json.arr (t.files.map ofFile)).written = some t.files :=
    listOf?_written fun file _ => file?_ofFile file
  have hnodes : listOf? node? (Json.arr (t.nodes.toList.map ofNode)).written = some t.nodes.toList :=
    listOf?_written fun n hn => node?_ofNode (h.nodes n hn)
  have hinclusions : listOf? inclusion? (Json.arr (t.inclusions.map ofInclusion)).written =
      some t.inclusions :=
    listOf?_written fun inclusion _ => inclusion?_ofInclusion inclusion
  have hdiagnostics : listOf? diagnostic? (Json.arr (t.diagnostics.map ofDiagnostic)).written =
      some t.diagnostics :=
    listOf?_written fun diagnostic _ => diagnostic?_ofDiagnostic diagnostic
  rw [tree?, hfields]
  simp only [List.map_cons, List.map_nil, Option.bind_eq_bind, Option.bind_some, Option.map_some,
    required, defaulted, hfiles, nat32?_written h.root_lt, hnodes, hinclusions, hdiagnostics]
  rfl

/-! ### What is written are texts, truth values and words -/

theorem hasWords_map {α : Type} {encode : α → Json} {value? : Option α}
    (h : ∀ value ∈ value?, (encode value).HasWords) : ∀ value ∈ value?.map encode, value.HasWords := by
  rintro _ hvalue
  obtain ⟨value, hsome, rfl⟩ := Option.map_eq_some_iff.mp hvalue
  exact h value hsome

theorem hasWords_listEntry {α : Type} {encode : α → Json} {items : List α}
    (h : ∀ item ∈ items, (encode item).HasWords) : ∀ value ∈ listEntry encode items, value.HasWords := by
  cases items with
  | nil =>
    rintro _ ⟨⟩
  | cons item rest =>
    rintro _ ⟨⟩
    exact .arr (List.forall_mem_map.mpr h)

theorem hasWords_ofNode {n : Node} (h : n.WordIndexed) : (ofNode n).HasWords := by
  have hsome : ∀ {value : Json}, value.HasWords → ∀ v ∈ some value, v.HasWords := by
    rintro _ hvalue _ ⟨⟩
    exact hvalue
  have hposition : ∀ value ∈ n.position.map ofPosition, value.HasWords := by
    refine hasWords_map fun position hmem => ?_
    simp [ofPosition, hasWords_ofNat (h.files_lt position hmem), hasWords_ofWord]
  have hspelling : ∀ value ∈ (if n.spelling = "" then none else some (Json.str n.spelling)),
      value.HasWords := by
    split
    · simp
    · exact hsome (.str n.spelling)
  have hlink : ∀ link : Option NodeId, (∀ target ∈ link, target ∈ n.links) →
      ∀ value ∈ link.map Json.ofNat, value.HasWords := fun link hmem =>
    hasWords_map fun target htarget => hasWords_ofNat (h.links_lt target (hmem target htarget))
  rw [ofNode_eq]
  apply hasWords_present
  simp only [nodeValues, List.forall_mem_cons]
  refine ⟨hsome (.str _), hspelling, hposition, hsome (hasWords_ofWord _), hlink _ ?_, hlink _ ?_,
    hasWords_listEntry fun child hchild => hasWords_ofNat (h.children_lt child hchild), hlink _ ?_, hlink _ ?_,
    hlink _ ?_, hsome (.bool _), hasWords_listEntry fun token _ => .str token, by simp⟩
  all_goals simp +contextual [Tree.mem_links_iff]

theorem hasWords_ofTree {t : Tree} (h : t.WordIndexed) : (ofTree t).HasWords := by
  have hnodes : ∀ n ∈ t.nodes.toList, (ofNode n).HasWords := fun n hn => hasWords_ofNode (h.nodes n hn)
  simpa [ofTree, ofFile, ofInclusion, ofDiagnostic, hasWords_ofNat h.root_lt, hasWords_ofWord] using hnodes

/-- Reading what was written comes down to the check. -/
theorem read_write (pretty : Bool) {t : Tree} (h : t.WordIndexed) :
    read (write pretty t) =
      match t.check with
      | .ok () => .ok t
      | .error fault => .error (.faulty fault) := by
  have hparse := (hasWords_ofTree h).writtenParse?_render (.ofPretty pretty)
  cases hcheck : t.check <;> simp only [read, write, hparse, Option.bind_some, tree?_ofTree h, hcheck]

/-- A snapshot file gives the tree that was written to it, every field of it, if the check accepts the tree.
Otherwise it is refused, and the reason given is the fault that the check finds. -/
theorem snapshotTree_write (leeway : Leeway) (pretty : Bool) (path : String) (t : Tree) (h : t.WordIndexed) :
    (t.check = .ok () → Frontend.snapshotTree leeway path (.ok (write pretty t)) = .ok t) ∧
      ∀ fault, t.check = .error fault →
        Frontend.snapshotTree leeway path (.ok (write pretty t)) = .error (.badSnapshot path fault) ∧
          (Failure.badSnapshot path fault).message =
            "Invalid snapshot " ++ path ++ ": " ++ fault.message := by
  constructor
  · intro hok
    simp only [Frontend.snapshotTree, read_write pretty h, hok]
  · intro fault herror
    refine ⟨?_, rfl⟩
    simp only [Frontend.snapshotTree, read_write pretty h, herror]

/-- A call `ƒ()` in a function `ƒ`, with a spelling and a token that a text cannot hold as they are. -/
def escapedTree (root : NodeId) : Tree where
  files := [⟨"dir\\\"main\".cpp", true, false⟩, ⟨"/usr/include/é.h", false, true⟩]
  root := root
  nodes := #[
    { kind := .unit, children := [1] },
    { kind := .functionDecl, spelling := "ƒ\n\t\x01𝔽", position := some ⟨0, 4294967295, 5⟩, endLine := 7,
      lexicalParent := some 0, semanticParent := some 0, children := [2], canonical := some 1,
      definition := some 1, isDefinition := true, tokens := ["", "\"\\\"", "/"] },
    { kind := .callExpr, position := some ⟨1, 2, 0⟩, lexicalParent := some 1, referenced := some 1 }]
  inclusions := [⟨"é.h", 4294967295⟩]
  diagnostics := [⟨.fatal, "main.cpp:1:1: fatal error: \u2028"⟩]

theorem wordIndexed_escapedTree (root : NodeId) (h : root < UInt32.size) : (escapedTree root).WordIndexed := by
  refine ⟨h, ?_⟩
  simp only [escapedTree, List.forall_mem_cons]
  refine ⟨⟨?_, ?_, ?_⟩, ⟨?_, ?_, ?_⟩, ⟨?_, ?_, ?_⟩, by simp⟩
  all_goals simp [Node.links, UInt32.size]

theorem snapshotTree_write_escapedTree :
    ((escapedTree 0).check = .ok () ∧
        ∀ leeway pretty,
          Frontend.snapshotTree leeway "u.json" (.ok (write pretty (escapedTree 0))) = .ok (escapedTree 0)) ∧
      (escapedTree 3).check = .error (.rootMissing 3) ∧
        ∀ leeway pretty, Frontend.snapshotTree leeway "u.json" (.ok (write pretty (escapedTree 3))) =
          .error (.badSnapshot "u.json" (.rootMissing 3)) := by
  refine ⟨⟨by decide, fun leeway pretty => ?_⟩, by decide, fun leeway pretty => ?_⟩
  · exact (snapshotTree_write leeway pretty "u.json" (escapedTree 0) (wordIndexed_escapedTree 0 (by decide))).1
      (by decide)
  · exact ((snapshotTree_write leeway pretty "u.json" (escapedTree 3) (wordIndexed_escapedTree 3 (by decide))).2
      (.rootMissing 3) (by decide)).1

end Snapshot

end UnitFacts

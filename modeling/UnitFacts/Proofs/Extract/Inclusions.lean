import UnitFacts.Extract
import UnitFacts.Proofs.Facts.Ascending

/-!
What the include dependencies of a tree are. Inclusions of one header, however its path is slashed and however
often and deep it is included, give one dependency, with the least of their depths; a depth below one counts as
one. Dependencies ascend by path, in the order of the bytes.
-/

namespace UnitFacts

namespace IncludeDep

instance : Std.TransOrd IncludeDep :=
  inferInstanceAs (Std.TransCmp (compareLex (compareOn path) (compareOn depth)))

theorem isLE_compare_iff (a b : IncludeDep) :
    (compare a b).isLE = true ↔ a.path < b.path ∨ a.path = b.path ∧ a.depth ≤ b.depth := by
  have hcompare : compare a b = (compare a.path b.path).then (compare a.depth b.depth) := rfl
  have hlt := compare_string_eq_lt_iff a.path b.path
  have heq := Std.LawfulEqOrd.compare_eq_iff_eq (a := a.path) (b := b.path)
  rw [hcompare, ← hlt, ← heq, ← Std.isLE_compare]
  cases compare a.path b.path <;> simp

theorem pairwise_path_tidy (deps : List IncludeDep) : (tidy deps).Pairwise fun a b => a.path < b.path := by
  refine pairwise_dropRepeats path (· < ·) (fun _ _ _ => String.lt_trans) ?_
  refine (pairwise_sortAscending deps).imp fun {a b} hle => ?_
  exact ((isLE_compare_iff a b).mp hle).symm.imp_left And.left

theorem mem_of_mem_tidy {deps : List IncludeDep} {dep : IncludeDep} (h : dep ∈ tidy deps) : dep ∈ deps :=
  List.mem_mergeSort.mp ((dropRepeats_sublist _ _).mem h)

/-- For every dependency one of the same path stays that is no deeper. -/
theorem exists_mem_tidy_le {deps : List IncludeDep} {dep : IncludeDep} (h : dep ∈ deps) :
    ∃ kept ∈ tidy deps, kept.path = dep.path ∧ kept.depth ≤ dep.depth := by
  have hmem : dep ∈ sortAscending deps := List.mem_mergeSort.mpr h
  obtain ⟨kept, hkept, hpath, hle⟩ := exists_mem_dropRepeats_le path
    (fun a b => (compare a b).isLE = true) (fun _ => Std.ReflOrd.isLE_rfl)
    (fun _ _ _ => Std.TransOrd.isLE_trans) (pairwise_sortAscending deps) dep hmem
  refine ⟨kept, hkept, hpath, ?_⟩
  rcases (isLE_compare_iff kept dep).mp hle with hlt | hdepth
  · exact absurd (hpath ▸ hlt) (String.lt_irrefl _)
  · exact hdepth.2

theorem eq_of_mem_tidy {deps : List IncludeDep} {dep other : IncludeDep} (hdep : dep ∈ tidy deps)
    (hother : other ∈ tidy deps) (hpath : dep.path = other.path) : dep = other := by
  have hnodup : ((tidy deps).map path).Nodup :=
    List.pairwise_map.mpr ((pairwise_path_tidy deps).imp fun {a b} hlt => String.ne_of_lt hlt)
  exact List.inj_on_of_nodup_map hnodup hdep hother hpath

/-- What stays is of least depth among the dependencies of its path. -/
theorem mem_tidy_iff (deps : List IncludeDep) (dep : IncludeDep) :
    dep ∈ tidy deps ↔ dep ∈ deps ∧ ∀ other ∈ deps, other.path = dep.path → dep.depth ≤ other.depth := by
  constructor
  · refine fun h => ⟨mem_of_mem_tidy h, fun other hother hpath => ?_⟩
    obtain ⟨kept, hkept, hkeptPath, hdepth⟩ := exists_mem_tidy_le hother
    obtain rfl := eq_of_mem_tidy hkept h (hkeptPath.trans hpath)
    exact hdepth
  · rintro ⟨hdep, hleast⟩
    obtain ⟨kept, hkept, hpath, hdepth⟩ := exists_mem_tidy_le hdep
    have hle := hleast kept (mem_of_mem_tidy hkept) hpath
    obtain ⟨keptPath, keptDepth⟩ := kept
    obtain ⟨depPath, depDepth⟩ := dep
    obtain rfl : keptPath = depPath := hpath
    obtain rfl : keptDepth = depDepth := UInt32.le_antisymm hdepth hle
    exact hkept

end IncludeDep

namespace Tree

/-- The dependencies are the paths of the inclusions, their slashes forward and none empty, in ascending order,
each with the least depth of the inclusions of that path; the order and number of the inclusions do not matter. -/
structure IncludesExact (t : Tree) (deps : List IncludeDep) : Prop where
  ascending : deps.Pairwise fun a b => utf8Bytes a.path < utf8Bytes b.path
  path_iff : ∀ path, path ∈ deps.map (·.path) ↔
    path ≠ "" ∧ ∃ inclusion ∈ t.inclusions, Path.normalise inclusion.path = path
  attained : ∀ dep ∈ deps,
    ∃ inclusion ∈ t.inclusions, Path.normalise inclusion.path = dep.path ∧ max inclusion.depth 1 = dep.depth
  least : ∀ dep ∈ deps, ∀ inclusion ∈ t.inclusions, Path.normalise inclusion.path = dep.path →
    dep.depth ≤ max inclusion.depth 1
  same : ∀ (other : Tree) (file : String) (options : ExtractOptions),
    (∀ inclusion, inclusion ∈ other.inclusions ↔ inclusion ∈ t.inclusions) →
      (other.extract file options).includeDeps = deps

theorem mem_includeDeps_iff (t : Tree) (dep : IncludeDep) : dep ∈ t.includeDeps ↔ dep.path ≠ "" ∧
    ∃ inclusion ∈ t.inclusions, Path.normalise inclusion.path = dep.path ∧ max inclusion.depth 1 = dep.depth := by
  rw [includeDeps, List.mem_filter, List.mem_map, and_comm, decide_eq_true_eq]
  obtain ⟨path, depth⟩ := dep
  simp only [IncludeDep.mk.injEq]

/-- The include dependencies of every tree are those of its inclusions. -/
theorem includesExact_extract (t : Tree) (file : String) (options : ExtractOptions) :
    t.IncludesExact (t.extract file options).includeDeps := by
  have hdeps : (t.extract file options).includeDeps = IncludeDep.tidy t.includeDeps := rfl
  rw [hdeps]
  constructor
  · exact (IncludeDep.pairwise_path_tidy _).imp fun h => (utf8Bytes_lt_iff _ _).mpr h
  · intro path
    rw [List.mem_map]
    constructor
    · rintro ⟨dep, hdep, rfl⟩
      obtain ⟨hne, inclusion, hmem, hpath, -⟩ :=
        (t.mem_includeDeps_iff dep).mp (IncludeDep.mem_of_mem_tidy hdep)
      exact ⟨hne, inclusion, hmem, hpath⟩
    · rintro ⟨hne, inclusion, hmem, rfl⟩
      obtain ⟨kept, hkept, hpath, -⟩ := IncludeDep.exists_mem_tidy_le
        ((t.mem_includeDeps_iff ⟨_, max inclusion.depth 1⟩).mpr ⟨hne, inclusion, hmem, rfl, rfl⟩)
      exact ⟨kept, hkept, hpath⟩
  · intro dep hdep
    exact ((t.mem_includeDeps_iff dep).mp (IncludeDep.mem_of_mem_tidy hdep)).2
  · intro dep hdep inclusion hmem hpath
    obtain ⟨hold, hleast⟩ := (IncludeDep.mem_tidy_iff _ dep).mp hdep
    have hne := ((t.mem_includeDeps_iff dep).mp hold).1
    exact hleast ⟨dep.path, max inclusion.depth 1⟩
      ((t.mem_includeDeps_iff _).mpr ⟨hne, inclusion, hmem, hpath, rfl⟩) rfl
  · intro other file options hsame
    have hsource : ∀ dep, dep ∈ other.includeDeps ↔ dep ∈ t.includeDeps := by
      intro dep
      rw [mem_includeDeps_iff, mem_includeDeps_iff]
      simp only [hsame]
    have hirrefl : Std.Irrefl fun a b : IncludeDep => a.path < b.path := ⟨fun a => String.lt_irrefl a.path⟩
    have hantisymm : Std.Antisymm fun a b : IncludeDep => a.path < b.path :=
      ⟨fun a b hab hba => absurd (String.lt_trans hab hba) (String.lt_irrefl _)⟩
    refine (IncludeDep.pairwise_path_tidy _).eq_of_mem_iff (IncludeDep.pairwise_path_tidy _) fun dep => ?_
    rw [IncludeDep.mem_tidy_iff, IncludeDep.mem_tidy_iff]
    simp only [hsource]

end Tree

end UnitFacts

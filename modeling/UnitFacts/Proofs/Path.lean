import Mathlib.Data.List.Forall2
import Mathlib.Logic.Relation
import UnitFacts.Path
import UnitFacts.Proofs.Text.Cuts

/-!
Paths and their components. What is put behind a path and a slash adds components to those of the path, so a directory
stays above all that is below it. A path can be written in other ways (`Respells`) that have the same components. A
name that is made longer at its end is another component, so what begins as a directory is not below it for that.
-/

namespace UnitFacts

namespace Path

def IsSlash (c : Char) : Prop := c = '/' ∨ c = '\\'

/-- One way of writing a path and another: slashes that lean the other way, a slash written twice, `/./` in place of a
slash, and a slash at the end. -/
inductive Respells : String → String → Prop
  | slashes {path other : String} :
      List.Forall₂ (fun c d => c = d ∨ IsSlash c ∧ IsSlash d) path.toList other.toList → Respells path other
  | doubled (above below : String) : Respells (above ++ "/" ++ below) (above ++ "//" ++ below)
  | dotted (above below : String) : Respells (above ++ "/" ++ below) (above ++ "/./" ++ below)
  | closed {path : String} : path ≠ "" → Respells path (path ++ "/")

/-- What stands behind the last slash, of whichever kind. -/
def lastSegment (path : String) : List Char := (Text.splitOn '/' (normalise path).toList).getLastD []

/-! ### Slashes -/

theorem toList_normalise (path : String) :
    (normalise path).toList = path.toList.map fun c => if c = '\\' then '/' else c := by
  rw [normalise, String.toList_map]

theorem normalise_append_slash (path below : String) :
    normalise (path ++ "/" ++ below) = normalise path ++ "/" ++ normalise below := by
  rw [← String.toList_inj]
  simp [toList_normalise]

theorem normalise_normalise (path : String) : normalise (normalise path) = normalise path := by
  rw [normalise, normalise, String.map_map]
  congr 1
  funext c
  by_cases hc : c = '\\' <;> simp [hc]

theorem normalise_ne_empty {path : String} (h : path ≠ "") : normalise path ≠ "" := by
  rw [normalise]
  simpa using h

theorem normalise_eq_of_slashes {path other : String}
    (h : List.Forall₂ (fun c d => c = d ∨ IsSlash c ∧ IsSlash d) path.toList other.toList) :
    normalise other = normalise path := by
  rw [← String.toList_inj, toList_normalise, toList_normalise]
  generalize path.toList = cs at h
  generalize other.toList = ds at h
  induction h with
  | nil => rfl
  | @cons c d cs ds hcd _ ih =>
    rw [List.map_cons, List.map_cons, ih]
    congr 1
    rcases hcd with rfl | ⟨rfl | rfl, rfl | rfl⟩ <;> rfl

/-! ### Components -/

theorem components_eq {path : String} {first : List Char} {rest : List (List Char)}
    (h : Text.splitOn '/' path.toList = first :: rest) :
    components path =
      (if first.isEmpty then (if rest.isEmpty then [] else [['/']]) else [first]) ++ rest.filter isSolid := by
  rw [components, h]

theorem splitOn_append_slash (path below : String) : Text.splitOn '/' (path ++ "/" ++ below).toList =
    Text.splitOn '/' path.toList ++ Text.splitOn '/' below.toList := by
  have htext : (path ++ "/" ++ below).toList = path.toList ++ '/' :: below.toList := by simp
  rw [htext, Text.splitOn_append_separator]

theorem splitOn_closed (path : String) :
    Text.splitOn '/' (path ++ "/").toList = Text.splitOn '/' path.toList ++ [[]] := by
  have hempty := splitOn_append_slash path ""
  rwa [String.append_empty] at hempty

/-- What is below a slash adds its segments to the components, those left out that do not count. -/
theorem components_append_slash (path below : String) :
    components (path ++ "/" ++ below) =
      components (path ++ "/") ++ (Text.splitOn '/' below.toList).filter isSolid := by
  obtain ⟨first, rest, hpath⟩ := Text.exists_splitOn_eq_cons '/' path.toList
  have hall := splitOn_append_slash path below
  have hclosed := splitOn_closed path
  rw [hpath, List.cons_append] at hall hclosed
  have hbelow : Text.splitOn '/' below.toList ≠ [] := Text.splitWhere_ne_nil _ _
  rw [components_eq hall, components_eq hclosed]
  simp [hbelow, isSolid]

theorem components_closed {path : String} (h : path ≠ "") : components (path ++ "/") = components path := by
  obtain ⟨first, rest, hpath⟩ := Text.exists_splitOn_eq_cons '/' path.toList
  have hclosed := splitOn_closed path
  rw [hpath, List.cons_append] at hclosed
  have hrest : first = [] → rest ≠ [] := by
    rintro rfl rfl
    exact Text.splitOn_ne_singleton_nil (mt String.toList_eq_nil_iff.mp h) hpath
  rw [components_eq hclosed, components_eq hpath]
  by_cases hempty : first = []
  · simp [hempty, hrest hempty, isSolid]
  · simp [hempty, isSolid]

theorem components_prefix_append_slash (path below : String) :
    components path <+: components (path ++ "/" ++ below) := by
  by_cases h : path = ""
  · subst h
    exact List.nil_prefix
  · rw [components_append_slash, components_closed h]
    exact List.prefix_append _ _

/-- A segment between two slashes that does not count can be left out. -/
theorem components_skip (above below : String) {segment : String} (hslash : '/' ∉ segment.toList)
    (hsolid : isSolid segment.toList = false) :
    components (above ++ "/" ++ (segment ++ "/" ++ below)) = components (above ++ "/" ++ below) := by
  have htext : (segment ++ "/" ++ below).toList = segment.toList ++ '/' :: below.toList := by simp
  rw [components_append_slash, components_append_slash, htext, Text.splitOn_append_cons hslash, List.filter_cons,
    hsolid, if_neg Bool.false_ne_true]

/-- All ways of writing a path have the same components. -/
theorem Respells.components_eq {path other : String} (h : Respells path other) :
    components (normalise other) = components (normalise path) := by
  cases h with
  | slashes h => rw [normalise_eq_of_slashes h]
  | doubled above below =>
    have htext : normalise (above ++ "//" ++ below) = normalise above ++ "/" ++ ("" ++ "/" ++ normalise below) := by
      rw [← String.toList_inj]
      simp [toList_normalise]
    rw [htext, components_skip _ _ (by simp) rfl, normalise_append_slash]
  | dotted above below =>
    have htext : normalise (above ++ "/./" ++ below) = normalise above ++ "/" ++ ("." ++ "/" ++ normalise below) := by
      rw [← String.toList_inj]
      simp [toList_normalise]
    rw [htext, components_skip _ _ (by simp) rfl, normalise_append_slash]
  | closed hne =>
    have htext : normalise (path ++ "/") = normalise path ++ "/" := by
      rw [← String.toList_inj]
      simp [toList_normalise]
    rw [htext, components_closed (normalise_ne_empty hne)]

/-! ### Longer names -/

/-- What is put behind a path without a slash between makes its last component longer. -/
theorem exists_components_append {path more : String} {segments others : List (List Char)} {last head : List Char}
    (hpath : Text.splitOn '/' path.toList = segments ++ [last]) (hlast : last ≠ []) (hdot : last ≠ ['.'])
    (hmore : Text.splitOn '/' more.toList = head :: others) :
    ∃ above, components path = above ++ [last] ∧
      components (path ++ more) = above ++ (last ++ head) :: others.filter isSolid := by
  have hsolid : ∀ tail, isSolid (last ++ tail) = true := by
    intro tail
    obtain ⟨c, rest, rfl⟩ := List.exists_cons_of_ne_nil hlast
    cases rest <;> simp_all [isSolid]
  have hself : isSolid last = true := by simpa using hsolid []
  have hjoin : Text.splitOn '/' (path ++ more).toList = segments ++ (last ++ head) :: others := by
    rw [String.toList_append]
    exact Text.splitOn_append hpath hmore
  -- the first segment counts even if it is `.`, so a path of one segment is a case of its own
  cases segments with
  | nil =>
    have halone : Text.splitOn '/' path.toList = last :: [] := hpath
    refine ⟨[], ?_, ?_⟩
    · rw [components_eq halone]
      simp [hlast]
    · rw [components_eq hjoin]
      simp [hlast]
  | cons first rest =>
    refine ⟨(if first.isEmpty then [['/']] else [first]) ++ rest.filter isSolid, ?_, ?_⟩
    · rw [components_eq hpath]
      simp [hself]
    · rw [components_eq hjoin]
      simp [hsolid]

/-- What begins as a directory and goes on in the name of it is not below it. -/
theorem not_isUnder_longer {base : String} (hname : lastSegment base ≠ [])
    (hdot : lastSegment base ≠ ['.']) {c : Char}
    (hc : ¬ IsSlash c) (rest : String) :
    isUnder (normalise (base ++ String.singleton c ++ rest)) (normalise base) = false := by
  have hpath : Text.splitOn '/' (normalise base).toList =
      (Text.splitOn '/' (normalise base).toList).dropLast ++ [lastSegment base] := by
    have hne : Text.splitOn '/' (normalise base).toList ≠ [] := Text.splitWhere_ne_nil _ _
    rw [lastSegment, List.getLastD_eq_getLast?, List.getLast?_eq_some_getLast hne, Option.getD_some,
      List.dropLast_append_getLast]
  have htext : normalise (base ++ String.singleton c ++ rest) =
      normalise base ++ (String.singleton c ++ normalise rest) := by
    rw [← String.toList_inj]
    simp [toList_normalise, mt Or.inr hc]
  obtain ⟨piece, others, hrest⟩ := Text.exists_splitOn_eq_cons '/' (normalise rest).toList
  have hmore : Text.splitOn '/' (String.singleton c ++ normalise rest).toList = (c :: piece) :: others := by
    rw [String.toList_append, String.toList_singleton, List.singleton_append, Text.splitOn_cons, if_neg (mt Or.inl hc),
      hrest, List.modifyHead_cons]
  obtain ⟨above, hbase, hlonger⟩ := exists_components_append hpath hname hdot hmore
  rw [← Bool.not_eq_true, isUnder, htext, hbase, hlonger, List.isPrefixOf_iff_prefix, List.prefix_append_right_inj,
    List.cons_prefix_cons]
  rintro ⟨heq, -⟩
  exact List.cons_ne_nil _ _ (List.self_eq_append_right.mp heq)

end Path

end UnitFacts

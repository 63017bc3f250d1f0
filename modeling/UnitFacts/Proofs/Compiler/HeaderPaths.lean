import UnitFacts.Compiler.SystemHeaders
import UnitFacts.Proofs.Path

/-!
Which paths are library headers goes by the place that a path names and not by how it is written. The roots are library
headers with all that is below them, a path that is written in another way gets the same answer, and a name that only
begins as that of the root is another place.
-/

namespace UnitFacts

namespace SystemHeaders

open Relation (EqvGen)

/-- The answer for the paths of library headers is closed downwards and the same for all ways of writing a path, and
the sole root does not reach what goes on in its name. -/
structure GoesByPlace (roots : List String) : Prop where
  root : ∀ root ∈ roots, root ≠ "" → (ofRoots roots).isSystem root = true
  below : ∀ path below, (ofRoots roots).isSystem path = true →
    (ofRoots roots).isSystem (path ++ "/" ++ below) = true
  respelled : ∀ path other, EqvGen Path.Respells path other →
    (ofRoots roots).isSystem other = (ofRoots roots).isSystem path
  longer : ∀ root c rest, roots = [root] → Path.lastSegment root ≠ [] → Path.lastSegment root ≠ ['.'] →
    ¬ Path.IsSlash c → Text.startsWith "<" (root ++ String.singleton c ++ rest) = false →
    (ofRoots roots).isSystem (root ++ String.singleton c ++ rest) = false

/-! ### Pseudo-files -/

theorem startsWith_append_of_tail {tail : String} (h : Text.startsWith "<" tail = false) (path : String) :
    Text.startsWith "<" (path ++ tail) = Text.startsWith "<" path := by
  cases hpath : path.toList with
  | nil =>
    obtain rfl := String.toList_eq_nil_iff.mp hpath
    rw [String.empty_append, h]
    rfl
  | cons c cs =>
    rw [Text.startsWith, Text.startsWith, String.toList_append, hpath]
    rfl

theorem startsWith_append_append {middle : String} (h : Text.Apart "<" middle) (above below : String) :
    Text.startsWith "<" (above ++ middle ++ below) = Text.startsWith "<" above := by
  rw [String.append_assoc]
  exact startsWith_append_of_tail (Text.startsWith_append_of_apart h below) above

theorem startsWith_append_slash (path below : String) :
    Text.startsWith "<" (path ++ "/" ++ below) = Text.startsWith "<" path :=
  startsWith_append_append (by decide) path below

theorem startsWith_of_respells {path other : String} (h : Path.Respells path other) :
    Text.startsWith "<" other = Text.startsWith "<" path := by
  cases h with
  | slashes h =>
    rw [Text.startsWith, Text.startsWith]
    generalize path.toList = cs at h
    generalize other.toList = ds at h
    cases h with
    | nil => rfl
    | cons hcd _ => rcases hcd with rfl | ⟨rfl | rfl, rfl | rfl⟩ <;> rfl
  | doubled above below =>
    exact (startsWith_append_append (by decide) above below).trans (startsWith_append_slash above below).symm
  | dotted above below =>
    exact (startsWith_append_append (by decide) above below).trans (startsWith_append_slash above below).symm
  | closed _ => exact startsWith_append_of_tail (by decide) path

/-! ### Library headers -/

theorem isSystem_congr (headers : SystemHeaders) {path other : String}
    (hpseudo : Text.startsWith "<" other = Text.startsWith "<" path)
    (hcomponents : Path.components (Path.normalise other) = Path.components (Path.normalise path)) :
    headers.isSystem other = headers.isSystem path := by
  simp only [isSystem, Path.isUnder, hpseudo, hcomponents]

theorem isSystem_respelled (headers : SystemHeaders) {path other : String} (h : EqvGen Path.Respells path other) :
    headers.isSystem other = headers.isSystem path := by
  induction h with
  | rel path other h => exact headers.isSystem_congr (startsWith_of_respells h) h.components_eq
  | refl => rfl
  | symm _ _ _ ih => exact ih.symm
  | trans _ _ _ _ _ hfirst hsecond => exact hsecond.trans hfirst

theorem isSystem_below (headers : SystemHeaders) {path : String} (below : String) (h : headers.isSystem path = true) :
    headers.isSystem (path ++ "/" ++ below) = true := by
  rw [isSystem, Bool.or_eq_true, List.any_eq_true] at h ⊢
  rw [startsWith_append_slash]
  refine h.imp_right ?_
  rintro ⟨root, hroot, hunder⟩
  refine ⟨root, hroot, ?_⟩
  rw [Path.isUnder, List.isPrefixOf_iff_prefix] at hunder ⊢
  rw [Path.normalise_append_slash]
  exact hunder.trans (Path.components_prefix_append_slash _ _)

theorem isSystem_root {roots : List String} {root : String} (hroot : root ∈ roots) (hne : root ≠ "") :
    (ofRoots roots).isSystem root = true := by
  have hmem : Path.normalise root ∈ (ofRoots roots).roots :=
    List.mem_filter.mpr ⟨List.mem_map_of_mem hroot, decide_eq_true (Path.normalise_ne_empty hne)⟩
  rw [isSystem, Bool.or_eq_true, List.any_eq_true]
  refine Or.inr ⟨Path.normalise root, hmem, ?_⟩
  rw [Path.isUnder, List.isPrefixOf_iff_prefix]

theorem isSystem_longer {root : String} (hname : Path.lastSegment root ≠ []) (hdot : Path.lastSegment root ≠ ['.'])
    {c : Char} (hc : ¬ Path.IsSlash c) {rest : String}
    (hpseudo : Text.startsWith "<" (root ++ String.singleton c ++ rest) = false) :
    (ofRoots [root]).isSystem (root ++ String.singleton c ++ rest) = false := by
  rw [isSystem, hpseudo, Bool.false_or, List.any_eq_false]
  intro other hother
  obtain rfl : other = Path.normalise root := by
    have hmem := List.mem_of_mem_filter hother
    rwa [List.map_singleton, List.mem_singleton] at hmem
  rw [Path.not_isUnder_longer hname hdot hc rest]
  exact Bool.false_ne_true

theorem goesByPlace_ofRoots (roots : List String) : GoesByPlace roots where
  root _ hroot hne := isSystem_root hroot hne
  below _ below h := isSystem_below _ below h
  respelled _ _ h := isSystem_respelled _ h
  longer root c rest hroots hname hdot hc hpseudo := by
    subst hroots
    exact isSystem_longer hname hdot hc hpseudo

/-- The directory `/usr/include`, with a header below it, another way of writing that, and one below `/usr/include2`. -/
theorem goesByPlace_ofRoots_usrInclude :
    Path.lastSegment "/usr/include" = "include".toList ∧ ¬ Path.IsSlash '2' ∧
      (ofRoots ["/usr/include"]).isSystem ("/usr/include" ++ "/" ++ "vector") = true ∧
      (ofRoots ["/usr/include"]).isSystem ("/usr/include" ++ "/./" ++ "vector") = true ∧
      (ofRoots ["/usr/include"]).isSystem ("/usr/include" ++ String.singleton '2' ++ "/fake.h") = false := by
  have hplace := goesByPlace_ofRoots ["/usr/include"]
  have hname : Path.lastSegment "/usr/include" = "include".toList := by
    rw [Path.lastSegment, Path.toList_normalise]
    decide
  have hdigit : ¬ Path.IsSlash '2' := by simp [Path.IsSlash]
  have hbelow := hplace.below "/usr/include" "vector" (hplace.root _ List.mem_cons_self (by decide))
  have hrespelled := hplace.respelled _ _ (.rel _ _ (.dotted "/usr/include" "vector"))
  refine ⟨hname, hdigit, hbelow, hrespelled.trans hbelow, ?_⟩
  exact hplace.longer "/usr/include" '2' "/fake.h" rfl (by rw [hname]; decide) (by rw [hname]; decide) hdigit
    (by decide)

end SystemHeaders

end UnitFacts

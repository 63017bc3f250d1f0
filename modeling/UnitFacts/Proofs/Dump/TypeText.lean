import Mathlib.Data.List.DropRight
import UnitFacts.Proofs.Dump.TypeNames

/-!
Names as texts. The short name of a qualified name is what follows its last `::`, and a name that neither begins nor
ends in a colon has the same short name as every name that ends in it. The record that a constructed type names is
cut off at the first template argument list of the type.
-/

namespace UnitFacts

namespace Text

/-- A cut is made at the first occurrence: no other one begins before it. -/
theorem eq_of_cutAt?_eq_some {separator cs before after : List Char}
    (h : cutAt? separator cs = some (before, after)) :
    cs = before ++ separator ++ after ∧ (separator ≠ [] → ¬ separator <:+: before ++ separator.dropLast) := by
  induction cs generalizing before with
  | nil =>
    rw [cutAt?] at h
    split at h
    · rename_i hempty
      cases h
      simp [List.isEmpty_iff.mp hempty]
    · cases h
  | cons c rest ih =>
    rw [cutAt?] at h
    cases hstarts : separator.isPrefixOf? (c :: rest) with
    | some others =>
      rw [hstarts] at h
      cases h
      refine ⟨(List.isPrefixOf?_eq_some_iff_append_eq.mp hstarts).symm, fun hne hinfix => ?_⟩
      have hlength := hinfix.length_le
      rw [List.nil_append, List.length_dropLast] at hlength
      have hpos := List.length_pos_iff.mpr hne
      omega
    | none =>
      rw [hstarts] at h
      obtain ⟨⟨before', after'⟩, hcut, heq⟩ := Option.map_eq_some_iff.mp h
      cases heq
      obtain ⟨hrest, hfirst⟩ := ih hcut
      refine ⟨by rw [hrest]; rfl, fun hne hinfix => ?_⟩
      rcases List.infix_cons_iff.mp hinfix with hstart | hlater
      · have hlonger : c :: (before' ++ separator.dropLast) <+: c :: rest := by
          rw [hrest, List.prefix_cons_inj, List.append_assoc, List.prefix_append_right_inj]
          exact (List.dropLast_prefix separator).trans (List.prefix_append _ _)
        obtain ⟨others, hothers⟩ := hstart.trans hlonger
        rw [List.isPrefixOf?_eq_some_iff_append_eq.mpr hothers] at hstarts
        cases hstarts
      · exact hfirst hne hlater

theorem not_infix_of_cutAt?_eq_none {separator cs : List Char} (h : cutAt? separator cs = none) :
    ¬ separator <:+: cs := by
  induction cs with
  | nil =>
    rw [cutAt?] at h
    split at h
    · cases h
    · rename_i hne
      intro hinfix
      exact hne (by simpa using hinfix)
  | cons c rest ih =>
    rw [cutAt?] at h
    cases hstarts : separator.isPrefixOf? (c :: rest) with
    | some others =>
      rw [hstarts] at h
      cases h
    | none =>
      rw [hstarts] at h
      intro hinfix
      rcases List.infix_cons_iff.mp hinfix with ⟨others, hothers⟩ | hlater
      · rw [List.isPrefixOf?_eq_some_iff_append_eq.mpr hothers] at hstarts
        cases hstarts
      · exact ih (Option.map_eq_none_iff.mp h) hlater

theorem trimChar_eq (c : Char) (cs : List Char) :
    trimChar c cs = (cs.dropWhile fun d => d = c).rdropWhile fun d => d = c := rfl

theorem head?_trimChar (c : Char) (cs : List Char) : (trimChar c cs).head? ≠ some c := by
  intro h
  rw [trimChar_eq] at h
  have hfirst : (cs.dropWhile fun d => decide (d = c)).head? = some c := by
    obtain ⟨others, hothers⟩ :=
      List.rdropWhile_prefix (fun d => decide (d = c)) (cs.dropWhile fun d => decide (d = c))
    rw [← hothers, List.head?_append, h]
    rfl
  have hnot := List.head?_dropWhile_not (fun d => decide (d = c)) cs
  rw [hfirst] at hnot
  simp at hnot

theorem getLast?_trimChar (c : Char) (cs : List Char) : (trimChar c cs).getLast? ≠ some c := by
  intro h
  rw [trimChar, List.getLast?_reverse] at h
  have hnot := List.head?_dropWhile_not (fun d => decide (d = c)) (cs.dropWhile fun d => decide (d = c)).reverse
  rw [h] at hnot
  simp at hnot

end Text

namespace Dump

/-- A text that can be the last part of a qualified name: with a colon in front it still has no `::`. -/
def IsPart (text : String) : Prop := ¬ [':', ':'] <:+: ':' :: text.toList

theorem isPart_iff (text : String) :
    IsPart text ↔ text.toList.head? ≠ some ':' ∧ ¬ [':', ':'] <:+: text.toList := by
  rw [IsPart, List.infix_cons_iff, not_or]
  refine and_congr_left fun _ => not_congr ?_
  rw [List.cons_prefix_cons, List.singleton_prefix_iff_head?_eq_some]
  exact ⟨And.right, fun h => ⟨rfl, h⟩⟩

theorem endsIn_iff (qualified name : String) :
    EndsIn qualified name ↔ ∃ scope, qualified.toList = scope ++ [':', ':'] ++ name.toList := by
  constructor
  · rintro ⟨scope, rfl⟩
    exact ⟨scope.toList, by simp⟩
  · rintro ⟨scope, hscope⟩
    refine ⟨String.ofList scope, ?_⟩
    rw [← String.toList_inj, hscope]
    simp

theorem EndsIn.trans {first second third : String} (h : EndsIn first second) (h' : EndsIn second third) :
    EndsIn first third := by
  obtain ⟨scope, rfl⟩ := h
  obtain ⟨inner, rfl⟩ := h'
  exact ⟨scope ++ "::" ++ inner, by simp only [String.append_assoc]⟩

/-- A text ends in one part only. -/
theorem EndsIn.part_unique {text first second : String} (h : EndsIn text first) (h' : EndsIn text second)
    (hfirst : IsPart first) (hsecond : IsPart second) : first = second := by
  -- of two separators the one that comes later stands in the part after the other one
  have hsame : ∀ {a b between : List Char}, ¬ [':', ':'] <:+: ':' :: a →
      ':' :: ':' :: a = between ++ ':' :: ':' :: b → a = b := by
    intro a b between hpart heq
    match between with
    | [] => simpa using heq
    | [c] =>
      simp only [List.cons_append, List.nil_append, List.cons.injEq] at heq
      exact absurd ⟨[], b, by simp [heq.2.2]⟩ hpart
    | c :: d :: others =>
      simp only [List.cons_append, List.cons.injEq] at heq
      exact absurd ⟨':' :: others, b, by simp [heq.2.2]⟩ hpart
  obtain ⟨scope, hscope⟩ := (endsIn_iff text first).mp h
  obtain ⟨scope', hscope'⟩ := (endsIn_iff text second).mp h'
  rw [hscope, List.append_assoc, List.append_assoc] at hscope'
  rw [← String.toList_inj]
  rcases List.append_eq_append_iff.mp hscope' with ⟨between, -, heq⟩ | ⟨between, -, heq⟩
  · exact hsame hfirst heq
  · exact (hsame hsecond heq).symm

/-- The short name is all of a name without `::`, and otherwise the part that it ends in. -/
theorem shortName_cases (name : String) :
    (¬ [':', ':'] <:+: name.toList ∧ shortName name = name) ∨
      EndsIn name (shortName name) ∧ IsPart (shortName name) := by
  unfold shortName
  cases hcut : Text.cutAt? [':', ':'] name.toList.reverse with
  | none =>
    have hnone := Text.not_infix_of_cutAt?_eq_none hcut
    rw [← List.reverse_infix, List.reverse_reverse] at hnone
    exact Or.inl ⟨hnone, rfl⟩
  | some cut =>
    obtain ⟨last, others⟩ := cut
    obtain ⟨hname, hfirst⟩ := Text.eq_of_cutAt?_eq_some hcut
    refine Or.inr ⟨(endsIn_iff ..).mpr ⟨others.reverse, ?_⟩, ?_⟩
    · rw [← List.reverse_reverse name.toList, hname]
      simp
    · have hpart := hfirst (by simp)
      rw [← List.reverse_infix] at hpart
      simpa [IsPart] using hpart

theorem shortName_of_endsIn {name part : String} (hpart : IsPart part) (h : name = part ∨ EndsIn name part) :
    shortName name = part := by
  rcases shortName_cases name with ⟨hplain, hshort⟩ | ⟨hends, hshort⟩
  · rcases h with rfl | h
    · exact hshort
    · obtain ⟨scope, hscope⟩ := (endsIn_iff name part).mp h
      exact absurd ⟨scope, part.toList, hscope.symm⟩ hplain
  · rcases h with rfl | h
    · obtain ⟨scope, hscope⟩ := (endsIn_iff ..).mp hends
      exact absurd ⟨scope, _, hscope.symm⟩ ((isPart_iff _).mp hpart).2
    · exact hends.part_unique h hshort hpart

/-- A name that neither begins nor ends in a colon. -/
structure IsTrimmed (name : String) : Prop where
  ne_empty : name ≠ ""
  head : name.toList.head? ≠ some ':'
  last : name.toList.getLast? ≠ some ':'

theorem isTrimmed_of_mem_typeNames {type name : String} (h : name ∈ typeNames type) : IsTrimmed name := by
  obtain ⟨word, hword, rfl⟩ := List.mem_map.mp h
  obtain ⟨hmem, hname⟩ := List.mem_filter.mp (mem_of_mem_firstByKey _ _ _ hword)
  obtain ⟨piece, -, rfl⟩ := List.mem_map.mp hmem
  have hne : Text.trimChar ':' piece ≠ [] := by
    intro hempty
    simp [isName, hempty] at hname
  refine ⟨?_, by simpa using Text.head?_trimChar ':' piece, by simpa using Text.getLast?_trimChar ':' piece⟩
  rw [← String.toList_inj.ne]
  simpa using hne

theorem IsTrimmed.isPart_shortName {name : String} (h : IsTrimmed name) : IsPart (shortName name) := by
  rcases shortName_cases name with ⟨hplain, hshort⟩ | ⟨-, hpart⟩
  · rw [hshort, isPart_iff]
    exact ⟨h.head, hplain⟩
  · exact hpart

theorem IsTrimmed.shortName_ne_empty {name : String} (h : IsTrimmed name) : shortName name ≠ "" := by
  intro hempty
  rcases shortName_cases name with ⟨-, hshort⟩ | ⟨hends, -⟩
  · exact h.ne_empty (hshort.symm.trans hempty)
  · obtain ⟨scope, hscope⟩ := (endsIn_iff ..).mp hends
    rw [hempty] at hscope
    exact h.last (by simp [hscope])

/-- A longer name has the short name of the name that it ends in. -/
theorem IsTrimmed.shortName_eq {name qualified : String} (h : IsTrimmed name) (hends : EndsIn qualified name) :
    shortName qualified = shortName name := by
  refine shortName_of_endsIn h.isPart_shortName (Or.inr ?_)
  rcases shortName_cases name with ⟨-, hshort⟩ | ⟨hends', -⟩
  · exact hshort.symm ▸ hends
  · exact hends.trans hends'

/-! ### Records -/

/-- A type without blanks around it and without words and `::` in front. -/
def bareType (type : String) : List Char :=
  typeQualifiers.foldl (fun cs front => dropFront front cs) (Text.trim type.toList)

/-- What is left of a text without its template argument lists, of which `depth` are open. -/
def dropArguments : Nat → List Char → List Char
  | _, [] => []
  | depth, '<' :: rest => dropArguments (depth + 1) rest
  | depth + 1, '>' :: rest => dropArguments depth rest
  | depth + 1, _ :: rest => dropArguments (depth + 1) rest
  | 0, c :: rest => c :: dropArguments 0 rest

/-- The qualified name that a type gives outside of template argument lists. -/
def plainName (type : String) : String :=
  String.ofList (Text.removeAll unnamedScope 0 (Text.trim (dropArguments 0 (bareType type))))

/-- Nothing but blanks follows the first template argument list of a type. -/
def EndsAtArguments (type : String) : Prop :=
  ∀ c ∈ dropArguments 0 ((bareType type).dropWhile fun c => c ≠ '<'), Text.isBlank c = true

/-- A name without `::` is the last part of a text. -/
def IsLastPart (text name : String) : Prop := ¬ [':', ':'] <:+: name.toList ∧ (text = name ∨ EndsIn text name)

theorem dropArguments_eq (cs : List Char) :
    dropArguments 0 cs = cs.takeWhile (fun c => c ≠ '<') ++ dropArguments 0 (cs.dropWhile fun c => c ≠ '<') := by
  induction cs with
  | nil => rfl
  | cons c rest ih =>
    by_cases hopen : c = '<'
    · simp [hopen]
    · have hstep : dropArguments 0 (c :: rest) = c :: dropArguments 0 rest := by
        rw [dropArguments]
        exact fun h => hopen h
      rw [hstep, ih, List.takeWhile_cons_of_pos (by simpa using hopen),
        List.dropWhile_cons_of_pos (by simpa using hopen)]
      rfl

theorem trim_append_blank {cs blanks : List Char} (h : ∀ c ∈ blanks, Text.isBlank c = true) :
    Text.trim (cs ++ blanks) = Text.trim cs := by
  have hend : Text.trimEnd (cs ++ blanks) = Text.trimEnd cs := by
    rw [Text.trimEnd, List.reverse_append, List.dropWhile_append_of_pos, Text.trimEnd]
    exact fun c hc => h c (List.mem_reverse.mp hc)
  rw [Text.trim, hend, Text.trim]

/-- The cut at the first template argument list loses nothing that stands after it. -/
theorem recordName_eq_plainName {type : String} (h : EndsAtArguments type) : recordName type = plainName type := by
  have hrecord : recordName type = String.ofList
    (Text.removeAll unnamedScope 0 (Text.trim ((bareType type).takeWhile fun c => c ≠ '<'))) := rfl
  rw [hrecord, plainName, dropArguments_eq, trim_append_blank h]

end Dump

end UnitFacts
